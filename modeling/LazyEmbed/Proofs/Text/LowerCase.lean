import LazyEmbed.Proofs.Text.Decoding
import LazyEmbed.Text.LowerCase
import Mathlib.Data.List.Forall2

/-!
# Small letters of ASCII

Of the capitals beyond ASCII only one has a small letter in it, which is `k`. So a text that is a
word of other small letters and of marks of ASCII in lower case is that word with some of its
letters as capitals (`lower_eq_iff`).
-/

namespace LazyEmbed.Text

variable {c d : Char} {text word before : Text}

/-- A character of ASCII that is no capital, nor the small letter of a capital beyond ASCII. -/
def IsOwn (d : Char) : Prop :=
  (0 < d.toNat ∧ d.toNat < 128) ∧ ¬(65 ≤ d.toNat ∧ d.toNat ≤ 90) ∧ d ≠ 'k'

instance (d : Char) : Decidable (IsOwn d) := inferInstanceAs (Decidable (_ ∧ _))

def Spells (c d : Char) : Prop := c = d ∨ (65 ≤ c.toNat ∧ c.toNat ≤ 90) ∧ c.toNat + 32 = d.toNat

/-- Capitals are those of ASCII, or the sign for kelvins, or beyond ASCII with their small
letters. -/
theorem CapitalRun.cases_of_mem : ∀ run ∈ CapitalRun.all,
    (run.first = 65 ∧ run.last = 90 ∧ run.distance = 32) ∨
      (run.first = 0x212A ∧ run.last = 0x212A ∧ run.distance = -8383) ∨
      (128 ≤ run.first ∧ (128 : Int) ≤ run.first + run.distance) := by
  decide +kernel

theorem CapitalRun.covers_iff {run : CapitalRun} {code : Nat} : run.covers code = true ↔
    (run.first ≤ code ∧ code ≤ run.last) ∧ (code - run.first) % run.step = 0 := by
  simp [covers]

/-- Beyond ASCII a number gives a character that is beyond ASCII too, or else the null character. -/
theorem ofNat_ne_of_le {n : Nat} (h : 128 ≤ n) (hd : IsOwn d) : Char.ofNat n ≠ d := by
  rintro rfl
  by_cases hvalid : n.isValidChar
  · have hlt := hd.1.2
    rw [Utf8.toNat_ofNat_of_valid hvalid] at hlt
    omega
  · have hnull : Char.ofNat n = '\x00' := by
      rw [Char.ofNat, dif_neg hvalid]
      rfl
    rw [hnull] at hd
    exact absurd hd (by decide)

theorem not_spells_of_le (h : 128 ≤ c.toNat) (hd : IsOwn d) : ¬Spells c d := by
  have hlt := hd.1.2
  rintro (rfl | ⟨hcapital, -⟩)
  · omega
  · omega

theorem lowerChar_eq_iff (hd : IsOwn d) : lowerChar c = d ↔ Spells c d := by
  unfold lowerChar
  cases hfind : CapitalRun.all.find? (·.covers c.toNat) with
  | none =>
    refine ⟨.inl, ?_⟩
    rintro (h | ⟨hcapital, -⟩)
    · exact h
    · have hnone := List.find?_eq_none.1 hfind ⟨65, 90, 1, 32⟩ (List.mem_cons_self ..)
      exact absurd (CapitalRun.covers_iff.2 ⟨hcapital, Nat.mod_one _⟩) hnone
  | some run =>
    have hcovers : run.covers c.toNat = true := by simpa using List.find?_some hfind
    obtain ⟨⟨hfirst, hlast⟩, -⟩ := CapitalRun.covers_iff.1 hcovers
    simp only
    obtain ⟨hone, htwo, hdistance⟩ | ⟨hone, htwo, hdistance⟩ | ⟨hone, hsmall⟩ :=
      CapitalRun.cases_of_mem run (List.mem_of_find?_eq_some hfind)
    · have hcapital : 65 ≤ c.toNat ∧ c.toNat ≤ 90 := by omega
      have hsmall : ((c.toNat : Int) + run.distance).toNat = c.toNat + 32 := by omega
      have hnumber : (Char.ofNat (c.toNat + 32)).toNat = c.toNat + 32 :=
        Utf8.toNat_ofNat_of_valid (.inl (by omega))
      rw [hsmall]
      constructor
      · rintro rfl
        exact .inr ⟨hcapital, hnumber.symm⟩
      · rintro (rfl | ⟨-, h⟩)
        · exact absurd hcapital hd.2.1
        · rw [h, Char.ofNat_toNat]
    · have hsmall : ((c.toNat : Int) + run.distance).toNat = 107 := by omega
      rw [hsmall]
      exact iff_of_false (fun h => hd.2.2 h.symm) (not_spells_of_le (by omega) hd)
    · exact iff_of_false (ofNat_ne_of_le (by omega) hd) (not_spells_of_le (by omega) hd)

/-- A first character that is written as one of the word spells it, and the rest is written as the
rest. -/
theorem lowerAfter_cons_eq_iff (hword : ∀ d ∈ word, IsOwn d) :
    lowerAfter before (c :: text) = word ↔
      ∃ d rest, word = d :: rest ∧ Spells c d ∧ lowerAfter (c :: before) text = rest := by
  have hnot : ∀ d, ¬IsOwn d → d ∉ word := fun d hd hmem => hd (hword d hmem)
  have hbeyond : ∀ {c : Char}, 128 ≤ c.toNat → ∀ d rest, word = d :: rest → ¬Spells c d := by
    rintro c hc d rest rfl
    exact not_spells_of_le hc (hword d (List.mem_cons_self ..))
  rw [lowerAfter]
  by_cases hsigma : c = 'Σ'
  · refine iff_of_false ?_ ?_
    · rw [if_pos hsigma]
      rintro rfl
      split at hnot
      · exact hnot 'ς' (by decide) (List.mem_append_left _ (List.mem_singleton_self _))
      · exact hnot 'σ' (by decide) (List.mem_append_left _ (List.mem_singleton_self _))
    · rintro ⟨d, rest, hcons, hspells, -⟩
      exact hbeyond (hsigma ▸ by decide) d rest hcons hspells
  by_cases hdotted : c = 'İ'
  · refine iff_of_false ?_ ?_
    · rw [if_neg hsigma, if_pos hdotted]
      rintro rfl
      exact hnot '\u0307' (by decide) (List.mem_append_left _ (by decide))
    · rintro ⟨d, rest, hcons, hspells, -⟩
      exact hbeyond (hdotted ▸ by decide) d rest hcons hspells
  simp only [if_neg hsigma, if_neg hdotted, List.singleton_append]
  constructor
  · rintro rfl
    exact ⟨_, _, rfl, (lowerChar_eq_iff (hword _ (List.mem_cons_self ..))).1 rfl, rfl⟩
  · rintro ⟨d, rest, rfl, hspells, hrest⟩
    rw [(lowerChar_eq_iff (hword d (List.mem_cons_self ..))).2 hspells, hrest]

/-- A text is lowered to a word exactly when each of its characters spells that of the word. -/
theorem lowerAfter_eq_iff (hword : ∀ d ∈ word, IsOwn d) :
    lowerAfter before text = word ↔ List.Forall₂ Spells text word := by
  induction text generalizing before word with
  | nil =>
    rw [lowerAfter, List.forall₂_nil_left_iff, eq_comm]
  | cons c text ih =>
    rw [lowerAfter_cons_eq_iff hword, List.forall₂_cons_left_iff]
    constructor
    · rintro ⟨d, rest, rfl, hfirst, hrest⟩
      exact ⟨d, rest, hfirst, (ih (List.forall_mem_cons.1 hword).2).1 hrest, rfl⟩
    · rintro ⟨d, rest, hfirst, hrest, rfl⟩
      exact ⟨d, rest, rfl, hfirst, (ih (List.forall_mem_cons.1 hword).2).2 hrest⟩

/-- A text is a word in lower case just if it is that word with some of its letters as capitals. -/
theorem lower_eq_iff (hword : ∀ d ∈ word, IsOwn d) :
    lower text = word ↔ List.Forall₂ Spells text word :=
  lowerAfter_eq_iff hword

end LazyEmbed.Text
