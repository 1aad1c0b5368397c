import LazyEmbed.Proofs.Text.Reading
import LazyEmbed.Text.Blank
import LazyEmbed.Text.Digit
import LazyEmbed.Text.Word

/-!
# Blanks

No character of a word is blank. Blanks at the ends of a text are what trimming takes off.
-/

namespace LazyEmbed.Text

theorem inRanges_eq_true_iff {ranges : List (Nat × Nat)} {c : Char} :
    inRanges ranges c = true ↔ ∃ range ∈ ranges, range.1 ≤ c.toNat ∧ c.toNat ≤ range.2 := by
  simp [inRanges]

/-- Ranges of which none meets another of the other list have no character in common. -/
theorem inRanges_eq_false_of_disjoint {first second : List (Nat × Nat)} {c : Char}
    (h : (first.all fun a => second.all fun b => a.2.blt b.1 || b.2.blt a.1) = true)
    (hc : inRanges first c = true) : inRanges second c = false := by
  rw [← Bool.not_eq_true, inRanges_eq_true_iff]
  rintro ⟨b, hb, hlow, hhigh⟩
  obtain ⟨a, ha, halow, hahigh⟩ := inRanges_eq_true_iff.1 hc
  have hab : a.2 < b.1 ∨ b.2 < a.1 := by
    simpa [Nat.blt_eq] using List.all_eq_true.1 (List.all_eq_true.1 h a ha) b hb
  omega

theorem isBlank_eq_false_of_isDecimal {c : Char} (h : isDecimal c = true) : isBlank c = false :=
  inRanges_eq_false_of_disjoint (by decide) h

theorem isBlank_eq_false_of_isWord {c : Char} (h : isWord c = true) : isBlank c = false := by
  by_cases hascii : c.toNat < 128
  · have hall : ∀ n < 128, isWord (Char.ofNat n) = true → isBlank (Char.ofNat n) = false := by
      decide +kernel
    have hc := hall c.toNat hascii
    rw [Char.ofNat_toNat] at hc
    exact hc h
  · rw [isWord, if_neg hascii] at h
    exact inRanges_eq_false_of_disjoint (by decide +kernel) h

theorem isWord_eq_false_of_isBlank {c : Char} (h : isBlank c = true) : isWord c = false := by
  by_contra hword
  exact Bool.noConfusion (h.symm.trans (isBlank_eq_false_of_isWord (Bool.not_eq_false _ ▸ hword)))

/-! ### Trimming -/

variable {text blanks : Text}

def IsBlanks (text : Text) : Prop := ∀ c ∈ text, isBlank c = true

instance (text : Text) : Decidable (IsBlanks text) := inferInstanceAs (Decidable (∀ c ∈ text, _))

theorem IsBlanks.append {first second : Text} (hfirst : IsBlanks first)
    (hsecond : IsBlanks second) :
    IsBlanks (first ++ second) := List.forall_mem_append.2 ⟨hfirst, hsecond⟩

theorem IsBlanks.not_mem (h : IsBlanks blanks) {c : Char} (hc : isBlank c = false) :
    c ∉ blanks := fun hmem =>
  Bool.noConfusion (hc.symm.trans (h c hmem))

theorem trim_blanks_append (h : IsBlanks blanks) (text : Text) :
    trim (blanks ++ text) = trim text := by
  rw [trim, trimBy, List.dropWhile_append_of_pos h, trim, trimBy]

theorem trim_append_blanks (h : IsBlanks blanks) (text : Text) :
    trim (text ++ blanks) = trim text := by
  have hblanks : blanks.dropWhile isBlank = [] := List.dropWhile_eq_nil_iff.2 h
  have hreverse : ∀ c ∈ blanks.reverse, isBlank c = true := fun c hc => h c (List.mem_reverse.1 hc)
  rw [trim, trimBy, List.dropWhile_append, trim, trimBy]
  split
  · next hnil => rw [hblanks, List.isEmpty_iff.1 hnil]
  · rw [List.reverse_append, List.dropWhile_append_of_pos hreverse]

/-- Trimming takes blanks off both ends. -/
theorem exists_trim (text : Text) :
    ∃ before after, IsBlanks before ∧ IsBlanks after ∧ text = before ++ (trim text ++ after) := by
  refine ⟨text.takeWhile isBlank, ((text.dropWhile isBlank).reverse.takeWhile isBlank).reverse,
    fun c hc => List.mem_takeWhile_imp hc,
    fun c hc => List.mem_takeWhile_imp (List.mem_reverse.1 hc), ?_⟩
  rw [trim, trimBy, ← List.reverse_append, List.takeWhile_append_dropWhile, List.reverse_reverse,
    List.takeWhile_append_dropWhile]

theorem trim_eq_nil_iff : trim text = [] ↔ IsBlanks text := by
  constructor
  · intro htrim
    obtain ⟨before, after, hbefore, hafter, htext⟩ := exists_trim text
    rw [htext, htrim]
    exact hbefore.append hafter
  · intro h
    have htrim := trim_blanks_append h []
    rwa [List.append_nil] at htrim

theorem mem_of_mem_trim {c : Char} (h : c ∈ trim text) : c ∈ text := by
  obtain ⟨before, after, -, -, htext⟩ := exists_trim text
  rw [htext]
  exact List.mem_append_right _ (List.mem_append_left _ h)

theorem trim_eq_self (h : ∀ c ∈ text, isBlank c = false) : trim text = text := by
  have hfront : ∀ text : Text, (∀ c ∈ text, isBlank c = false) → text.dropWhile isBlank = text := by
    intro text h
    cases text with
    | nil => rfl
    | cons c text => rw [List.dropWhile_cons_of_neg (by simp [h c List.mem_cons_self])]
  rw [trim, trimBy, hfront text h, hfront _ fun c hc => h c (List.mem_reverse.1 hc),
    List.reverse_reverse]

end LazyEmbed.Text
