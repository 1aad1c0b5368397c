import LazyEmbed.Proofs.Text.Blank
import LazyEmbed.Proofs.Text.Decoding
import LazyEmbed.Text.LowerCase
import Mathlib.Data.List.Basic

/-!
# Texts in lower case

No small letter is a capital, so lower case leaves a text in lower case as it is (`lower_lower`). A
blank is no letter, and is not looked through where the end of a word is sought. So lower case does
not see past a blank, and blanks can be cut off before or after it (`trim_lower`).
-/

namespace LazyEmbed.Text

variable {c d b : Char} {text rest before other blanks : Text}

/-! ## Capitals and their small letters

The letters are compared as sets of numbers, a set being the number with just these bits.
-/

def bits (numbers : List Nat) : Nat := numbers.foldr (fun n others => 1 <<< n ||| others) 0

theorem testBit_bits {numbers : List Nat} {n : Nat} :
    (bits numbers).testBit n = true ↔ n ∈ numbers := by
  induction numbers with
  | nil => simp [bits]
  | cons m numbers ih =>
    rw [bits, List.foldr_cons, ← bits, Nat.testBit_or, Bool.or_eq_true, ih, Nat.one_shiftLeft,
      Nat.testBit_two_pow, decide_eq_true_eq, List.mem_cons, eq_comm]

theorem not_mem_of_bits {first second : List Nat} (h : bits first &&& bits second = 0) :
    ∀ n ∈ first, n ∉ second := by
  intro n hfirst hsecond
  have hboth : (bits first &&& bits second).testBit n = true := by
    rw [Nat.testBit_and, testBit_bits.2 hfirst, testBit_bits.2 hsecond, Bool.and_true]
  rw [h, Nat.zero_testBit] at hboth
  exact Bool.noConfusion hboth

def blankCodes : List Nat :=
  blankRanges.flatMap fun range => List.range' range.1 (range.2 + 1 - range.1)

theorem isBlank_iff_mem : isBlank c = true ↔ c.toNat ∈ blankCodes := by
  have hrange : ∀ range : Nat × Nat, (range.1 ≤ c.toNat ∧ c.toNat ≤ range.2) ↔
      c.toNat ∈ List.range' range.1 (range.2 + 1 - range.1) := fun range => by
    rw [List.mem_range'_1]
    omega
  simp only [isBlank, inRanges_eq_true_iff, blankCodes, List.mem_flatMap, hrange]

namespace CapitalRun

def capitals (run : CapitalRun) : List Nat :=
  List.range' run.first ((run.last - run.first) / run.step + 1) run.step

def smalls (run : CapitalRun) : List Nat :=
  run.capitals.map fun code : Nat => ((code : Int) + run.distance).toNat

theorem mem_capitals {run : CapitalRun} {code : Nat} (h : run.covers code = true) :
    code ∈ run.capitals := by
  obtain ⟨⟨hfirst, hlast⟩, hstep⟩ : (run.first ≤ code ∧ code ≤ run.last) ∧
      (code - run.first) % run.step = 0 := by
    simpa [covers] using h
  have hquotient : (code - run.first) / run.step ≤ (run.last - run.first) / run.step :=
    Nat.div_le_div_right (by omega)
  refine List.mem_range'.2 ⟨(code - run.first) / run.step, Nat.lt_succ_of_le hquotient, ?_⟩
  rw [Nat.mul_div_cancel' (Nat.dvd_of_mod_eq_zero hstep)]
  omega

theorem mem_smalls {run : CapitalRun} {code : Nat} (h : run.covers code = true) :
    ((code : Int) + run.distance).toNat ∈ run.smalls := List.mem_map_of_mem (mem_capitals h)

/-- No small letter is a capital, nor the capital whose small letter is two characters, nor
blank. -/
theorem not_mem_smalls :
    ∀ n ∈ 0x130 :: blankCodes ++ all.flatMap capitals, n ∉ all.flatMap smalls :=
  not_mem_of_bits (by decide +kernel)

theorem not_mem_capitals : ∀ n ∈ blankCodes, n ∉ all.flatMap capitals :=
  not_mem_of_bits (by decide +kernel)

theorem isValid_of_mem : ∀ n ∈ all.flatMap smalls, n < 0xD800 ∨ 0xDFFF < n ∧ n < 0x110000 := by
  decide +kernel

end CapitalRun

/-- A character is its own lower case, or it is a capital and its lower case is a small letter. -/
theorem lowerChar_cases (c : Char) :
    ((∀ run ∈ CapitalRun.all, run.covers c.toNat = false) ∧ lowerChar c = c) ∨
      (c.toNat ∈ CapitalRun.all.flatMap CapitalRun.capitals ∧
        (lowerChar c).toNat ∈ CapitalRun.all.flatMap CapitalRun.smalls) := by
  unfold lowerChar
  cases hfind : CapitalRun.all.find? (·.covers c.toNat) with
  | none => exact .inl ⟨fun run hrun => by simpa using List.find?_eq_none.1 hfind run hrun, rfl⟩
  | some run =>
    have hmem := List.mem_of_find?_eq_some hfind
    have hcovers : run.covers c.toNat = true := by simpa using List.find?_some hfind
    have hsmall := List.mem_flatMap.2 ⟨run, hmem, CapitalRun.mem_smalls hcovers⟩
    refine .inr ⟨List.mem_flatMap.2 ⟨run, hmem, CapitalRun.mem_capitals hcovers⟩, ?_⟩
    rwa [Utf8.toNat_ofNat_of_valid (CapitalRun.isValid_of_mem _ hsmall)]

structure IsLower (c : Char) : Prop where
  lowerChar_eq : lowerChar c = c
  ne_sigma : c ≠ 'Σ'
  ne_dotted : c ≠ 'İ'

theorem isLower_of_mem_smalls (h : c.toNat ∈ CapitalRun.all.flatMap CapitalRun.smalls) :
    IsLower c := by
  have hother : ∀ n ∈ 0x130 :: blankCodes ++ CapitalRun.all.flatMap CapitalRun.capitals,
      c.toNat ≠ n :=
    fun n hn heq => CapitalRun.not_mem_smalls n hn (heq ▸ h)
  refine ⟨?_, ?_, ?_⟩
  · obtain ⟨-, hsame⟩ | ⟨hcapital, -⟩ := lowerChar_cases c
    · exact hsame
    · exact absurd rfl (hother _ (List.mem_append_right _ hcapital))
  · rintro rfl
    exact hother 0x3A3 (List.mem_append_right _ (by decide +kernel)) rfl
  · rintro rfl
    exact hother 0x130 List.mem_cons_self rfl

theorem isLower_lowerChar (hsigma : c ≠ 'Σ') (hdotted : c ≠ 'İ') : IsLower (lowerChar c) := by
  obtain ⟨-, hsame⟩ | ⟨-, hsmall⟩ := lowerChar_cases c
  · rw [hsame]
    exact ⟨hsame, hsigma, hdotted⟩
  · exact isLower_of_mem_smalls hsmall

theorem isBlank_lowerChar (c : Char) : isBlank (lowerChar c) = isBlank c := by
  obtain ⟨-, hsame⟩ | ⟨hcapital, hsmall⟩ := lowerChar_cases c
  · rw [hsame]
  · have hbefore : isBlank c = false := Bool.eq_false_iff.2 fun hblank =>
      CapitalRun.not_mem_capitals _ (isBlank_iff_mem.1 hblank) hcapital
    have hafter : isBlank (lowerChar c) = false := Bool.eq_false_iff.2 fun hblank =>
      CapitalRun.not_mem_smalls _
        (List.mem_append_left _ (List.mem_cons_of_mem _ (isBlank_iff_mem.1 hblank))) hsmall
    rw [hbefore, hafter]

theorem lowerChar_of_isBlank (h : isBlank c = true) : lowerChar c = c := by
  obtain ⟨-, hsame⟩ | ⟨hcapital, -⟩ := lowerChar_cases c
  · exact hsame
  · exact absurd hcapital (CapitalRun.not_mem_capitals _ (isBlank_iff_mem.1 h))

/-! ## Characters in a text -/

/-- What the character `c` becomes between `before` and `text`. -/
def lowered (before : Text) (c : Char) (text : Text) : Text :=
  if c = 'Σ' then if besideCased before && !besideCased text then ['ς'] else ['σ']
  else if c = 'İ' then ['i', '\u0307']
  else [lowerChar c]

theorem lowerAfter_cons (before : Text) (c : Char) (text : Text) :
    lowerAfter before (c :: text) = lowered before c text ++ lowerAfter (c :: before) text := rfl

theorem lowered_of_isLower (h : IsLower c) (before text : Text) : lowered before c text = [c] := by
  rw [lowered, if_neg h.ne_sigma, if_neg h.ne_dotted, h.lowerChar_eq]

theorem isLower_of_isBlank (h : isBlank c = true) : IsLower c where
  lowerChar_eq := lowerChar_of_isBlank h
  ne_sigma := by
    rintro rfl
    exact absurd h (by decide)
  ne_dotted := by
    rintro rfl
    exact absurd h (by decide)

/-- What holds of the four fixed small letters and of what single characters become. -/
theorem forall_mem_lowered {holds : Char → Prop}
    (hfixed : ∀ d ∈ (['ς', 'σ', 'i', '\u0307'] : Text), holds d)
    (hsingle : c ≠ 'Σ' → c ≠ 'İ' → holds (lowerChar c)) : ∀ d ∈ lowered before c text, holds d := by
  intro d hd
  unfold lowered at hd
  split at hd
  · split at hd
    · exact List.mem_singleton.1 hd ▸ hfixed 'ς' (by decide)
    · exact List.mem_singleton.1 hd ▸ hfixed 'σ' (by decide)
  · next hsigma =>
    split at hd
    · exact hfixed d (List.mem_of_mem_drop (i := 2) hd)
    · next hdotted =>
      rw [List.mem_singleton.1 hd]
      exact hsingle hsigma hdotted

theorem isLower_of_mem_lowered : ∀ d ∈ lowered before c text, IsLower d := by
  refine forall_mem_lowered (fun d hd => ?_) isLower_lowerChar
  have hall : ∀ d ∈ (['ς', 'σ', 'i', '\u0307'] : Text), lowerChar d = d ∧ d ≠ 'Σ' ∧ d ≠ 'İ' := by
    decide +kernel
  exact ⟨(hall d hd).1, (hall d hd).2.1, (hall d hd).2.2⟩

theorem not_isBlank_of_mem_lowered (h : isBlank c = false) :
    ∀ d ∈ lowered before c text, isBlank d = false :=
  forall_mem_lowered (by decide) fun _ _ => (isBlank_lowerChar c).trans h

theorem lowered_ne_nil : lowered before c text ≠ [] := by
  unfold lowered
  repeat' split
  all_goals exact List.cons_ne_nil _ _

/-! ## Texts -/

theorem isLower_of_mem_lowerAfter : ∀ d ∈ lowerAfter before text, IsLower d := by
  induction text generalizing before with
  | nil => simp [lowerAfter]
  | cons c text ih =>
    rw [lowerAfter_cons]
    exact List.forall_mem_append.2 ⟨isLower_of_mem_lowered, ih⟩

theorem lowerAfter_eq_self (h : ∀ c ∈ text, IsLower c) (before : Text) :
    lowerAfter before text = text := by
  induction text generalizing before with
  | nil => rfl
  | cons c text ih =>
    obtain ⟨hc, htext⟩ := List.forall_mem_cons.1 h
    rw [lowerAfter_cons, lowered_of_isLower hc, ih htext, List.singleton_append]

theorem lower_lower (text : Text) : lower (lower text) = lower text :=
  lowerAfter_eq_self isLower_of_mem_lowerAfter []

theorem mem_of_mem_lowerAfter (hd : isBlank d = true) (h : d ∈ lowerAfter before text) :
    d ∈ text := by
  induction text generalizing before with
  | nil => simp [lowerAfter] at h
  | cons c text ih =>
    rw [lowerAfter_cons] at h
    obtain hfirst | hothers := List.mem_append.1 h
    · cases hc : isBlank c with
      | false => exact Bool.noConfusion (hd.symm.trans (not_isBlank_of_mem_lowered hc d hfirst))
      | true =>
        rw [lowered_of_isLower (isLower_of_isBlank hc), List.mem_singleton] at hfirst
        exact hfirst ▸ List.mem_cons_self
    · exact List.mem_cons_of_mem c (ih hothers)

/-! ### Blanks -/

theorem besideCased_blank (h : isBlank b = true) (text : Text) :
    besideCased (b :: text) = false := by
  have htransparent : inRanges transparentRanges b = false :=
    inRanges_eq_false_of_disjoint (by decide +kernel) h
  have hcased : inRanges casedRanges b = false :=
    inRanges_eq_false_of_disjoint (by decide +kernel) h
  rw [besideCased, htransparent, hcased]
  rfl

theorem besideCased_append_blank (h : isBlank b = true) (text rest : Text) :
    besideCased (text ++ b :: rest) = besideCased text := by
  induction text with
  | nil => exact besideCased_blank h rest
  | cons c text ih =>
    rw [List.cons_append, besideCased, ih]
    rfl

/-- Of what stands before a text only the nearest letter matters. -/
theorem lowerAfter_congr (h : besideCased before = besideCased other) (text : Text) :
    lowerAfter before text = lowerAfter other text := by
  induction text generalizing before other with
  | nil => rfl
  | cons c text ih =>
    have hnext : besideCased (c :: before) = besideCased (c :: other) := by
      rw [besideCased, besideCased, h]
    rw [lowerAfter_cons, lowerAfter_cons, ih hnext, lowered, lowered, h]

/-- Lower case does not see past a blank. -/
theorem lowerAfter_append_blank (hb : isBlank b = true) (text rest before : Text) :
    lowerAfter before (text ++ b :: rest) = lowerAfter before text ++ b :: lower rest := by
  induction text generalizing before with
  | nil =>
    have hnothing : besideCased (b :: before) = besideCased [] := besideCased_blank hb before
    rw [List.nil_append, lowerAfter_cons, lowered_of_isLower (isLower_of_isBlank hb),
      lowerAfter_congr hnothing]
    rfl
  | cons c text ih =>
    have hc : lowered before c (text ++ b :: rest) = lowered before c text := by
      rw [lowered, lowered, besideCased_append_blank hb]
    rw [List.cons_append, lowerAfter_cons, lowerAfter_cons, hc, ih, List.append_assoc]

theorem lower_append_blank (hb : isBlank b = true) (text rest : Text) :
    lower (text ++ b :: rest) = lower text ++ b :: lower rest :=
  lowerAfter_append_blank hb text rest []

theorem lower_blanks_append (h : IsBlanks blanks) (text : Text) :
    lower (blanks ++ text) = blanks ++ lower text := by
  induction blanks with
  | nil => rfl
  | cons b blanks ih =>
    obtain ⟨hb, hblanks⟩ := List.forall_mem_cons.1 h
    rw [List.cons_append, List.cons_append, ← ih hblanks]
    exact lower_append_blank hb [] _

theorem lower_append_blanks (h : IsBlanks blanks) (text : Text) :
    lower (text ++ blanks) = lower text ++ blanks := by
  cases blanks with
  | nil => rw [List.append_nil, List.append_nil]
  | cons b blanks =>
    obtain ⟨hb, hblanks⟩ := List.forall_mem_cons.1 h
    have hself := lower_blanks_append hblanks []
    rw [List.append_nil] at hself
    rw [lower_append_blank hb, hself]
    exact congrArg (lower text ++ b :: ·) (List.append_nil blanks)

/-! ### Trimmed texts -/

structure IsTrimmed (text : Text) : Prop where
  head : ∀ c ∈ text.head?, isBlank c = false
  last : ∀ c ∈ text.getLast?, isBlank c = false

theorem dropWhile_eq_self (h : ∀ c ∈ text.head?, isBlank c = false) :
    text.dropWhile isBlank = text := by
  cases text with
  | nil => rfl
  | cons c text => exact List.dropWhile_cons_of_neg (by simp [h c rfl])

theorem IsTrimmed.trim_eq (h : IsTrimmed text) : trim text = text := by
  rw [trim, trimBy, dropWhile_eq_self h.head, dropWhile_eq_self, List.reverse_reverse]
  rw [List.head?_reverse]
  exact h.last

theorem head?_dropWhile (text : Text) :
    ∀ c ∈ (text.dropWhile isBlank).head?, isBlank c = false := by
  intro c hc
  have hnot := List.head?_dropWhile_not isBlank text
  rw [Option.mem_def.1 hc] at hnot
  simpa using hnot

theorem isTrimmed_trim (text : Text) : IsTrimmed (trim text) where
  head c hc := by
    have hsuffix :
        (text.dropWhile isBlank).reverse.dropWhile isBlank <:+ (text.dropWhile isBlank).reverse :=
      List.dropWhile_suffix _
    have hprefix : trim text <+: text.dropWhile isBlank := by
      rw [trim, trimBy, ← List.reverse_suffix, List.reverse_reverse]
      exact hsuffix
    obtain ⟨more, hmore⟩ := hprefix
    refine head?_dropWhile text c ?_
    rw [← hmore, List.head?_append, Option.mem_def.1 hc]
    rfl
  last c hc := by
    rw [trim, trimBy, List.getLast?_reverse] at hc
    exact head?_dropWhile _ c hc

theorem exists_lowerAfter_concat (before text : Text) (c : Char) :
    ∃ front around, lowerAfter before (text ++ [c]) = front ++ lowered around c [] := by
  induction text generalizing before with
  | nil =>
    exact ⟨[], before, by rw [List.nil_append, lowerAfter_cons, lowerAfter, List.append_nil,
      List.nil_append]⟩
  | cons d text ih =>
    obtain ⟨front, around, heq⟩ := ih (d :: before)
    exact ⟨lowered before d (text ++ [c]) ++ front, around, by
      rw [List.cons_append, lowerAfter_cons, heq, List.append_assoc]⟩

/-- Lower-casing keeps a trimmed text trimmed. -/
theorem IsTrimmed.lower (h : IsTrimmed text) : IsTrimmed (lower text) where
  head d hd := by
    cases text with
    | nil => cases hd
    | cons c text =>
      have hne : lowered [] c text ≠ [] := lowered_ne_nil
      obtain ⟨e, others, hcons⟩ := List.exists_cons_of_ne_nil hne
      rw [Text.lower, lowerAfter_cons, hcons] at hd
      obtain rfl : e = d := Option.some.inj hd
      exact not_isBlank_of_mem_lowered (h.head c rfl) e (hcons ▸ List.mem_cons_self)
  last d hd := by
    obtain rfl | ⟨init, c, htext⟩ := List.eq_nil_or_concat text
    · cases hd
    · rw [List.concat_eq_append] at htext
      subst htext
      obtain ⟨front, around, heq⟩ := exists_lowerAfter_concat [] init c
      rw [Text.lower, heq, List.getLast?_append_of_ne_nil _ lowered_ne_nil] at hd
      exact not_isBlank_of_mem_lowered (h.last c (by simp)) d (List.mem_of_mem_getLast? hd)

theorem trim_lower (text : Text) : trim (lower text) = lower (trim text) := by
  obtain ⟨front, back, hfront, hback, htext⟩ := exists_trim text
  calc trim (lower text) = trim (lower (front ++ (trim text ++ back))) := by rw [← htext]
    _ = trim (front ++ (lower (trim text) ++ back)) := by
      rw [lower_blanks_append hfront, lower_append_blanks hback]
    _ = trim (lower (trim text)) := by rw [trim_blanks_append hfront, trim_append_blanks hback]
    _ = lower (trim text) := (isTrimmed_trim text).lower.trim_eq

/-! ### Lines -/

theorem not_mem_of_mem_lines {line : Text} (h : line ∈ lines text) : '\n' ∉ line := by
  induction text generalizing line with
  | nil =>
    rw [lines, List.splitOn_nil, List.mem_singleton] at h
    exact h ▸ List.not_mem_nil
  | cons c text ih =>
    rw [lines, List.splitOn_cons_eq_if_modifyHead] at h
    obtain ⟨first, others, hcons⟩ := List.exists_cons_of_ne_nil (List.splitOn_ne_nil '\n' text)
    have hlines : ∀ line ∈ first :: others, '\n' ∉ line :=
      fun line hline => ih (by rwa [lines, hcons])
    split at h
    · obtain rfl | hlater := List.mem_cons.1 h
      · exact List.not_mem_nil
      · exact ih hlater
    · next hc =>
      rw [hcons, List.modifyHead_cons] at h
      obtain ⟨hfirst, hothers⟩ := List.forall_mem_cons.1 hlines
      obtain rfl | hlater := List.mem_cons.1 h
      · have hne : '\n' ≠ c := fun heq => hc (beq_iff_eq.2 heq.symm)
        simp [hne, hfirst]
      · exact hothers line hlater

theorem lines_append (line rest : Text) (h : '\n' ∉ line) :
    lines (line ++ '\n' :: rest) = line :: lines rest :=
  List.splitOn_append_cons_self_of_not_mem h rest

/-- Lower-casing moves no line end. -/
theorem lines_lower (text : Text) : lines (lower text) = (lines text).map lower := by
  induction hlength : text.length using Nat.strongRecOn generalizing text with
  | ind length ih =>
    subst hlength
    have hnone : ∀ {line : Text}, '\n' ∉ line → '\n' ∉ lower line := fun hline hmem =>
      hline (mem_of_mem_lowerAfter (by decide) hmem)
    by_cases hmem : '\n' ∈ text
    · obtain ⟨line, rest, rfl, hline⟩ := List.eq_append_cons_of_mem hmem
      have hrest :=
        ih rest.length (by simp only [List.length_append, List.length_cons]; omega) rest rfl
      rw [lower_append_blank (by decide), lines_append _ _ (hnone hline), hrest,
        lines_append _ _ hline, List.map_cons]
    · rw [lines, lines, List.splitOn_eq_singleton (hnone hmem), List.splitOn_eq_singleton hmem]
      rfl

end LazyEmbed.Text
