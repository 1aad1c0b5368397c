import LazyEmbed.Captured.Duration
import LazyEmbed.Proofs.Text.Blank
import LazyEmbed.Proofs.Text.Decimal
import LazyEmbed.Proofs.Text.Respelling

/-!
# Durations and numbers

A duration is a row of parts, each of which is digits and the letter of its unit, and a number is
its decimal digits between blanks. What is read is either of the two, and nothing is both, since a
duration has a letter (`seconds?_grammar`). A run of digits that is too long to be read spoils the
answer, but only where there is a number to be read (`answers_natural?`, `answers_seconds?`).
-/

namespace LazyEmbed.Captured

variable {value text rest digits : Text} {unit : Char} {n m total : Nat}

def IsRun (digits : Text) : Prop := digits ≠ [] ∧ ∀ c ∈ digits, c.isDigit = true

/-- A part of a duration, which may be missing, and how many of its units it stands for. -/
inductive IsPart (unit : Char) : Text → Nat → Prop
  | missing : IsPart unit [] 0
  | present {digits : Text} (h : IsRun digits) :
      IsPart unit (digits ++ [unit]) (Text.decimalValue digits)

/-- Hours, minutes and seconds, not all of them missing, and how many seconds these are. -/
inductive IsDuration : Text → Nat → Prop
  | mk {first second third : Text} {hours minutes seconds : Nat} (hfirst : IsPart 'h' first hours)
      (hsecond : IsPart 'm' second minutes) (hthird : IsPart 's' third seconds)
      (hne : first ++ (second ++ third) ≠ []) :
      IsDuration (first ++ (second ++ third)) (3600 * hours + 60 * minutes + seconds)

/-- A number in decimal digits, perhaps behind a plus sign, and perhaps between blanks. -/
inductive IsNumber : Text → Nat → Prop
  | mk {front sign back : Text} (n : Nat) (hfront : Text.IsBlanks front)
      (hsign : sign = [] ∨ sign = ['+']) (hback : Text.IsBlanks back) :
      IsNumber (front ++ (sign ++ (Text.decimal n ++ back))) n

/-- Some digits in a row are more than can be read as a number. -/
def HasLongRun (value : Text) : Prop :=
  ∃ run, run <:+: value ∧ (∀ c ∈ run, c.isDigit = true) ∧ Text.maxDigits < run.length

/-- What a value of a form is answered with: nothing where it has not the form, the number that it
stands for where that can be read, and a refusal where it cannot. -/
structure Answers (form : Nat → Prop) (value : Text)
    (answer : Except Text.Oversized (Option Nat)) : Prop where
  no_form : (∀ n, ¬form n) → answer = .ok none
  short : ∀ n, form n → ¬HasLongRun value → answer = .ok (some n)
  long : ∀ n, form n → HasLongRun value → ∃ oversized, answer = .error oversized

namespace Answers

variable {form : Nat → Prop} {answer : Except Text.Oversized (Option Nat)}
    (h : Answers form value answer)
include h

theorem cases :
    (answer = .ok none ∧ ∀ n, ¬form n) ∨ (∃ n, answer = .ok (some n) ∧ form n ∧ ¬HasLongRun value) ∨
    ∃ n oversized, answer = .error oversized ∧ form n ∧ HasLongRun value := by
  by_cases hform : ∃ n, form n
  · obtain ⟨n, hn⟩ := hform
    by_cases hlong : HasLongRun value
    · obtain ⟨oversized, herror⟩ := h.long n hn hlong
      exact .inr (.inr ⟨n, oversized, herror, hn, hlong⟩)
    · exact .inr (.inl ⟨n, h.short n hn hlong, hn, hlong⟩)
  · exact .inl ⟨h.no_form (not_exists.1 hform), not_exists.1 hform⟩

theorem eq_some_iff : answer = .ok (some n) ↔ form n ∧ ¬HasLongRun value := by
  refine ⟨fun hanswer => ?_, fun hshort => h.short n hshort.1 hshort.2⟩
  obtain ⟨hother, -⟩ | ⟨m, hother, hm⟩ | ⟨m, oversized, hother, -⟩ := h.cases
  · cases hanswer.symm.trans hother
  · obtain rfl : n = m := Option.some.inj (Except.ok.inj (hanswer.symm.trans hother))
    exact hm
  · cases hanswer.symm.trans hother

theorem eq_none_iff : answer = .ok none ↔ ∀ n, ¬form n := by
  refine ⟨fun hanswer => ?_, h.no_form⟩
  obtain ⟨-, hnone⟩ | ⟨m, hother, -⟩ | ⟨m, oversized, hother, -⟩ := h.cases
  · exact hnone
  · cases hanswer.symm.trans hother
  · cases hanswer.symm.trans hother

theorem exists_eq_ok_iff : (∃ found, answer = .ok found) ↔ ¬((∃ n, form n) ∧ HasLongRun value) := by
  obtain ⟨hanswer, hnone⟩ | ⟨n, hanswer, hn, hshort⟩ | ⟨n, oversized, hanswer, hn, hlong⟩ := h.cases
  · exact iff_of_true ⟨_, hanswer⟩ fun hform => hform.1.elim hnone
  · exact iff_of_true ⟨_, hanswer⟩ fun hform => hshort hform.2
  · refine iff_of_false ?_ (not_not_intro ⟨⟨n, hn⟩, hlong⟩)
    rintro ⟨found, hfound⟩
    cases hanswer.symm.trans hfound

end Answers

/-! ## Digits and what is around them -/

theorem isBlank_eq_false_of_isDigit {c : Char} (h : c.isDigit = true) : Text.isBlank c = false :=
  Text.isBlank_eq_false_of_isDecimal (Text.isDecimal_of_isDigit h)

theorem isDigit_eq_false_of_isBlank {c : Char} (h : Text.isBlank c = true) : c.isDigit = false :=
  Bool.eq_false_iff.2 fun hdigit =>
    Bool.noConfusion (h.symm.trans (isBlank_eq_false_of_isDigit hdigit))

theorem not_mem_of_isDigit {run : Text} (hrun : ∀ c ∈ run, c.isDigit = true) {c : Char}
    (hc : c.isDigit = false) : c ∉ run := fun hmem => Bool.noConfusion (hc.symm.trans (hrun c hmem))

theorem isRun_decimal (n : Nat) : IsRun (Text.decimal n) :=
  ⟨Text.decimal_ne_nil n, fun _ => Text.isDigit_of_mem_decimal⟩

theorem readDecimal_of_not_hasLongRun (h : ¬HasLongRun value) (hinside : digits <:+: value)
    (hdigits : ∀ c ∈ digits, c.isDigit = true) :
    Text.readDecimal digits = .ok (Text.decimalValue digits) :=
  if_pos (Nat.le_of_not_lt fun hlong => h ⟨digits, hinside, hdigits, hlong⟩)

theorem readDecimal_of_isInfix {run : Text} (hlong : Text.maxDigits < run.length)
    (hinside : run <:+: digits) : Text.readDecimal digits = .error ⟨digits.length⟩ :=
  if_neg (Nat.not_le_of_lt (Nat.lt_of_lt_of_le hlong hinside.length_le))

/-! ## Numbers -/

section

variable {sign : Text} {plus : Option Unit}

theorem plus_eq : ("+" : Text) = ['+'] := by decide

theorem sign_of_run (h : (Reader.optional (.literal "+")).run text = some (plus, rest)) :
    ∃ sign, (sign = [] ∨ sign = ['+']) ∧ text = sign ++ rest := by
  rw [plus_eq] at h
  obtain ⟨_, rfl, hread⟩ | ⟨rfl, rfl⟩ := Reader.run_optional_cases h
  · exact ⟨['+'], .inr rfl, Reader.run_literal_eq_some_iff.1 hread⟩
  · exact ⟨[], .inl rfl, rfl⟩

theorem exists_run_sign (h : sign = [] ∨ sign = ['+']) (hrest : ∀ c ∈ rest.head?, c ≠ '+') :
    ∃ plus, (Reader.optional (.literal "+")).run (sign ++ rest) = some (plus, rest) := by
  rw [plus_eq]
  obtain rfl | rfl := h
  · exact ⟨none, Reader.run_optional_of_run_eq_none (Reader.run_literal_eq_none hrest)⟩
  · exact ⟨some (), Reader.run_optional_of_run_eq_some (Reader.run_literal_singleton '+' rest)⟩

end

/-- A whole number is read off plain digits only, with blanks and a plus sign around them. -/
theorem exists_of_run_readNatural (h : readNatural.run value = some (digits, [])) :
    Text.IsPlainNumber digits ∧ ∃ front sign back, Text.IsBlanks front ∧
      (sign = [] ∨ sign = ['+']) ∧ Text.IsBlanks back ∧
      value = front ++ (sign ++ (digits ++ back)) := by
  obtain ⟨front, left, hblanks, hrun⟩ := Reader.run_bind_eq_some_iff.1 h
  obtain ⟨plus, left₁, hplus, hrun⟩ := Reader.run_bind_eq_some_iff.1 hrun
  obtain ⟨found, left₂, hfound, hrun⟩ := Reader.run_bind_eq_some_iff.1 hrun
  obtain ⟨_, left₃, hguard, hrun⟩ := Reader.run_bind_eq_some_iff.1 hrun
  obtain ⟨back, left₄, hlast, hpure⟩ := Reader.run_bind_eq_some_iff.1 hrun
  obtain ⟨rfl, rfl⟩ := Prod.mk.inj (Option.some.inj hpure)
  obtain ⟨rfl, hfront⟩ := Reader.eq_append_of_run_many hblanks
  obtain ⟨sign, hsign, rfl⟩ := sign_of_run hplus
  obtain ⟨rfl, hne, hdigits⟩ := Reader.eq_append_of_run_many1 hfound
  obtain ⟨hhead, rfl⟩ : (found.head? ≠ some '0' ∨ found.length = 1) ∧ left₂ = left₃ := by
    rw [Reader.run_guard, Option.ite_none_right_eq_some, Bool.or_eq_true, decide_eq_true_eq,
      decide_eq_true_eq] at hguard
    exact ⟨hguard.1, (Prod.mk.inj (Option.some.inj hguard.2)).2⟩
  obtain ⟨rfl, hback⟩ := Reader.eq_append_of_run_many hlast
  exact ⟨⟨hne, hdigits, hhead⟩, front, sign, back, hfront, hsign, hback, by rw [List.append_nil]⟩

theorem run_readNatural {front sign back : Text} (hplain : Text.IsPlainNumber digits)
    (hfront : Text.IsBlanks front) (hsign : sign = [] ∨ sign = ['+']) (hback : Text.IsBlanks back) :
    readNatural.run (front ++ (sign ++ (digits ++ back))) = some (digits, []) := by
  have hhead : ∀ d ∈ (digits ++ back).head?, d.isDigit = true := by
    obtain ⟨c, others, rfl⟩ := List.exists_cons_of_ne_nil hplain.ne_nil
    exact fun d hd => hplain.isDigit d (Option.some.inj hd ▸ List.mem_cons_self)
  have hnotBlank : ∀ d ∈ (sign ++ (digits ++ back)).head?, Text.isBlank d = false := by
    intro d hd
    obtain rfl | rfl := hsign
    · exact isBlank_eq_false_of_isDigit (hhead d hd)
    · obtain rfl : '+' = d := Option.some.inj hd
      decide
  have hnotPlus : ∀ d ∈ (digits ++ back).head?, d ≠ '+' := by
    rintro d hd rfl
    exact absurd (hhead _ hd) (by decide)
  obtain ⟨plus, hplus⟩ := exists_run_sign hsign hnotPlus
  have hnotDigit : ∀ d, back.head? = some d → d.isDigit = false := fun d hd =>
    isDigit_eq_false_of_isBlank (hback d (List.mem_of_mem_head? hd))
  have hbackRun : (Reader.many Text.isBlank).run back = some (back, []) := by
    have hrun : (Reader.many Text.isBlank).run (back ++ []) = some (back, []) :=
      Reader.run_many_append hback (by simp)
    rwa [List.append_nil] at hrun
  have hguard :
      (Reader.guard (digits.head? ≠ some '0' || digits.length = 1)).run back = some ((), back) := by
    rw [Reader.run_guard, if_pos]
    simpa using hplain.head
  refine Reader.run_bind_eq_some_iff.2 ⟨front, _, Reader.run_many_append hfront hnotBlank, ?_⟩
  refine Reader.run_bind_eq_some_iff.2 ⟨plus, _, hplus, ?_⟩
  refine Reader.run_bind_eq_some_iff.2 ⟨digits, back,
    Reader.run_many1_append hplain.ne_nil hplain.isDigit hnotDigit, ?_⟩
  refine Reader.run_bind_eq_some_iff.2 ⟨(), back, hguard, ?_⟩
  exact Reader.run_bind_eq_some_iff.2 ⟨back, [], hbackRun, rfl⟩

theorem whole?_readNatural_eq_some_iff :
    readNatural.whole? value = some digits ↔ ∃ n, digits = Text.decimal n ∧ IsNumber value n := by
  rw [Reader.whole?_eq_some_iff]
  constructor
  · intro hrun
    obtain ⟨hplain, front, sign, back, hfront, hsign, hback, rfl⟩ := exists_of_run_readNatural hrun
    obtain ⟨n, rfl⟩ := Text.isPlainNumber_iff.1 hplain
    exact ⟨n, rfl, .mk n hfront hsign hback⟩
  · rintro ⟨_, rfl, ⟨n, hfront, hsign, hback⟩⟩
    exact run_readNatural (Text.isPlainNumber_decimal n) hfront hsign hback

theorem natural?_of_isNumber (h : IsNumber value n) :
    natural? value = (Text.readDecimal (Text.decimal n)).map some := by
  rw [natural?, whole?_readNatural_eq_some_iff.2 ⟨n, rfl, h⟩]

theorem natural?_of_not_isNumber (h : ∀ n, ¬IsNumber value n) : natural? value = .ok none := by
  have hnone : readNatural.whole? value = none := by
    rw [Option.eq_none_iff_forall_ne_some]
    intro digits hread
    obtain ⟨n, -, hnumber⟩ := whole?_readNatural_eq_some_iff.1 hread
    exact h n hnumber
  rw [natural?, hnone]

theorem IsNumber.isInfix_decimal (h : IsNumber value n) : Text.decimal n <:+: value := by
  cases h with
  | @mk front sign back _ _ _ _ => exact ⟨front ++ sign, back, by simp only [List.append_assoc]⟩

/-- The digits of a number are the only ones in it. -/
theorem IsNumber.isInfix_run {run : Text} (h : IsNumber value n) (hne : run ≠ [])
    (hrun : ∀ c ∈ run, c.isDigit = true) (hinside : run <:+: value) : run <:+: Text.decimal n := by
  obtain ⟨_, hfront, hsign, hback⟩ := h
  obtain ⟨d, others, rfl⟩ := List.exists_cons_of_ne_nil hne
  have hd : d.isDigit = true := hrun d List.mem_cons_self
  have hbefore := Text.isInfix_of_not_mem hinside (hfront.not_mem (isBlank_eq_false_of_isDigit hd))
  have hplus : d ∉ ['+'] := fun hmem => absurd (List.mem_singleton.1 hmem ▸ hd) (by decide)
  have hbehind :=
    Text.isInfix_of_not_mem hbefore (hsign.elim (fun h => h ▸ List.not_mem_nil) fun h => h ▸ hplus)
  rename_i back
  cases back with
  | nil => rwa [List.append_nil] at hbehind
  | cons b back =>
    have hb := not_mem_of_isDigit hrun (isDigit_eq_false_of_isBlank (hback b List.mem_cons_self))
    refine (Text.isInfix_append_cons hbehind hb).resolve_right fun hlater => ?_
    have hmem : d ∈ back := hlater.subset List.mem_cons_self
    exact Bool.noConfusion
      ((isBlank_eq_false_of_isDigit hd).symm.trans (hback d (List.mem_cons_of_mem b hmem)))

theorem natural?_of_long (h : IsNumber value n) (hlong : HasLongRun value) :
    ∃ oversized, natural? value = .error oversized := by
  obtain ⟨run, hinside, hrun, hlong⟩ := hlong
  have hne : run ≠ [] := List.length_pos_iff.1 (by omega)
  rw [natural?_of_isNumber h, readDecimal_of_isInfix hlong (h.isInfix_run hne hrun hinside)]
  exact ⟨_, rfl⟩

theorem natural?_of_short (h : IsNumber value n) (hshort : ¬HasLongRun value) :
    natural? value = .ok (some n) := by
  rw [natural?_of_isNumber h,
    readDecimal_of_not_hasLongRun hshort h.isInfix_decimal (isRun_decimal n).2,
    Text.decimalValue_decimal]
  rfl

theorem answers_natural? (value : Text) : Answers (IsNumber value) value (natural? value) where
  no_form := natural?_of_not_isNumber
  short _ := natural?_of_short
  long _ := natural?_of_long

/-! ## Durations -/

def present (unit : Char) : Reader Text := do
  let digits ← .many1 Char.isDigit
  .literal [unit]
  pure digits

theorem readPart_eq (unit : Char) : readPart unit = .optional (present unit) := rfl

def spelled (unit : Char) : Option Text → Text
  | none => []
  | some digits => digits ++ [unit]

structure Spells (value : Text) (hours minutes seconds : Option Text) : Prop where
  isRun_hours : ∀ digits ∈ hours, IsRun digits
  isRun_minutes : ∀ digits ∈ minutes, IsRun digits
  isRun_seconds : ∀ digits ∈ seconds, IsRun digits
  ne_nil : value ≠ []
  eq : value = spelled 'h' hours ++ (spelled 'm' minutes ++ spelled 's' seconds)

def amount (part : Option Text) : Nat := Text.decimalValue (part.getD "0")

section

variable {part hours minutes seconds : Option Text}

theorem isPart_iff : IsPart unit text n ↔
    ∃ part, (∀ digits ∈ part, IsRun digits) ∧ text = spelled unit part ∧ n = amount part := by
  constructor
  · intro h
    cases h with
    | missing => exact ⟨none, by simp, rfl, rfl⟩
    | @present digits h => exact ⟨some digits, by simpa using h, rfl, rfl⟩
  · rintro ⟨part, hpart, rfl, rfl⟩
    cases part with
    | none => exact .missing
    | some digits => exact .present (hpart digits rfl)

/-- A duration is three parts in order, each of which may be absent, and its total is their weighted
sum. -/
theorem isDuration_iff :
    IsDuration value total ↔ ∃ hours minutes seconds, Spells value hours minutes seconds ∧
    total = 3600 * amount hours + 60 * amount minutes + amount seconds := by
  constructor
  · rintro ⟨hfirst, hsecond, hthird, hne⟩
    obtain ⟨hours, hhours, rfl, rfl⟩ := isPart_iff.1 hfirst
    obtain ⟨minutes, hminutes, rfl, rfl⟩ := isPart_iff.1 hsecond
    obtain ⟨seconds, hseconds, rfl, rfl⟩ := isPart_iff.1 hthird
    exact ⟨hours, minutes, seconds, ⟨hhours, hminutes, hseconds, hne, rfl⟩, rfl⟩
  · rintro ⟨hours, minutes, seconds, ⟨hhours, hminutes, hseconds, hne, rfl⟩, rfl⟩
    exact .mk (isPart_iff.2 ⟨hours, hhours, rfl, rfl⟩) (isPart_iff.2 ⟨minutes, hminutes, rfl, rfl⟩)
      (isPart_iff.2 ⟨seconds, hseconds, rfl, rfl⟩) hne

/-! ### Reading -/

theorem run_present_iff (hunit : unit.isDigit = false) :
    (present unit).run text = some (digits, rest) ↔
      IsRun digits ∧ text = digits ++ unit :: rest := by
  constructor
  · intro hrun
    obtain ⟨found, left, hfound, hrun⟩ := Reader.run_bind_eq_some_iff.1 hrun
    obtain ⟨_, left₁, hletter, hpure⟩ := Reader.run_bind_eq_some_iff.1 hrun
    obtain ⟨rfl, rfl⟩ := Prod.mk.inj (Option.some.inj hpure)
    obtain ⟨rfl, hne, hall⟩ := Reader.eq_append_of_run_many1 hfound
    exact ⟨⟨hne, hall⟩, by rw [Reader.run_literal_eq_some_iff.1 hletter, List.singleton_append]⟩
  · rintro ⟨⟨hne, hall⟩, rfl⟩
    refine Reader.run_bind_eq_some_iff.2 ⟨digits, _,
      Reader.run_many1_of_all hne hall hunit rest, ?_⟩
    exact Reader.run_bind_eq_some_iff.2 ⟨(), rest, Reader.run_literal_singleton unit rest, rfl⟩

theorem of_run_readPart (hunit : unit.isDigit = false)
    (h : (readPart unit).run text = some (part, rest)) :
    (∀ digits ∈ part, IsRun digits) ∧ text = spelled unit part ++ rest := by
  rw [readPart_eq] at h
  obtain ⟨digits, rfl, hread⟩ | ⟨rfl, rfl⟩ := Reader.run_optional_cases h
  · obtain ⟨hrun, rfl⟩ := (run_present_iff hunit).1 hread
    exact ⟨by simpa using hrun, by simp [spelled]⟩
  · exact ⟨by simp, rfl⟩

theorem run_readPart (hunit : unit.isDigit = false) (hpart : ∀ digits ∈ part, IsRun digits)
    (hrest : (present unit).run rest = none) :
    (readPart unit).run (spelled unit part ++ rest) = some (part, rest) := by
  rw [readPart_eq]
  cases part with
  | none => exact Reader.run_optional_of_run_eq_none hrest
  | some digits =>
    refine Reader.run_optional_of_run_eq_some ((run_present_iff hunit).2 ⟨hpart digits rfl, ?_⟩)
    rw [spelled, List.append_assoc, List.singleton_append]

/-- A part of another unit is not read. -/
theorem run_present_spelled {other : Char} (hunit : unit.isDigit = false)
    (hother : other.isDigit = false) (hne : other ≠ unit) (hpart : ∀ digits ∈ part, IsRun digits)
    (hrest : (present unit).run rest = none) :
    (present unit).run (spelled other part ++ rest) = none := by
  cases part with
  | none => exact hrest
  | some digits =>
    rw [Option.eq_none_iff_forall_ne_some]
    rintro ⟨found, left⟩ hread
    obtain ⟨hfound, htext⟩ := (run_present_iff hunit).1 hread
    rw [spelled, List.append_assoc, List.singleton_append] at htext
    have hbehind := congrArg (List.dropWhile Char.isDigit) htext
    rw [Text.dropWhile_of_all (hpart digits rfl).2 hother,
      Text.dropWhile_of_all hfound.2 hunit] at hbehind
    exact hne (List.cons.inj hbehind).1

theorem any_head?_spelled (unit : Char) (hpart : ∀ digits ∈ part, IsRun digits)
    (hrest : rest ≠ [] → rest.head?.any Char.isDigit = true)
    (hne : spelled unit part ++ rest ≠ []) :
    (spelled unit part ++ rest).head?.any Char.isDigit = true := by
  cases part with
  | none => exact hrest hne
  | some digits =>
    obtain ⟨hdigits, hall⟩ := hpart digits rfl
    obtain ⟨c, others, rfl⟩ := List.exists_cons_of_ne_nil hdigits
    exact hall c List.mem_cons_self

theorem Spells.any_head? (h : Spells value hours minutes seconds) :
    value.head?.any Char.isDigit = true := by
  obtain ⟨hhours, hminutes, hseconds, hne, rfl⟩ := h
  refine any_head?_spelled 'h' hhours (any_head?_spelled 'm' hminutes fun hthird => ?_) hne
  have hlast : spelled 's' seconds ++ [] ≠ [] →
      (spelled 's' seconds ++ []).head?.any Char.isDigit = true :=
    any_head?_spelled 's' hseconds fun hnil => absurd rfl hnil
  rw [List.append_nil] at hlast
  exact hlast hthird

/-- The reader of the parts takes the whole text apart exactly when the parts spell it. -/
theorem whole?_readParts_eq_some_iff :
    readParts.whole? value = some (hours, minutes, seconds) ↔
      Spells value hours minutes seconds := by
  rw [Reader.whole?_eq_some_iff]
  constructor
  · intro hrun
    obtain ⟨_, left, hahead, hrun⟩ := Reader.run_bind_eq_some_iff.1 hrun
    obtain ⟨first, left₁, hfirst, hrun⟩ := Reader.run_bind_eq_some_iff.1 hrun
    obtain ⟨second, left₂, hsecond, hrun⟩ := Reader.run_bind_eq_some_iff.1 hrun
    obtain ⟨third, left₃, hthird, hpure⟩ := Reader.run_bind_eq_some_iff.1 hrun
    obtain ⟨hparts, rfl⟩ := Prod.mk.inj (Option.some.inj hpure)
    obtain ⟨rfl, rfl, rfl⟩ : first = hours ∧ second = minutes ∧ third = seconds := by
      simpa using hparts
    obtain ⟨hhead, heq⟩ := (Option.ite_none_right_eq_some).1 hahead
    obtain rfl := (Prod.mk.inj (Option.some.inj heq)).2
    obtain ⟨hhours, htext⟩ := of_run_readPart (by decide) hfirst
    obtain ⟨hminutes, rfl⟩ := of_run_readPart (by decide) hsecond
    obtain ⟨hseconds, rfl⟩ := of_run_readPart (by decide) hthird
    refine ⟨hhours, hminutes, hseconds, ?_, by rw [htext, List.append_nil]⟩
    rintro rfl
    exact Bool.noConfusion hhead
  · intro h
    have hhead := h.any_head?
    obtain ⟨hhours, hminutes, hseconds, -, rfl⟩ := h
    have hend : ∀ unit : Char, (present unit).run [] = none := fun unit => rfl
    have hsecondsOnly : ∀ {unit : Char}, unit.isDigit = false → 's' ≠ unit →
        (present unit).run (spelled 's' seconds) = none := by
      intro unit hunit hne
      have hnone := run_present_spelled hunit (by decide) hne hseconds (hend unit)
      rwa [List.append_nil] at hnone
    have hafterHours : (present 'h').run (spelled 'm' minutes ++ spelled 's' seconds) = none :=
      run_present_spelled (by decide) (by decide) (by decide) hminutes
        (hsecondsOnly (by decide) (by decide))
    have hafterMinutes : (present 'm').run (spelled 's' seconds) = none :=
      hsecondsOnly (by decide) (by decide)
    have hfirst := run_readPart (by decide) hhours hafterHours
    have hsecond := run_readPart (by decide) hminutes hafterMinutes
    have hthird := run_readPart (by decide) hseconds (hend 's')
    rw [List.append_nil] at hthird
    refine Reader.run_bind_eq_some_iff.2 ⟨(), _, by rw [Reader.run_ahead, if_pos hhead], ?_⟩
    refine Reader.run_bind_eq_some_iff.2 ⟨hours, _, hfirst, ?_⟩
    refine Reader.run_bind_eq_some_iff.2 ⟨minutes, _, hsecond, ?_⟩
    exact Reader.run_bind_eq_some_iff.2 ⟨seconds, _, hthird, rfl⟩

end

/-! ### The answer -/

section

variable {part hours minutes seconds : Option Text}

theorem seconds?_of_spells (h : Spells value hours minutes seconds) : seconds? value = (do
    let hours ← Text.readDecimal (hours.getD "0")
    let minutes ← Text.readDecimal (minutes.getD "0")
    let seconds ← Text.readDecimal (seconds.getD "0")
    pure (some (hours * 3600 + minutes * 60 + seconds))) := by
  rw [seconds?, whole?_readParts_eq_some_iff.2 h]

theorem readDecimal_part (hshort : ¬HasLongRun value) (hinside : spelled unit part <:+: value)
    (hpart : ∀ digits ∈ part, IsRun digits) :
    Text.readDecimal (part.getD "0") = .ok (amount part) := by
  cases part with
  | none => rfl
  | some digits =>
    have hdigits : digits <:+: spelled unit (some digits) :=
      (List.prefix_append digits [unit]).isInfix
    exact readDecimal_of_not_hasLongRun hshort (hdigits.trans hinside) (hpart digits rfl).2

theorem seconds?_of_short (h : IsDuration value total) (hshort : ¬HasLongRun value) :
    seconds? value = .ok (some total) := by
  obtain ⟨hours, minutes, seconds, hspells, rfl⟩ := isDuration_iff.1 h
  have hfirst : spelled 'h' hours <:+: value := hspells.eq ▸ (List.prefix_append _ _).isInfix
  have hsecond : spelled 'm' minutes <:+: value := hspells.eq ▸ List.infix_append' _ _ _
  have hthird : spelled 's' seconds <:+: value :=
    hspells.eq ▸ ((List.suffix_append _ _).trans (List.suffix_append _ _)).isInfix
  rw [seconds?_of_spells hspells, readDecimal_part hshort hfirst hspells.isRun_hours,
    readDecimal_part hshort hsecond hspells.isRun_minutes,
    readDecimal_part hshort hthird hspells.isRun_seconds]
  simp only [bind, Except.bind, pure, Except.pure, Nat.mul_comm]

/-- Digits in a row are in one part. -/
theorem infix_spelled {run : Text} (hrun : ∀ c ∈ run, c.isDigit = true)
    (hunit : unit.isDigit = false) (hinside : run <:+: spelled unit part ++ rest) :
    (∃ digits ∈ part, run <:+: digits) ∨ run <:+: rest := by
  cases part with
  | none => exact .inr hinside
  | some digits =>
    rw [spelled, List.append_assoc, List.singleton_append] at hinside
    exact (Text.isInfix_append_cons hinside (not_mem_of_isDigit hrun hunit)).imp_left fun h =>
      ⟨digits, rfl, h⟩

theorem readDecimal_part_of_long {run : Text} (hlong : Text.maxDigits < run.length)
    (h : ∃ digits ∈ part, run <:+: digits) :
    ∃ oversized, Text.readDecimal (part.getD "0") = .error oversized := by
  obtain ⟨digits, rfl, hinside⟩ := h
  exact ⟨_, readDecimal_of_isInfix hlong hinside⟩

/-- A duration with too long a run of digits ends the filter with an error instead of an answer. -/
theorem seconds?_of_long (h : IsDuration value total) (hlong : HasLongRun value) :
    ∃ oversized, seconds? value = .error oversized := by
  obtain ⟨hours, minutes, seconds, hspells, -⟩ := isDuration_iff.1 h
  obtain ⟨run, hinside, hrun, hlong⟩ := hlong
  rw [seconds?_of_spells hspells]
  rw [hspells.eq] at hinside
  -- The part with the run is not read, and what is read before it does not matter.
  obtain hfirst | hinside := infix_spelled hrun (by decide) hinside
  · obtain ⟨oversized, hhours⟩ := readDecimal_part_of_long hlong hfirst
    exact ⟨oversized, bind_eq_error_iff.2 (.inl hhours)⟩
  cases hhours : Text.readDecimal (hours.getD "0") with
  | error oversized => exact ⟨oversized, rfl⟩
  | ok first =>
    obtain hsecond | hinside := infix_spelled hrun (by decide) hinside
    · obtain ⟨oversized, hminutes⟩ := readDecimal_part_of_long hlong hsecond
      exact ⟨oversized,
        bind_eq_error_iff.2 (.inr ⟨first, rfl, bind_eq_error_iff.2 (.inl hminutes)⟩)⟩
    cases hminutes : Text.readDecimal (minutes.getD "0") with
    | error oversized => exact ⟨oversized, rfl⟩
    | ok second =>
      have hthird : ∃ digits ∈ seconds, run <:+: digits := by
        rw [← List.append_nil (spelled 's' seconds)] at hinside
        refine (infix_spelled hrun (by decide) hinside).resolve_right fun hnil => ?_
        rw [List.infix_nil.1 hnil] at hlong
        exact absurd hlong (Nat.not_lt_zero _)
      obtain ⟨oversized, hseconds⟩ := readDecimal_part_of_long hlong hthird
      refine ⟨oversized, bind_eq_error_iff.2 (.inr ⟨first, rfl, ?_⟩)⟩
      exact bind_eq_error_iff.2 (.inr ⟨second, rfl, bind_eq_error_iff.2 (.inl hseconds)⟩)

end

theorem seconds?_of_not_isDuration (h : ∀ total, ¬IsDuration value total) :
    seconds? value = natural? value := by
  have hnone : readParts.whole? value = none := by
    rw [Option.eq_none_iff_forall_ne_some]
    rintro ⟨hours, minutes, seconds⟩ hread
    exact h _ (isDuration_iff.2 ⟨hours, minutes, seconds,
      whole?_readParts_eq_some_iff.1 hread, rfl⟩)
  rw [seconds?, hnone]

theorem IsPart.mem (h : IsPart unit text n) (hne : text ≠ []) : unit ∈ text := by
  cases h with
  | missing => exact absurd rfl hne
  | present => exact List.mem_append_right _ (List.mem_singleton_self unit)

/-- A duration has the letter of a unit, and a number has none. -/
theorem IsDuration.not_isNumber (h : IsDuration value total) : ¬IsNumber value n := by
  have hletter : ∃ c ∈ value, c = 'h' ∨ c = 'm' ∨ c = 's' := by
    obtain ⟨hfirst, hsecond, hthird, hne⟩ := h
    rename_i first second third _ _ _
    by_cases hfirstNe : first = []
    · by_cases hsecondNe : second = []
      · have hthirdNe : third ≠ [] := fun hnil => hne (by rw [hfirstNe, hsecondNe, hnil]; rfl)
        exact ⟨'s', List.mem_append_right _ (List.mem_append_right _ (hthird.mem hthirdNe)),
          .inr (.inr rfl)⟩
      · exact ⟨'m', List.mem_append_right _ (List.mem_append_left _ (hsecond.mem hsecondNe)),
          .inr (.inl rfl)⟩
    · exact ⟨'h', List.mem_append_left _ (hfirst.mem hfirstNe), .inl rfl⟩
  obtain ⟨c, hc, hunit⟩ := hletter
  have hother : Text.isBlank c = false ∧ c.isDigit = false ∧ c ≠ '+' := by
    obtain rfl | rfl | rfl := hunit <;> decide
  rintro ⟨n, hfront, hsign, hback⟩
  rename_i front sign back
  simp only [List.mem_append] at hc
  obtain hc | hc | hc | hc := hc
  · exact hfront.not_mem hother.1 hc
  · obtain rfl | rfl := hsign
    · exact List.not_mem_nil hc
    · exact hother.2.2 (List.mem_singleton.1 hc)
  · exact Bool.noConfusion (hother.2.1.symm.trans (Text.isDigit_of_mem_decimal hc))
  · exact hback.not_mem hother.1 hc

/-- A captured value stands for a number of seconds, by its letters or as the plain number. -/
def IsTime (value : Text) (n : Nat) : Prop := IsDuration value n ∨ IsNumber value n

/-- The time filter answers as the form of its text says, in every case. -/
theorem answers_seconds? (value : Text) : Answers (IsTime value) value (seconds? value) where
  no_form h := by
    rw [seconds?_of_not_isDuration fun n hn => h n (.inl hn)]
    exact natural?_of_not_isNumber fun n hn => h n (.inr hn)
  short n h hshort := by
    obtain hduration | hnumber := h
    · exact seconds?_of_short hduration hshort
    · rw [seconds?_of_not_isDuration fun total hduration => hduration.not_isNumber hnumber]
      exact natural?_of_short hnumber hshort
  long n h hlong := by
    obtain hduration | hnumber := h
    · exact seconds?_of_long hduration hlong
    · rw [seconds?_of_not_isDuration fun total hduration => hduration.not_isNumber hnumber]
      exact natural?_of_long hnumber hlong

/-- Where no run of digits is too long, a captured value is a duration, or a number, or neither, and
never both, and the answer tells which and how many seconds it stands for. -/
theorem seconds?_grammar (h : ¬HasLongRun value) :
    (∀ n, seconds? value = .ok (some n) ↔ IsDuration value n ∨ IsNumber value n) ∧
    (∀ n, natural? value = .ok (some n) ↔ IsNumber value n) ∧
    (∀ n m, IsDuration value n → ¬IsNumber value m) ∧
    (seconds? value = .ok none ↔ ∀ n, ¬IsDuration value n ∧ ¬IsNumber value n) := by
  refine ⟨fun n => ?_, fun n => ?_, fun _ _ => IsDuration.not_isNumber, ?_⟩
  · rw [(answers_seconds? value).eq_some_iff]
    exact and_iff_left h
  · rw [(answers_natural? value).eq_some_iff]
    exact and_iff_left h
  · rw [(answers_seconds? value).eq_none_iff]
    exact forall_congr' fun n => not_or

theorem seconds?_hoursAndMinutes : ¬HasLongRun "1h002m" ∧ IsDuration "1h002m" 3720 ∧
    seconds? "1h002m" = .ok (some 3720) := by
  have hshort : ¬HasLongRun "1h002m" := by
    rintro ⟨run, hinside, -, hlong⟩
    exact absurd (Nat.lt_of_lt_of_le hlong hinside.length_le) (by decide)
  have hhours : IsPart 'h' (("1" : Text) ++ ['h']) _ := .present ⟨by decide, by decide⟩
  have hminutes : IsPart 'm' (("002" : Text) ++ ['m']) _ := .present ⟨by decide, by decide⟩
  have hduration : IsDuration "1h002m" 3720 := .mk hhours hminutes .missing (by decide)
  exact ⟨hshort, hduration, ((seconds?_grammar hshort).1 3720).2 (.inl hduration)⟩

end LazyEmbed.Captured
