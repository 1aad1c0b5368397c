import LazyEmbed.Json.Reading
import LazyEmbed.Proofs.Text.Reading

/-!
# Numbers in JSON

A number is a sign, a whole part, a fraction and an exponent, of which only the whole part must be
there. It is read as far as it goes, so a number is read as a whole just where what follows it is
neither a digit nor the beginning of a part.
-/

namespace LazyEmbed.Json

variable {text left rest : Text}

def IsDigits (text : Text) : Prop := text ≠ [] ∧ ∀ c ∈ text, c.isDigit = true

inductive IsWhole : Text → Prop
  | zero : IsWhole ['0']
  | more {first : Char} {others : Text} (hlow : '1' ≤ first) (hhigh : first ≤ '9')
      (hothers : ∀ c ∈ others, c.isDigit = true) : IsWhole (first :: others)

theorem ne_of_isDigit {c d : Char} (hc : c.isDigit = true) (hd : d.isDigit = false) : c ≠ d := by
  rintro rfl
  exact Bool.noConfusion (hc.symm.trans hd)

theorem isDigit_of_range {c : Char} (hlow : '1' ≤ c) (hhigh : c ≤ '9') : c.isDigit = true := by
  have hzero : '0' ≤ c := Char.le_trans (by decide) hlow
  exact Bool.and_eq_true_iff.2 ⟨decide_eq_true hzero, decide_eq_true hhigh⟩

theorem IsWhole.head {whole : Text} (h : IsWhole whole) :
    ∃ c others, whole = c :: others ∧ c.isDigit = true := by
  cases h with
  | zero => exact ⟨_, _, rfl, rfl⟩
  | more hlow hhigh => exact ⟨_, _, rfl, isDigit_of_range hlow hhigh⟩

inductive IsFraction : Text → Prop
  | none : IsFraction []
  | some {digits : Text} (h : IsDigits digits) : IsFraction ('.' :: digits)

inductive IsExponent : Text → Prop
  | none : IsExponent []
  | some {mark : Char} {sign digits : Text} (hmark : mark = 'e' ∨ mark = 'E')
      (hsign : sign = [] ∨ sign = ['+'] ∨ sign = ['-']) (h : IsDigits digits) :
      IsExponent (mark :: (sign ++ digits))

inductive IsNumber : Text → Option Text → Prop
  | mk {sign whole fraction exponent : Text} (hsign : sign = [] ∨ sign = ['-'])
      (hwhole : IsWhole whole)
      (hfraction : IsFraction fraction) (hexponent : IsExponent exponent) :
      IsNumber (sign ++ (whole ++ (fraction ++ exponent))) (if fraction = [] ∧
        exponent = [] then some whole else none)

namespace Number

/-! The parts of a number. -/

def whole : Reader Text :=
  Reader.orElse
    (do .literal "0"; pure ['0'])
    (do
      let first ← Reader.char fun c => '1' ≤ c && c ≤ '9'
      let others ← .many Char.isDigit
      pure (first :: others))

def fraction : Reader (Option Text) :=
  Reader.optional do
    .literal "."
    .many1 Char.isDigit

def exponent : Reader (Option Text) :=
  Reader.optional do
    let mark ← Reader.char fun c => c = 'e' || c = 'E'
    let sign ← Reader.optional (.char fun c => c = '+' || c = '-')
    let digits ← .many1 Char.isDigit
    pure (mark :: sign.toList ++ digits)

def signOf (minus : Option Unit) : Text := if minus.isSome then ['-'] else []

theorem number_eq : number = (do
    let minus ← Reader.optional (.literal "-")
    let whole ← whole
    let fraction ← fraction
    let exponent ← exponent
    let literal := signOf minus ++ whole ++ fraction.elim [] ('.' :: ·) ++ exponent.getD []
    pure (literal, if fraction.isNone && exponent.isNone then some whole else none)) := rfl

def Ends (rest : Text) : Prop :=
  ∀ c ∈ rest.head?, c.isDigit = false ∧ c ∉ (['.', 'e', 'E'] : List Char)

theorem isWhole_of_run {found : Text} (h : whole.run text = some (found, left)) :
    IsWhole found ∧ text = found ++ left := by
  rcases Option.or_eq_some_iff.1 h with hzero | ⟨-, hmore⟩
  · obtain ⟨_, behind, hread, hpure⟩ := Reader.run_bind_eq_some_iff.1 hzero
    obtain ⟨rfl, rfl⟩ := Prod.mk.inj (Option.some.inj hpure)
    exact ⟨.zero, Reader.run_literal_eq_some_iff.1 hread⟩
  · obtain ⟨first, behind, hfirst, hmore⟩ := Reader.run_bind_eq_some_iff.1 hmore
    obtain ⟨others, behind₁, hothers, hpure⟩ := Reader.run_bind_eq_some_iff.1 hmore
    obtain ⟨rfl, rfl⟩ := Prod.mk.inj (Option.some.inj hpure)
    obtain ⟨hrange, rfl⟩ := Reader.run_char_eq_some_iff.1 hfirst
    obtain ⟨rfl, hall⟩ := Reader.eq_append_of_run_many hothers
    rw [Bool.and_eq_true, decide_eq_true_eq, decide_eq_true_eq] at hrange
    exact ⟨.more hrange.1 hrange.2 hall, rfl⟩

theorem sign_of_run {minus : Option Unit}
    (h : (Reader.optional (.literal "-")).run text = some (minus, left)) :
    (signOf minus = [] ∨ signOf minus = ['-']) ∧ text = signOf minus ++ left := by
  obtain ⟨_, rfl, hread⟩ | ⟨rfl, rfl⟩ := Reader.run_optional_cases h
  · exact ⟨.inr rfl, Reader.run_literal_eq_some_iff.1 hread⟩
  · exact ⟨.inl rfl, rfl⟩

theorem exists_run_sign {sign : Text} (h : sign = [] ∨ sign = ['-'])
    (hrest : ∀ c ∈ rest.head?, c ≠ '-') :
    ∃ minus, (Reader.optional (.literal "-")).run (sign ++ rest) = some (minus, rest) ∧
      signOf minus = sign := by
  have hminus : ("-" : Text) = ['-'] := by decide
  rw [hminus]
  rcases h with rfl | rfl
  · exact ⟨none, Reader.run_optional_of_run_eq_none (Reader.run_literal_eq_none hrest), rfl⟩
  · exact ⟨some (), Reader.run_optional_of_run_eq_some (Reader.run_literal_singleton '-' rest), rfl⟩

theorem run_whole {found : Text} (h : IsWhole found) (hrest : ∀ c ∈ rest.head?, c.isDigit = false) :
    whole.run (found ++ rest) = some (found, rest) := by
  cases h with
  | zero => rfl
  | @more first others hlow hhigh hothers =>
    have hzero :
        (do .literal "0"; pure ['0'] : Reader Text).run (first :: (others ++ rest)) = none := by
      rw [Option.eq_none_iff_forall_ne_some]
      rintro ⟨_, behind⟩ hread
      obtain ⟨_, left, hstart, -⟩ := Reader.run_bind_eq_some_iff.1 hread
      have hfirst := (List.cons.inj (Reader.run_literal_eq_some_iff.1 hstart)).1
      exact absurd (hfirst ▸ hlow) (by decide)
    refine Option.or_eq_some_iff.2
      (.inr ⟨hzero, Reader.run_bind_eq_some_iff.2 ⟨first, others ++ rest, ?_, ?_⟩⟩)
    · exact Reader.run_char_eq_some_iff.2 ⟨by simp [hlow, hhigh], rfl⟩
    · exact Reader.run_bind_eq_some_iff.2 ⟨others, rest, Reader.run_many_append hothers hrest, rfl⟩

theorem isFraction_of_run {found : Option Text} (h : fraction.run text = some (found, left)) :
    IsFraction (found.elim [] ('.' :: ·)) ∧ text = found.elim [] ('.' :: ·) ++ left := by
  obtain ⟨digits, rfl, hread⟩ | ⟨rfl, rfl⟩ := Reader.run_optional_cases h
  · obtain ⟨_, behind, hpoint, hdigits⟩ := Reader.run_bind_eq_some_iff.1 hread
    obtain rfl := Reader.run_literal_eq_some_iff.1 hpoint
    obtain ⟨rfl, hne, hall⟩ := Reader.eq_append_of_run_many1 hdigits
    exact ⟨.some ⟨hne, hall⟩, rfl⟩
  · exact ⟨.none, rfl⟩

theorem exists_run_fraction {literal : Text} (h : IsFraction literal)
    (hrest : ∀ c ∈ rest.head?, c.isDigit = false ∧ c ≠ '.') :
    ∃ found, fraction.run (literal ++ rest) = some (found, rest) ∧
      found.elim [] ('.' :: ·) = literal := by
  have hpoint : ("." : Text) = ['.'] := by decide
  cases h with
  | none =>
    refine ⟨none, Reader.run_optional_of_run_eq_none ?_, rfl⟩
    rw [List.nil_append, Reader.run_bind, hpoint,
      Reader.run_literal_eq_none fun c hc => (hrest c hc).2]
    rfl
  | @some digits h =>
    refine ⟨digits,
      Reader.run_optional_of_run_eq_some (Reader.run_bind_eq_some_iff.2 ⟨(), digits ++ rest,
      ?_, ?_⟩), rfl⟩
    · rw [hpoint]
      exact Reader.run_literal_singleton '.' _
    · exact Reader.run_many1_append h.1 h.2 fun c hc => (hrest c hc).1

theorem isExponent_of_run {found : Option Text} (h : exponent.run text = some (found, left)) :
    IsExponent (found.getD []) ∧ text = found.getD [] ++ left ∧
      (found.getD [] = [] → found = none) := by
  obtain ⟨digits, rfl, hread⟩ | ⟨rfl, rfl⟩ := Reader.run_optional_cases h
  · obtain ⟨mark, behind, hmark, hread⟩ := Reader.run_bind_eq_some_iff.1 hread
    obtain ⟨sign, behind₁, hsign, hread⟩ := Reader.run_bind_eq_some_iff.1 hread
    obtain ⟨digits, behind₂, hdigits, hpure⟩ := Reader.run_bind_eq_some_iff.1 hread
    obtain ⟨rfl, rfl⟩ := Prod.mk.inj (Option.some.inj hpure)
    obtain ⟨htest, rfl⟩ := Reader.run_char_eq_some_iff.1 hmark
    obtain ⟨rfl, hne, hall⟩ := Reader.eq_append_of_run_many1 hdigits
    rw [Bool.or_eq_true, decide_eq_true_eq, decide_eq_true_eq] at htest
    obtain ⟨hspelled, hbehind⟩ : (sign.toList = [] ∨ sign.toList = ['+'] ∨ sign.toList = ['-']) ∧
        behind = sign.toList ++ (digits ++ behind₂) := by
      obtain ⟨c, rfl, hchar⟩ | ⟨rfl, rfl⟩ := Reader.run_optional_cases hsign
      · obtain ⟨hc, rfl⟩ := Reader.run_char_eq_some_iff.1 hchar
        rw [Bool.or_eq_true, decide_eq_true_eq, decide_eq_true_eq] at hc
        obtain rfl | rfl := hc
        · exact ⟨.inr (.inl rfl), rfl⟩
        · exact ⟨.inr (.inr rfl), rfl⟩
      · exact ⟨.inl rfl, rfl⟩
    refine ⟨.some htest hspelled ⟨hne, hall⟩, ?_, fun hnil => absurd hnil (List.cons_ne_nil _ _)⟩
    rw [hbehind]
    simp
  · exact ⟨.none, rfl, fun _ => rfl⟩

theorem exists_run_exponent {literal : Text} (h : IsExponent literal) (hrest : Ends rest) :
    ∃ found, exponent.run (literal ++ rest) = some (found, rest) ∧ found.getD [] = literal ∧
      (literal = [] → found = none) := by
  cases h with
  | none =>
    have hmark : (Reader.char fun c => c = 'e' || c = 'E').run rest = none := by
      refine Reader.run_char_eq_none fun c hc => ?_
      have hnot := (hrest c hc).2
      simp only [List.mem_cons, List.not_mem_nil, or_false, not_or] at hnot
      simp [hnot]
    refine ⟨none, Reader.run_optional_of_run_eq_none ?_, rfl, fun _ => rfl⟩
    rw [List.nil_append, Reader.run_bind, hmark]
    rfl
  | @some mark sign digits hmark hsign h =>
    have hspelled : ∃ c : Option Char, c.toList = sign ∧
        (Reader.optional (.char fun c => c = '+' || c = '-')).run (sign ++ (digits ++ rest)) =
          some (c, digits ++ rest) := by
      rcases hsign with rfl | rfl | rfl
      · refine ⟨none, rfl,
          Reader.run_optional_of_run_eq_none (Reader.run_char_eq_none fun c hc => ?_)⟩
        have hdigit : c.isDigit = true := by
          obtain ⟨d, others, rfl⟩ := List.exists_cons_of_ne_nil h.1
          obtain rfl : d = c := by simpa using hc
          exact h.2 d List.mem_cons_self
        rw [Bool.or_eq_false_iff, decide_eq_false_iff_not, decide_eq_false_iff_not]
        exact ⟨ne_of_isDigit hdigit (by decide), ne_of_isDigit hdigit (by decide)⟩
      · exact ⟨some '+', rfl,
          Reader.run_optional_of_run_eq_some (Reader.run_char_eq_some_iff.2 ⟨rfl, rfl⟩)⟩
      · exact ⟨some '-', rfl,
          Reader.run_optional_of_run_eq_some (Reader.run_char_eq_some_iff.2 ⟨rfl, rfl⟩)⟩
    obtain ⟨c, rfl, hread⟩ := hspelled
    refine ⟨some (mark :: c.toList ++ digits), Reader.run_optional_of_run_eq_some ?_, rfl,
      fun hnil => absurd hnil (List.cons_ne_nil _ _)⟩
    refine Reader.run_bind_eq_some_iff.2 ⟨mark, c.toList ++ (digits ++ rest), ?_, ?_⟩
    · exact Reader.run_char_eq_some_iff.2 ⟨by simpa using hmark, by simp⟩
    · refine Reader.run_bind_eq_some_iff.2 ⟨c, digits ++ rest, hread,
        Reader.run_bind_eq_some_iff.2 ⟨digits, rest, ?_, rfl⟩⟩
      exact Reader.run_many1_append h.1 h.2 fun c hc => (hrest c hc).1

theorem head_whole {found : Text} (h : IsWhole found) : ∀ c ∈ (found ++ rest).head?, c ≠ '-' := by
  obtain ⟨d, others, rfl, hdigit⟩ := h.head
  rintro c ⟨⟩
  exact ne_of_isDigit hdigit (by decide)

theorem head_exponent {literal : Text} (h : IsExponent literal) (hrest : Ends rest) :
    ∀ c ∈ (literal ++ rest).head?, c.isDigit = false ∧ c ≠ '.' := by
  intro c hc
  cases h with
  | none =>
    have hnot := hrest c hc
    simp only [List.mem_cons, List.not_mem_nil, or_false, not_or] at hnot
    exact ⟨hnot.1, hnot.2.1⟩
  | some hmark =>
    cases hc
    rcases hmark with rfl | rfl <;> decide

theorem head_fraction {literal : Text} (h : IsFraction literal)
    (hrest : ∀ c ∈ rest.head?, c.isDigit = false ∧ c ≠ '.') :
    ∀ c ∈ (literal ++ rest).head?, c.isDigit = false := by
  intro c hc
  cases h with
  | none => exact (hrest c hc).1
  | some =>
    cases hc
    decide

end Number

open Number

/-- A number is an integer if nothing is read of a fraction and of an exponent. -/
theorem digits_eq {point power : Option Text} (hpower : power.getD [] = [] → power = none)
    (whole : Text) :
    (if point.isNone && power.isNone then some whole else none) =
      if point.elim [] ('.' :: ·) = [] ∧ power.getD [] = [] then some whole else none := by
  have hpoint : point.elim [] ('.' :: ·) = [] ↔ point = none := by cases point <;> simp
  have hgone : power.getD [] = [] ↔ power = none := ⟨hpower, fun h => h ▸ rfl⟩
  simp only [hpoint, hgone, Bool.and_eq_true, Option.isNone_iff_eq_none]

/-- What the reader of numbers takes off is a number of the grammar. -/
theorem isNumber_of_run {literal : Text} {digits : Option Text}
    (h : number.run text = some ((literal, digits), left)) :
    IsNumber literal digits ∧ text = literal ++ left := by
  rw [number_eq] at h
  obtain ⟨minus, behind, hminus, h⟩ := Reader.run_bind_eq_some_iff.1 h
  obtain ⟨found, behind₁, hfound, h⟩ := Reader.run_bind_eq_some_iff.1 h
  obtain ⟨point, behind₂, hpoint, h⟩ := Reader.run_bind_eq_some_iff.1 h
  obtain ⟨power, behind₃, hpower, hpure⟩ := Reader.run_bind_eq_some_iff.1 h
  obtain ⟨heq, rfl⟩ := Prod.mk.inj (Option.some.inj hpure)
  obtain ⟨rfl, rfl⟩ := Prod.mk.inj heq
  obtain ⟨hsign, htext⟩ := sign_of_run hminus
  obtain ⟨hwhole, rfl⟩ := isWhole_of_run hfound
  obtain ⟨hfraction, rfl⟩ := isFraction_of_run hpoint
  obtain ⟨hexponent, rfl, hnone⟩ := isExponent_of_run hpower
  rw [digits_eq hnone, List.append_assoc, List.append_assoc]
  refine ⟨.mk hsign hwhole hfraction hexponent, ?_⟩
  simp only [htext, List.append_assoc]

/-- A number of the grammar is read whole where it ends. -/
theorem run_number {literal : Text} {digits : Option Text} (h : IsNumber literal digits)
    (hrest : Ends rest) : number.run (literal ++ rest) = some ((literal, digits), rest) := by
  obtain @⟨sign, whole, fraction, exponent, hsign, hwhole, hfraction, hexponent⟩ := h
  have hbehindWhole := head_fraction hfraction (head_exponent hexponent hrest)
  obtain ⟨point, hpoint, rfl⟩ := exists_run_fraction hfraction (head_exponent hexponent hrest)
  obtain ⟨power, hpower, rfl, hnone⟩ := exists_run_exponent hexponent hrest
  obtain ⟨minus, hminus, rfl⟩ := exists_run_sign hsign (head_whole hwhole)
  rw [← digits_eq hnone, number_eq]
  simp only [List.append_assoc]
  refine Reader.run_bind_eq_some_iff.2 ⟨minus, _, hminus, Reader.run_bind_eq_some_iff.2 ⟨whole, _,
    run_whole hwhole hbehindWhole, Reader.run_bind_eq_some_iff.2 ⟨point, _, hpoint,
      Reader.run_bind_eq_some_iff.2 ⟨power, _, hpower, ?_⟩⟩⟩⟩
  rfl

end LazyEmbed.Json
