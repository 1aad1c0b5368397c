import LazyEmbed.Proofs.Json.Stepping
import LazyEmbed.Validation.Payload
import Mathlib.Algebra.Group.Nat.Even

/-!
# Lists of strings, one character at a time

A payload is good if it is a JSON list of an even number of strings. That is a regular language, and
the machine below accepts it: it knows where in such a list it stands and counts the strings that
have ended. The reader of JSON is not regular, and looks ahead and backtracks over kinds of values;
on good payloads the two agree, and `payloadProblemWithin?_eq_none_iff` says that they agree on what
is good.

The machine is there because it can be run on a part of a payload: `scan_append` cuts a run in two.
-/

namespace LazyEmbed.Json.StringList

inductive Place where
  | outside
  | opened
  | inString
  | escape
  /-- In a numeric escape, with so many more digits to come behind the next one. -/
  | digits (more : Nat)
  | behindString
  | behindComma
  | closed
  deriving DecidableEq, Repr

def step : Place → Char → Option Place
  | .outside, c => if isBlank c then some .outside else if c = '[' then some .opened else none
  | .opened, c =>
    if isBlank c then some .opened
    else if c = ']' then some .closed
    else if c = '"' then some .inString
    else none
  | .inString, c =>
    if c = '"' then some .behindString
    else if c = '\\' then some .escape
    else if c.toNat < 0x20 then none
    else some .inString
  | .escape, c =>
    if c = 'u' then some (.digits 3)
    else if (escaped? c).isSome then some .inString
    else none
  | .digits 0, c => if Text.isHexDigit c then some .inString else none
  | .digits (more + 1), c => if Text.isHexDigit c then some (.digits more) else none
  | .behindString, c =>
    if isBlank c then some .behindString
    else if c = ',' then some .behindComma
    else if c = ']' then some .closed
    else none
  | .behindComma, c =>
    if isBlank c then some .behindComma else if c = '"' then some .inString else none
  | .closed, c => if isBlank c then some .closed else none

/-- Goes over a text; gives the place behind it and the number of strings that end in it. -/
def scan : Place → Text → Option (Place × Nat)
  | place, [] => some (place, 0)
  | place, c :: text =>
    (step place c).bind fun next =>
      (scan next text).map fun (last, count) =>
        (last, if place = .inString ∧ c = '"' then count + 1 else count)

/-- The scan of two texts is the scan of the first and then of the second from where it stopped. -/
theorem scan_append (place : Place) (text rest : Text) :
    scan place (text ++ rest) =
      (scan place text).bind fun (middle, first) =>
        (scan middle rest).map fun (last, second) => (last, first + second) := by
  induction text generalizing place with
  | nil =>
    rw [List.nil_append, scan, Option.bind_some]
    cases h : scan place rest <;> simp [h]
  | cons c text ih =>
    rw [List.cons_append, scan, scan]
    cases hstep : step place c with
    | none => rfl
    | some next =>
      simp only [Option.bind_some, ih]
      cases scan next text with
      | none => rfl
      | some found =>
        simp only [Option.bind_some, Option.map_some]
        cases scan found.1 rest with
        | none => rfl
        | some last =>
          simp only [Option.map_some, Option.some.injEq, Prod.mk.injEq, true_and]
          split <;> omega

theorem scan_append_eq_some_iff {place last : Place} {text rest : Text} {count : Nat} :
    scan place (text ++ rest) = some (last, count) ↔
      ∃ middle first second, scan place text = some (middle, first) ∧
        scan middle rest = some (last, second) ∧ count = first + second := by
  rw [scan_append, Option.bind_eq_some_iff]
  constructor
  · rintro ⟨⟨middle, first⟩, hfirst, hrest⟩
    obtain ⟨⟨_, second⟩, hsecond, heq⟩ := Option.map_eq_some_iff.1 hrest
    obtain ⟨rfl, rfl⟩ := Prod.mk.inj heq
    exact ⟨middle, first, second, hfirst, hsecond, rfl⟩
  · rintro ⟨middle, first, second, hfirst, hsecond, rfl⟩
    exact ⟨(middle, first), hfirst, by simp only [hsecond, Option.map_some]⟩

/-! ### Blanks -/

def Place.Waits (place : Place) : Prop :=
  place ≠ .inString ∧ ∀ c, isBlank c = true → step place c = some place

theorem waits_outside : Place.outside.Waits := ⟨by decide, fun c h => by simp [step, h]⟩

theorem waits_opened : Place.opened.Waits := ⟨by decide, fun c h => by simp [step, h]⟩

theorem waits_behindString : Place.behindString.Waits := ⟨by decide, fun c h => by simp [step, h]⟩

theorem waits_behindComma : Place.behindComma.Waits := ⟨by decide, fun c h => by simp [step, h]⟩

theorem waits_closed : Place.closed.Waits := ⟨by decide, fun c h => by simp [step, h]⟩

/-- Blanks between tokens do not move the scan. -/
theorem scan_skipBlanks {place : Place} (h : place.Waits) (text : Text) :
    scan place (skipBlanks text) = scan place text := by
  induction text with
  | nil => rfl
  | cons c text ih =>
    by_cases hblank : isBlank c = true
    · have hskip : skipBlanks (c :: text) = skipBlanks text := by simp [skipBlanks, hblank]
      rw [hskip, ih, scan, h.2 c hblank, Option.bind_some]
      cases scan place text <;> simp [h.1]
    · have hskip : skipBlanks (c :: text) = c :: text := by simp [skipBlanks, hblank]
      rw [hskip]

theorem scan_closed_iff {text : Text} {count : Nat} :
    scan .closed text = some (.closed, count) ↔ skipBlanks text = [] ∧ count = 0 := by
  rw [← scan_skipBlanks waits_closed]
  cases htext : skipBlanks text with
  | nil => simp [scan, eq_comm]
  | cons c rest => simp [scan, step, isBlank_of_skipBlanks htext]

/-! ### Strings -/

/-- Nothing is counted in one step, but where a string ends. -/
theorem scan_cons_of_step (next : Place) {place : Place} {c : Char} {text : Text}
    (hstep : step place c = some next) (hquote : ¬(place = .inString ∧ c = '"')) :
    scan place (c :: text) = scan next text := by
  rw [scan, hstep, Option.bind_some]
  cases scan next text <;> simp [hquote]

theorem scan_cons_of_step_eq_none {place : Place} {c : Char} {text : Text}
    (hstep : step place c = none) : scan place (c :: text) = none := by
  rw [scan, hstep, Option.bind_none]

theorem scan_quote (text : Text) :
    scan .inString ('"' :: text) =
      (scan .behindString text).map fun (last, count) => (last, count + 1) := by
  rw [scan, show step .inString '"' = some .behindString from rfl, Option.bind_some]
  rfl

theorem scan_backslash (text : Text) : scan .inString ('\\' :: text) = scan .escape text :=
  scan_cons_of_step .escape rfl (by decide)

theorem scan_numericEscape {a b c d : Char} (h : [a, b, c, d].all Text.isHexDigit = true)
    (text : Text) :
    scan .inString ('\\' :: 'u' :: a :: b :: c :: d :: text) = scan .inString text := by
  simp only [List.all_cons, List.all_nil, Bool.and_true, Bool.and_eq_true] at h
  obtain ⟨ha, hb, hc, hd⟩ := h
  rw [scan_backslash, scan_cons_of_step (.digits 3) rfl (by decide),
    scan_cons_of_step (.digits 2) (by simp [step, ha]) (by simp),
    scan_cons_of_step (.digits 1) (by simp [step, hb]) (by simp),
    scan_cons_of_step (.digits 0) (by simp [step, hc]) (by simp),
    scan_cons_of_step .inString (by simp [step, hd]) (by simp)]

theorem scan_digits_ne_closed {more : Nat} {text : Text}
    (h : text.length ≤ more + 1 ∨ (text.take (more + 1)).all Text.isHexDigit = false)
    (count : Nat) : scan (.digits more) text ≠ some (.closed, count) := by
  induction more generalizing text with
  | zero =>
    cases text with
    | nil => simp [scan]
    | cons c text =>
      by_cases hc : Text.isHexDigit c = true
      · have hnil : text = [] := by simpa [hc] using h
        rw [scan_cons_of_step .inString (by simp [step, hc]) (by simp), hnil]
        simp [scan]
      · rw [scan_cons_of_step_eq_none (by simp [step, hc])]
        simp
  | succ more ih =>
    cases text with
    | nil => simp [scan]
    | cons c text =>
      by_cases hc : Text.isHexDigit c = true
      · rw [scan_cons_of_step (.digits more) (by simp [step, hc]) (by simp)]
        exact ih (by simpa [hc] using h)
      · rw [scan_cons_of_step_eq_none (by simp [step, hc])]
        simp

theorem exists_readParts_of_map {text left : Text} {part : StringPart} {parts : List StringPart}
    (h : (readParts text).map (fun (parts, left) => (part :: parts, left)) = .ok (parts, left)) :
    ∃ others, readParts text = .ok (others, left) := by
  obtain ⟨⟨others, rest⟩, hread, heq⟩ := map_eq_ok_iff.1 h
  obtain ⟨-, rfl⟩ := Prod.mk.inj heq
  exact ⟨others, hread⟩

theorem scan_shortEscape {letter c : Char} (hunit : letter ≠ 'u')
    (hletter : escaped? letter = some c) (text : Text) :
    scan .inString ('\\' :: letter :: text) = scan .inString text := by
  rw [scan_backslash, scan_cons_of_step .inString (by simp [step, hunit, hletter]) (by simp)]

theorem scan_plain {c : Char} (hquote : c ≠ '"') (hescape : c ≠ '\\') (hcontrol : ¬c.toNat < 0x20)
    (text : Text) : scan .inString (c :: text) = scan .inString text :=
  scan_cons_of_step .inString (by simp [step, hquote, hescape, hcontrol]) (by simp [hquote])

/-- Over a string that can be read, the machine comes to where the reader comes to. -/
theorem scan_of_readParts {text left : Text} {parts : List StringPart}
    (h : readParts text = .ok (parts, left)) :
    scan .inString text =
      (scan .behindString left).map fun (last, count) => (last, count + 1) := by
  fun_induction readParts text generalizing parts left with
  | case1 => simp at h
  | case2 rest =>
    obtain ⟨-, rfl⟩ : _ ∧ rest = left := by simpa using h
    exact scan_quote rest
  | case3 => simp at h
  | case4 a b c d next rest hhex ih =>
    obtain ⟨others, hrest⟩ := exists_readParts_of_map h
    rw [scan_numericEscape hhex, ih hrest]
  | case5 => simp at h
  | case6 => simp at h
  | case7 letter rest _ hunit c hletter ih =>
    obtain ⟨others, hrest⟩ := exists_readParts_of_map h
    rw [scan_shortEscape hunit hletter, ih hrest]
  | case8 => simp at h
  | case9 => simp at h
  | case10 c rest hquote hlast _ _ hescape hcontrol ih =>
    obtain ⟨others, hrest⟩ := exists_readParts_of_map h
    have hbackslash : c ≠ '\\' := by
      cases rest with
      | nil => exact fun hc => hlast hc rfl
      | cons letter rest => exact fun hc => hescape letter rest hc rfl
    rw [scan_plain hquote hbackslash hcontrol, ih hrest]

/-- Over a string that cannot be read, the machine does not come to the end of the list. -/
theorem scan_ne_closed_of_readParts {text : Text} {flaw : Flaw}
    (h : readParts text = .error flaw) (count : Nat) :
    scan .inString text ≠ some (.closed, count) := by
  fun_induction readParts text generalizing flaw with
  | case1 => simp [scan]
  | case2 rest => simp at h
  | case3 => simp [scan, step]
  | case4 a b c d next rest hhex ih =>
    have hrest := map_eq_error_iff.1 h
    rw [scan_numericEscape hhex]
    exact ih hrest
  | case5 a b c d next rest hhex =>
    rw [scan_backslash, scan_cons_of_step (.digits 3) rfl (by decide)]
    exact scan_digits_ne_closed (.inr (by simpa using hhex)) count
  | case6 rest hshort =>
    rw [scan_backslash, scan_cons_of_step (.digits 3) rfl (by decide)]
    refine scan_digits_ne_closed (.inl ?_) count
    match rest with
    | [] | [_] | [_, _] | [_, _, _] | [_, _, _, _] => simp
    | a :: b :: c :: d :: next :: rest => exact absurd rfl (hshort a b c d next rest)
  | case7 letter rest _ hunit c hletter ih =>
    have hrest := map_eq_error_iff.1 h
    rw [scan_shortEscape hunit hletter]
    exact ih hrest
  | case8 letter rest _ hunit hletter =>
    rw [scan_backslash, scan_cons_of_step_eq_none (by rw [step, if_neg hunit, hletter]; rfl)]
    simp
  | case9 c rest hquote _ _ _ hescape hcontrol =>
    have hbackslash : c ≠ '\\' := by
      rintro rfl
      exact absurd hcontrol (by decide)
    rw [scan_cons_of_step_eq_none (by rw [step, if_neg hquote, if_neg hbackslash, if_pos hcontrol])]
    simp
  | case10 c rest hquote hlast _ _ hescape hcontrol ih =>
    have hrest := map_eq_error_iff.1 h
    have hbackslash : c ≠ '\\' := by
      cases rest with
      | nil => exact fun hc => hlast hc rfl
      | cons letter rest => exact fun hc => hescape letter rest hc rfl
    rw [scan_plain hquote hbackslash hcontrol]
    exact ih hrest

theorem length_of_readParts {text left : Text} {parts : List StringPart}
    (h : readParts text = .ok (parts, left)) : left.length < text.length := by
  fun_induction readParts text generalizing parts left with
  | case1 | case3 | case5 | case6 | case8 | case9 => simp at h
  | case2 rest =>
    obtain ⟨-, rfl⟩ : _ ∧ rest = left := by simpa using h
    simp
  | case4 a b c d next rest hhex ih =>
    obtain ⟨others, hrest⟩ := exists_readParts_of_map h
    have := ih hrest
    simp only [List.length_cons] at this ⊢
    omega
  | case7 letter rest _ hunit c hletter ih =>
    obtain ⟨others, hrest⟩ := exists_readParts_of_map h
    have := ih hrest
    simp only [List.length_cons]
    omega
  | case10 c rest _ _ _ _ _ _ ih =>
    obtain ⟨others, hrest⟩ := exists_readParts_of_map h
    have := ih hrest
    simp only [List.length_cons]
    omega

/-! ### Values -/

theorem kind_of_readAtom {text left : Text} {value : Value}
    (h : readAtom text = .ok (value, left)) :
    value.text? = none ∧ ∀ items, value ≠ .array items := by
  rw [readAtom] at h
  split at h
  · next found hfound =>
    obtain ⟨⟨word, spelled⟩, hword, hread⟩ := List.exists_of_findSome?_eq_some hfound
    obtain ⟨rest, -, rfl⟩ := Option.map_eq_some_iff.1 hread
    obtain ⟨rfl, -⟩ : spelled = value ∧ _ := by simpa using h
    simp only [words, List.mem_cons, Prod.mk.injEq, List.not_mem_nil, or_false] at hword
    rcases hword with ⟨-, rfl⟩ | ⟨-, rfl⟩ | ⟨-, rfl⟩ | ⟨-, rfl⟩ | ⟨-, rfl⟩ | ⟨-, rfl⟩ <;>
      exact ⟨rfl, fun _ => Value.noConfusion⟩
  · split at h
    · simp at h
    · split at h
      · split at h
        · obtain ⟨rfl, -⟩ : _ = value ∧ _ := by simpa using h
          exact ⟨rfl, fun _ => Value.noConfusion⟩
        · simp at h
      · obtain ⟨rfl, -⟩ : _ = value ∧ _ := by simpa using h
        exact ⟨rfl, fun _ => Value.noConfusion⟩

/-- A value is a string, an array, or of a kind that a list of strings has no use for; the first
character tells. -/
theorem readValue_cases {fuel room : Nat} {text left : Text} {value : Value}
    (h : readValue fuel room text = .ok (value, left)) :
    (∃ rest content, text = '"' :: rest ∧ value = .string content) ∨
      (∃ rest items, text = '[' :: rest ∧ value = .array items) ∨
      (value.text? = none ∧ ∀ items, value ≠ .array items) := by
  cases fuel with
  | zero =>
    rw [readValue] at h
    cases h
  | succ fuel =>
    cases readValue_eq_ok_iff.1 h with
    | string h => exact .inl ⟨_, _, rfl, rfl⟩
    | emptyArray h => exact .inr (.inl ⟨_, _, rfl, rfl⟩)
    | array _ h => exact .inr (.inl ⟨_, _, rfl, rfl⟩)
    | emptyObject h => exact .inr (.inr ⟨rfl, fun _ => Value.noConfusion⟩)
    | object _ h => exact .inr (.inr ⟨rfl, fun _ => Value.noConfusion⟩)
    | atom _ h => exact .inr (.inr (kind_of_readAtom h))

theorem exists_quote_of_readValue {fuel room : Nat} {text left : Text} {value : Value}
    (h : readValue fuel room text = .ok (value, left)) (hstring : value.text?.isSome = true) :
    ∃ rest, text = '"' :: rest := by
  obtain ⟨rest, _, rfl, -⟩ | ⟨_, _, -, rfl⟩ | ⟨hnone, -⟩ := readValue_cases h
  · exact ⟨rest, rfl⟩
  · simp [Value.text?] at hstring
  · simp [hnone] at hstring

theorem exists_bracket_of_readValue {fuel room : Nat} {text left : Text} {items : List Value}
    (h : readValue fuel room text = .ok (.array items, left)) : ∃ rest, text = '[' :: rest := by
  obtain ⟨_, _, -, hvalue⟩ | ⟨rest, _, rfl, -⟩ | ⟨-, hother⟩ := readValue_cases h
  · simp at hvalue
  · exact ⟨rest, rfl⟩
  · exact absurd rfl (hother items)

/-! ### Lists -/

/-- The text is read as items that are all strings, with nothing behind the list. -/
def ReadsStrings (fuel room : Nat) (text : Text) (count : Nat) : Prop :=
  ∃ items left, readItems fuel room text = .ok (items, left) ∧
    (items.all fun item => item.text?.isSome) = true ∧ skipBlanks left = [] ∧ items.length = count

theorem readItems_quote {fuel room : Nat} {text left : Text} {parts : List StringPart}
    (h : readParts text = .ok (parts, left)) :
    readItems (fuel + 2) room ('"' :: text) =
      match skipBlanks left with
      | ']' :: left => .ok ([.string (joinParts parts)], left)
      | ',' :: rest =>
        (readItems (fuel + 1) room (skipBlanks rest)).map fun (items, left) =>
          (.string (joinParts parts) :: items, left)
      | rest => .error (.flaw (.ahead .expectedComma rest)) := by
  apply readItems_succ
  rw [readValue_quote, readString_of_readParts h]
  rfl

theorem scan_behindComma_quote {text left : Text} {parts : List StringPart}
    (h : readParts text = .ok (parts, left)) :
    scan .behindComma ('"' :: text) =
      (scan .behindString left).map fun (last, count) => (last, count + 1) := by
  rw [scan_cons_of_step .inString rfl (by simp), scan_of_readParts h]

theorem exists_readValue_of_readItems {fuel room : Nat} {text left : Text} {items : List Value}
    (h : readItems fuel room text = .ok (items, left)) :
    ∃ fewer item rest others, fuel = fewer + 1 ∧ readValue fewer room text = .ok (item, rest) ∧
      items = item :: others := by
  cases fuel with
  | zero =>
    rw [readItems] at h
    cases h
  | succ fuel =>
    cases readItems_eq_ok_iff.1 h with
    | last hvalue _ => exact ⟨fuel, _, _, _, rfl, hvalue, rfl⟩
    | more hvalue _ _ => exact ⟨fuel, _, _, _, rfl, hvalue, rfl⟩

theorem exists_quote_of_readsStrings {fuel room : Nat} {text : Text} {count : Nat}
    (h : ReadsStrings fuel room text count) :
    ∃ fewer rest content left, fuel = fewer + 1 ∧ text = '"' :: rest ∧
      readValue fewer room text = .ok (content, left) := by
  obtain ⟨items, left, hitems, hstrings, -, -⟩ := h
  obtain ⟨fewer, item, behind, others, rfl, hvalue, rfl⟩ := exists_readValue_of_readItems hitems
  obtain ⟨rest, rfl⟩ := exists_quote_of_readValue hvalue (by simp at hstrings; exact hstrings.1)
  exact ⟨fewer, rest, item, behind, rfl, rfl, hvalue⟩

section

variable {fuel room count : Nat} {text left rest : Text} {parts : List StringPart}

theorem not_readsStrings_of_head (h : text.head? ≠ some '"') :
    ¬ReadsStrings fuel room text count := by
  intro hreads
  obtain ⟨_, rest, _, _, -, rfl, -⟩ := exists_quote_of_readsStrings hreads
  exact h rfl

theorem not_readsStrings_of_readParts {flaw : Flaw} (h : readParts text = .error flaw) :
    ¬ReadsStrings (fuel + 2) room ('"' :: text) count := by
  intro hreads
  obtain ⟨fewer, _, content, rest, hfewer, -, hvalue⟩ := exists_quote_of_readsStrings hreads
  obtain rfl : fuel + 1 = fewer := by omega
  obtain ⟨flaw, hstring⟩ := readString_of_readParts_error h
  rw [readValue_quote, hstring] at hvalue
  cases hvalue

theorem readsStrings_last (hparts : readParts text = .ok (parts, left))
    (hleft : skipBlanks left = ']' :: rest) :
    ReadsStrings (fuel + 2) room ('"' :: text) count ↔ skipBlanks rest = [] ∧ count = 1 := by
  rw [ReadsStrings, readItems_quote hparts, hleft]
  constructor
  · rintro ⟨items, behind, hitems, -, hend, rfl⟩
    obtain ⟨rfl, rfl⟩ : [Value.string (joinParts parts)] = items ∧ rest = behind := by
      simpa using hitems
    exact ⟨hend, rfl⟩
  · rintro ⟨hend, rfl⟩
    exact ⟨_, _, rfl, rfl, hend, rfl⟩

/-- An item with a comma behind it adds one to the strings that follow. -/
theorem readsStrings_more (hparts : readParts text = .ok (parts, left))
    (hleft : skipBlanks left = ',' :: rest) :
    ReadsStrings (fuel + 2) room ('"' :: text) count ↔
      ∃ others, ReadsStrings (fuel + 1) room (skipBlanks rest) others ∧ count = others + 1 := by
  rw [ReadsStrings, readItems_quote hparts, hleft]
  constructor
  · rintro ⟨items, behind, hitems, hstrings, hend, rfl⟩
    cases hothers : readItems (fuel + 1) room (skipBlanks rest) with
    | error failure => simp [hothers, Except.map] at hitems
    | ok found =>
      obtain ⟨rfl, rfl⟩ : Value.string (joinParts parts) :: found.1 = items ∧ found.2 = behind := by
        simpa [hothers, Except.map] using hitems
      exact ⟨found.1.length, ⟨_, _, hothers, by simpa [Value.text?] using hstrings, hend, rfl⟩, rfl⟩
  · rintro ⟨_, ⟨items, behind, hitems, hstrings, hend, rfl⟩, rfl⟩
    refine ⟨.string (joinParts parts) :: items, behind, ?_, ?_, hend, rfl⟩
    · simp [hitems, Except.map]
    · simpa [Value.text?] using hstrings

theorem not_readsStrings_quote (hparts : readParts text = .ok (parts, left))
    (hbracket : (skipBlanks left).head? ≠ some ']') (hcomma : (skipBlanks left).head? ≠ some ',') :
    ¬ReadsStrings (fuel + 2) room ('"' :: text) count := by
  rw [ReadsStrings, readItems_quote hparts]
  rintro ⟨items, behind, hitems, -⟩
  split at hitems
  · next hskip => simp [hskip] at hbracket
  · next hskip => simp [hskip] at hcomma
  · simp at hitems

end

theorem map_counted_eq_some_iff {found : Option (Place × Nat)} {place : Place} {count : Nat} :
    (found.map fun (last, count) => (last, count + 1)) = some (place, count) ↔
      ∃ others, found = some (place, others) ∧ count = others + 1 := by
  constructor
  · intro h
    obtain ⟨⟨last, others⟩, hfound, heq⟩ := Option.map_eq_some_iff.1 h
    obtain ⟨rfl, rfl⟩ := Prod.mk.inj heq
    exact ⟨others, hfound, rfl⟩
  · rintro ⟨others, rfl, rfl⟩
    rfl

/-- The reader of items and the machine agree on what a list of strings is. -/
theorem readsStrings_iff {fuel room : Nat} {text : Text} (hfuel : text.length < fuel)
    {count : Nat} :
    ReadsStrings fuel room (skipBlanks text) count ↔
      scan .behindComma text = some (.closed, count) := by
  rw [← scan_skipBlanks waits_behindComma]
  induction fuel generalizing text count with
  | zero => omega
  | succ fuel ih =>
    have hlength := length_skipBlanks_le text
    cases htext : skipBlanks text with
    | nil => exact iff_of_false (not_readsStrings_of_head (by simp)) (by simp [scan])
    | cons c rest =>
      rw [htext, List.length_cons] at hlength
      by_cases hquote : c = '"'
      · subst hquote
        obtain ⟨fuel, rfl⟩ : ∃ n, fuel = n + 1 := ⟨fuel - 1, by omega⟩
        cases hparts : readParts rest with
        | error flaw =>
          refine iff_of_false (not_readsStrings_of_readParts hparts) ?_
          rw [scan_cons_of_step .inString rfl (by simp)]
          exact scan_ne_closed_of_readParts hparts count
        | ok found =>
          obtain ⟨parts, left⟩ := found
          have hleft := length_of_readParts hparts
          have hshorter := length_skipBlanks_le left
          rw [scan_behindComma_quote hparts, ← scan_skipBlanks waits_behindString]
          cases hskip : skipBlanks left with
          | nil =>
            exact iff_of_false (not_readsStrings_quote hparts (by simp [hskip]) (by simp [hskip]))
              (by simp [scan])
          | cons d behind =>
            rw [hskip, List.length_cons] at hshorter
            by_cases hbracket : d = ']'
            · subst hbracket
              rw [readsStrings_last hparts hskip, map_counted_eq_some_iff,
                scan_cons_of_step .closed rfl (by simp)]
              simp only [scan_closed_iff]
              exact ⟨fun ⟨hend, hone⟩ => ⟨0, ⟨hend, rfl⟩, hone⟩,
                fun ⟨_, ⟨hend, hzero⟩, hcount⟩ => ⟨hend, by omega⟩⟩
            · by_cases hcomma : d = ','
              · subst hcomma
                rw [readsStrings_more hparts hskip, map_counted_eq_some_iff,
                  scan_cons_of_step .behindComma rfl (by simp),
                  ← scan_skipBlanks waits_behindComma]
                simp only [ih (show behind.length < fuel + 1 by omega)]
              · have hblank := isBlank_of_skipBlanks hskip
                refine iff_of_false (not_readsStrings_quote hparts ?_ ?_) ?_
                · simpa [hskip] using hbracket
                · simpa [hskip] using hcomma
                · rw [scan_cons_of_step_eq_none (by simp [step, hblank, hbracket, hcomma])]
                  simp
      · have hblank := isBlank_of_skipBlanks htext
        rw [scan_cons_of_step_eq_none (by simp [step, hblank, hquote])]
        exact iff_of_false (not_readsStrings_of_head (by simpa using hquote)) (by simp)

theorem scan_opened_of_ne_bracket {c : Char} (h : c ≠ ']') (text : Text)
    (hblank : isBlank c = false) : scan .opened (c :: text) = scan .behindComma (c :: text) := by
  by_cases hquote : c = '"'
  · subst hquote
    rw [scan_cons_of_step .inString rfl (by simp),
      scan_cons_of_step .inString rfl (by simp)]
  · rw [scan_cons_of_step_eq_none (by simp [step, hblank, h, hquote]),
      scan_cons_of_step_eq_none (by simp [step, hblank, hquote])]

def ReadsList (fuel room : Nat) (text : Text) (count : Nat) : Prop :=
  ∃ items left, readValue fuel room text = .ok (.array items, left) ∧
    (items.all fun item => item.text?.isSome) = true ∧ skipBlanks left = [] ∧ items.length = count

section

variable {fuel room count : Nat} {rest left : Text}

theorem readsList_empty (hrest : skipBlanks rest = ']' :: left) :
    ReadsList (fuel + 1) (room + 1) ('[' :: rest) count ↔ skipBlanks left = [] ∧ count = 0 := by
  have hvalue := readValue_emptyArray fuel room hrest
  constructor
  · rintro ⟨items, behind, hitems, -, hend, rfl⟩
    obtain ⟨rfl, rfl⟩ : [] = items ∧ left = behind := by simpa [hvalue] using hitems
    exact ⟨hend, rfl⟩
  · rintro ⟨hend, rfl⟩
    exact ⟨[], left, hvalue, rfl, hend, rfl⟩

theorem readsList_items (hrest : (skipBlanks rest).head? ≠ some ']') :
    ReadsList (fuel + 1) (room + 1) ('[' :: rest) count ↔
      ReadsStrings fuel room (skipBlanks rest) count := by
  rw [ReadsList, ReadsStrings, readValue_array fuel room hrest]
  cases readItems fuel room (skipBlanks rest) with
  | error failure => simp [Except.map]
  | ok found => simp [Except.map, Prod.ext_iff]

end

/-- The reader finds a flat list of strings exactly when the scan ends closed, and they agree on the
count. -/
theorem readsList_iff (fuel room : Nat) {text : Text} (hfuel : text.length < fuel) {count : Nat} :
    ReadsList (fuel + 1) (room + 1) (skipBlanks text) count ↔
      scan .outside text = some (.closed, count) := by
  rw [← scan_skipBlanks waits_outside]
  have hlength := length_skipBlanks_le text
  cases htext : skipBlanks text with
  | nil =>
    refine iff_of_false ?_ (by simp [scan])
    rintro ⟨items, left, hvalue, -⟩
    obtain ⟨rest, hrest⟩ := exists_bracket_of_readValue hvalue
    simp at hrest
  | cons c rest =>
    rw [htext, List.length_cons] at hlength
    have hblank := isBlank_of_skipBlanks htext
    by_cases hbracket : c = '['
    · subst hbracket
      rw [scan_cons_of_step .opened rfl (by simp), ← scan_skipBlanks waits_opened]
      cases hrest : skipBlanks rest with
      | nil =>
        rw [readsList_items (by simp [hrest]), readsStrings_iff (by omega),
          ← scan_skipBlanks waits_behindComma, hrest]
        simp [scan]
      | cons d behind =>
        by_cases hclosed : d = ']'
        · subst hclosed
          rw [scan_cons_of_step .closed rfl (by simp), scan_closed_iff,
            readsList_empty hrest]
        · rw [scan_opened_of_ne_bracket hclosed _ (isBlank_of_skipBlanks hrest),
            readsList_items (by simpa [hrest] using hclosed), readsStrings_iff (by omega),
            ← scan_skipBlanks waits_behindComma, hrest]
    · rw [scan_cons_of_step_eq_none (by simp [step, hblank, hbracket])]
      refine iff_of_false ?_ (by simp)
      rintro ⟨items, left, hvalue, -⟩
      obtain ⟨rest, hrest⟩ := exists_bracket_of_readValue hvalue
      exact hbracket (List.cons.inj hrest).1

end LazyEmbed.Json.StringList

namespace LazyEmbed.Validation

open Json Json.StringList

theorem valueProblem?_eq_none_iff {value : Value} :
    valueProblem? value = none ↔
      ∃ items, value = .array items ∧ (items.all fun item => item.text?.isSome) = true ∧
        Even items.length := by
  cases value with
  | array items =>
    by_cases hodd : items.length % 2 = 0
    · simp [valueProblem?, hodd, Nat.even_iff, Option.isSome_iff_ne_none]
    · simp [valueProblem?, hodd, Nat.even_iff]
  | null | bool _ | number _ | string _ | object _ => simp [valueProblem?]

/-- A payload is good exactly if the machine accepts it and has counted an even number of
strings. -/
theorem payloadProblemWithin?_eq_none_iff {maxDepth : Nat} {payload : Text} :
    payloadProblemWithin? (maxDepth + 1) payload = .ok none ↔
      ∃ count, scan .outside payload = some (.closed, count) ∧ Even count := by
  by_cases hmark : payload.head? = some '\ufeff'
  · refine iff_of_false ?_ ?_
    · rw [payloadProblemWithin?, readWithin, if_pos hmark]
      simp
    · obtain ⟨rest, rfl⟩ := List.head?_eq_some_iff.1 hmark
      rw [scan_cons_of_step_eq_none (by decide)]
      simp
  · simp only [← readsList_iff (2 * payload.length + 1) maxDepth
      (show payload.length < 2 * payload.length + 1 by omega), ReadsList]
    rw [payloadProblemWithin?, readWithin, if_neg hmark]
    cases hvalue : readValue (2 * payload.length + 2) (maxDepth + 1) (skipBlanks payload) with
    | error failure => cases failure <;> simp [bind, Except.bind]
    | ok found =>
      obtain ⟨value, rest⟩ := found
      cases hend : skipBlanks rest with
      | nil =>
        simp only [bind, Except.bind, pure, Except.pure, Except.ok.injEq, Prod.mk.injEq, hend,
          valueProblem?_eq_none_iff]
        constructor
        · rintro ⟨items, rfl, hstrings, heven⟩
          exact ⟨_, ⟨items, rest, ⟨rfl, rfl⟩, hstrings, hend, rfl⟩, heven⟩
        · rintro ⟨_, ⟨items, _, ⟨rfl, -⟩, hstrings, -, rfl⟩, heven⟩
          exact ⟨items, rfl, hstrings, heven⟩
      | cons c behind =>
        refine iff_of_false (by simp [bind, Except.bind, hend]) ?_
        rintro ⟨_, ⟨items, left, hitems, -, hleft, -⟩, -⟩
        obtain ⟨-, rfl⟩ : _ ∧ rest = left := by simpa using hitems
        simp [hend] at hleft

theorem payloadProblem?_eq_none_iff {payload : Text} :
    payloadProblem? payload = .ok none ↔
      ∃ count, scan .outside payload = some (.closed, count) ∧ Even count :=
  payloadProblemWithin?_eq_none_iff

end LazyEmbed.Validation
