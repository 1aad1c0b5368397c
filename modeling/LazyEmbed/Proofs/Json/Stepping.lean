import LazyEmbed.Json.Reading
import LazyEmbed.Proofs.Text.Reading

/-!
# One step of the reader

A value is a string, an array, an object or an atom, and its first character tells which; items and
members go on behind a comma. The relations below list what one step can read, and the reader does
just these steps. All that is proved of the reader by induction takes its cases from them.
-/

namespace LazyEmbed.Json

variable {fuel room : Nat} {text rest left behind : Text}

/-! ### Blanks -/

theorem skipBlanks_cons {c : Char} (h : isBlank c = false) (text : Text) :
    skipBlanks (c :: text) = c :: text := by
  simp [skipBlanks, h]

theorem isBlank_of_skipBlanks {c : Char} (h : skipBlanks text = c :: rest) : isBlank c = false := by
  have hhead := List.head?_dropWhile_not isBlank text
  rw [show text.dropWhile isBlank = c :: rest from h] at hhead
  simpa using hhead

theorem length_skipBlanks_le (text : Text) : (skipBlanks text).length ≤ text.length :=
  (List.dropWhile_suffix isBlank).length_le

/-! ### Strings -/

theorem readString_of_readParts {parts : List StringPart} (h : readParts text = .ok (parts, left)) :
    readString text = .ok (joinParts parts, left) := by
  rw [readString, h]

theorem readString_of_readParts_error {flaw : Flaw} (h : readParts text = .error flaw) :
    ∃ flaw, readString text = .error flaw := by
  unfold readString
  rw [h]
  split
  · next heq => cases heq
  · exact ⟨_, rfl⟩
  · exact ⟨_, rfl⟩

/-! ### Values -/

theorem readValue_quote (fuel room : Nat) (text : Text) :
    readValue (fuel + 1) room ('"' :: text) =
      ((readString text).map fun (content, left) => (.string content, left)).mapError .flaw := by
  unfold readValue
  rfl

theorem readValue_emptyArray (fuel room : Nat) (h : skipBlanks rest = ']' :: left) :
    readValue (fuel + 1) (room + 1) ('[' :: rest) = .ok (.array [], left) := by
  unfold readValue
  simp only [h]

theorem readValue_array (fuel room : Nat) (h : (skipBlanks rest).head? ≠ some ']') :
    readValue (fuel + 1) (room + 1) ('[' :: rest) =
      (readItems fuel room (skipBlanks rest)).map fun (items, left) => (.array items, left) := by
  unfold readValue
  simp only
  split
  · next hskip => simp [hskip] at h
  · rfl

theorem readValue_emptyObject (fuel room : Nat) (h : skipBlanks rest = '\x7d' :: left) :
    readValue (fuel + 1) (room + 1) ('\x7b' :: rest) = .ok (.object [], left) := by
  unfold readValue
  simp only [h]

theorem readValue_object (fuel room : Nat) (h : (skipBlanks rest).head? ≠ some '\x7d') :
    readValue (fuel + 1) (room + 1) ('\x7b' :: rest) = (readMembers fuel room (skipBlanks rest)).map
      fun (members, left) => (.object members, left) := by
  unfold readValue
  simp only
  split
  · next hskip => simp [hskip] at h
  · rfl

def openers : List Char := ['"', '[', '\x7b']

theorem readValue_atom (fuel room : Nat) (h : ∀ c ∈ text.head?, c ∉ openers) :
    readValue (fuel + 1) room text = (readAtom text).mapError .flaw := by
  cases text with
  | nil =>
    unfold readValue
    rfl
  | cons c text =>
    have hnot := h c rfl
    simp only [openers, List.mem_cons, List.not_mem_nil, or_false, not_or] at hnot
    unfold readValue
    split
    · next heq => exact absurd (List.cons.inj heq).1 hnot.1
    · next heq => exact absurd (List.cons.inj heq).1 hnot.2.1
    · next heq => exact absurd (List.cons.inj heq).1 hnot.2.2
    · next heq => exact absurd (List.cons.inj heq).1 hnot.2.1
    · next heq => exact absurd (List.cons.inj heq).1 hnot.2.2
    · rfl

inductive ValueStep (fuel : Nat) : (room : Nat) → Text → Value → Text → Prop
  | string {room : Nat} {rest content left : Text} (h : readString rest = .ok (content, left)) :
      ValueStep fuel room ('"' :: rest) (.string content) left
  | emptyArray {room : Nat} {rest left : Text} (h : skipBlanks rest = ']' :: left) :
      ValueStep fuel (room + 1) ('[' :: rest) (.array []) left
  | array {room : Nat} {rest left : Text} {items : List Value}
      (hrest : (skipBlanks rest).head? ≠ some ']')
      (h : readItems fuel room (skipBlanks rest) = .ok (items, left)) :
      ValueStep fuel (room + 1) ('[' :: rest) (.array items) left
  | emptyObject {room : Nat} {rest left : Text} (h : skipBlanks rest = '\x7d' :: left) :
      ValueStep fuel (room + 1) ('\x7b' :: rest) (.object []) left
  | object {room : Nat} {rest left : Text} {members : List (Text × Value)}
      (hrest : (skipBlanks rest).head? ≠ some '\x7d')
      (h : readMembers fuel room (skipBlanks rest) = .ok (members, left)) :
      ValueStep fuel (room + 1) ('\x7b' :: rest) (.object members) left
  | atom {room : Nat} {text left : Text} {value : Value} (hhead : ∀ c ∈ text.head?, c ∉ openers)
      (h : readAtom text = .ok (value, left)) : ValueStep fuel room text value left

/-- The kinds of texts that a value is looked for in. -/
theorem opener_cases (text : Text) : (∃ rest, text = '"' :: rest) ∨ (∃ rest, text = '[' :: rest) ∨
    (∃ rest, text = '\x7b' :: rest) ∨ ∀ c ∈ text.head?, c ∉ openers := by
  cases text with
  | nil => exact .inr (.inr (.inr fun c hc => by cases hc))
  | cons c rest =>
    by_cases hc : c ∈ openers
    · simp only [openers, List.mem_cons, List.not_mem_nil, or_false] at hc
      rcases hc with rfl | rfl | rfl
      · exact .inl ⟨rest, rfl⟩
      · exact .inr (.inl ⟨rest, rfl⟩)
      · exact .inr (.inr (.inl ⟨rest, rfl⟩))
    · exact .inr (.inr (.inr fun d hd => by simpa using Option.some.inj hd ▸ hc))

theorem head_ne_or_exists (c : Char) (text : Text) :
    text.head? ≠ some c ∨ ∃ rest, text = c :: rest := by
  by_cases h : text.head? = some c
  · exact .inr (List.head?_eq_some_iff.1 h)
  · exact .inl h

/-- One step of the reader of values, as a relation between what stands before it and behind it. -/
theorem readValue_eq_ok_iff {value : Value} :
    readValue (fuel + 1) room text = .ok (value, left) ↔ ValueStep fuel room text value left := by
  constructor
  · intro h
    obtain ⟨rest, rfl⟩ | ⟨rest, rfl⟩ | ⟨rest, rfl⟩ | hhead := opener_cases text
    · rw [readValue_quote, mapError_eq_ok_iff, map_eq_ok_iff] at h
      obtain ⟨⟨content, behind⟩, hread, heq⟩ := h
      obtain ⟨rfl, rfl⟩ := Prod.mk.inj heq
      exact .string hread
    · cases room with
      | zero =>
        unfold readValue at h
        cases h
      | succ room =>
        obtain hrest | ⟨behind, hrest⟩ := head_ne_or_exists ']' (skipBlanks rest)
        · rw [readValue_array fuel room hrest, map_eq_ok_iff] at h
          obtain ⟨⟨items, behind⟩, hread, heq⟩ := h
          obtain ⟨rfl, rfl⟩ := Prod.mk.inj heq
          exact .array hrest hread
        · rw [readValue_emptyArray fuel room hrest] at h
          obtain ⟨rfl, rfl⟩ := Prod.mk.inj (Except.ok.inj h)
          exact .emptyArray hrest
    · cases room with
      | zero =>
        unfold readValue at h
        cases h
      | succ room =>
        obtain hrest | ⟨behind, hrest⟩ := head_ne_or_exists '\x7d' (skipBlanks rest)
        · rw [readValue_object fuel room hrest, map_eq_ok_iff] at h
          obtain ⟨⟨items, behind⟩, hread, heq⟩ := h
          obtain ⟨rfl, rfl⟩ := Prod.mk.inj heq
          exact .object hrest hread
        · rw [readValue_emptyObject fuel room hrest] at h
          obtain ⟨rfl, rfl⟩ := Prod.mk.inj (Except.ok.inj h)
          exact .emptyObject hrest
    · rw [readValue_atom fuel room hhead, mapError_eq_ok_iff] at h
      exact .atom hhead h
  · intro h
    cases h with
    | string h =>
      rw [readValue_quote, h]
      rfl
    | emptyArray h => exact readValue_emptyArray _ _ h
    | array hrest h =>
      rw [readValue_array _ _ hrest, h]
      rfl
    | emptyObject h => exact readValue_emptyObject _ _ h
    | object hrest h =>
      rw [readValue_object _ _ hrest, h]
      rfl
    | atom hhead h =>
      rw [readValue_atom _ _ hhead, h]
      rfl

/-! ### Items and members -/

/-- What is read of the list behind its first item. -/
theorem readItems_succ {item : Value} (h : readValue fuel room text = .ok (item, left)) :
    readItems (fuel + 1) room text =
      match skipBlanks left with
      | ']' :: left => .ok ([item], left)
      | ',' :: rest => (readItems fuel room (skipBlanks rest)).map fun (items, left) =>
        (item :: items, left)
      | rest => .error (.flaw (.ahead .expectedComma rest)) := by
  rw [readItems, h]
  simp only [bind, Except.bind]
  generalize skipBlanks left = rest
  split
  · rfl
  · simp only [Except.map, pure, Except.pure]
  · next hbracket hcomma => simp

inductive ItemsStep (fuel room : Nat) (text : Text) : List Value → Text → Prop
  | last {item : Value} {rest left : Text} (h : readValue fuel room text = .ok (item, rest))
      (hrest : skipBlanks rest = ']' :: left) : ItemsStep fuel room text [item] left
  | more {item : Value} {items : List Value} {rest behind left : Text}
      (h : readValue fuel room text = .ok (item, rest)) (hrest : skipBlanks rest = ',' :: behind)
      (hmore : readItems fuel room (skipBlanks behind) = .ok (items, left)) :
      ItemsStep fuel room text (item :: items) left

/-- One step of the reader of items: the last item, or an item and a comma with more behind. -/
theorem readItems_eq_ok_iff {items : List Value} :
    readItems (fuel + 1) room text = .ok (items, left) ↔ ItemsStep fuel room text items left := by
  constructor
  · intro h
    cases hvalue : readValue fuel room text with
    | error failure =>
      rw [readItems, hvalue] at h
      cases h
    | ok found =>
      obtain ⟨item, rest⟩ := found
      rw [readItems_succ hvalue] at h
      split at h
      · next hrest =>
        obtain ⟨rfl, rfl⟩ := Prod.mk.inj (Except.ok.inj h)
        exact .last hvalue hrest
      · next hrest =>
        obtain ⟨⟨others, behind⟩, hmore, heq⟩ := map_eq_ok_iff.1 h
        obtain ⟨rfl, rfl⟩ := Prod.mk.inj heq
        exact .more hvalue hrest hmore
      · cases h
  · intro h
    cases h with
    | last h hrest => simp only [readItems_succ h, hrest]
    | more h hrest hmore =>
      simp only [readItems_succ h, hrest, hmore]
      rfl

/-- What is read of the object behind the value of its first member. -/
theorem readMembers_succ {name : Text} {value : Value} (hname : readString text = .ok (name, rest))
    (hcolon : skipBlanks rest = ':' :: behind)
      (h : readValue fuel room (skipBlanks behind) = .ok (value, left)) :
    readMembers (fuel + 1) room ('"' :: text) =
      match skipBlanks left with
      | '\x7d' :: left => .ok ([(name, value)], left)
      | ',' :: rest =>
        (readMembers fuel room (skipBlanks rest)).map fun (members, left) =>
          ((name, value) :: members, left)
      | rest => .error (.flaw (.ahead .expectedComma rest)) := by
  rw [readMembers, hname]
  simp only [hcolon, h, Except.mapError, bind, Except.bind]
  generalize skipBlanks left = rest
  split
  · rfl
  · simp only [Except.map, pure, Except.pure]
  · next hbrace hcomma => simp

inductive MembersStep (fuel room : Nat) : Text → List (Text × Value) → Text → Prop
  | last {name text rest behind after left : Text} {value : Value}
      (hname : readString text = .ok (name, rest)) (hcolon : skipBlanks rest = ':' :: behind)
      (h : readValue fuel room (skipBlanks behind) = .ok (value, after))
      (hafter : skipBlanks after = '\x7d' :: left) :
      MembersStep fuel room ('"' :: text) [(name, value)] left
  | more {name text rest behind after further left : Text} {value : Value}
      {members : List (Text × Value)} (hname : readString text = .ok (name, rest))
      (hcolon : skipBlanks rest = ':' :: behind)
      (h : readValue fuel room (skipBlanks behind) = .ok (value, after))
      (hafter : skipBlanks after = ',' :: further)
      (hmore : readMembers fuel room (skipBlanks further) = .ok (members, left)) :
      MembersStep fuel room ('"' :: text) ((name, value) :: members) left

theorem exists_name_of_readMembers {found : List (Text × Value) × Text}
    (h : readMembers (fuel + 1) room text = .ok found) :
    ∃ behindQuote name rest behind value left, text = '"' :: behindQuote ∧
      readString behindQuote = .ok (name, rest) ∧
      skipBlanks rest = ':' :: behind ∧
      readValue fuel room (skipBlanks behind) = .ok (value, left) := by
  unfold readMembers at h
  split at h
  · next behindQuote =>
    obtain ⟨⟨name, rest⟩, hname, h⟩ := bind_eq_ok_iff.1 h
    simp only at h
    split at h
    · next behind hcolon =>
      obtain ⟨⟨value, left⟩, hvalue, -⟩ := bind_eq_ok_iff.1 h
      exact ⟨behindQuote, name, rest, behind, value, left, rfl, mapError_eq_ok_iff.1 hname,
        hcolon, hvalue⟩
    · cases h
  · cases h

/-- One step of the reader of members, as the one of items. -/
theorem readMembers_eq_ok_iff {members : List (Text × Value)} :
    readMembers (fuel + 1) room text = .ok (members, left) ↔
      MembersStep fuel room text members left := by
  constructor
  · intro h
    obtain ⟨text, name, rest, behind, value, after, rfl, hname, hcolon, hvalue⟩ :=
      exists_name_of_readMembers h
    rw [readMembers_succ hname hcolon hvalue] at h
    split at h
    · next hafter =>
      obtain ⟨rfl, rfl⟩ := Prod.mk.inj (Except.ok.inj h)
      exact .last hname hcolon hvalue hafter
    · next hafter =>
      obtain ⟨⟨others, behind⟩, hmore, heq⟩ := map_eq_ok_iff.1 h
      obtain ⟨rfl, rfl⟩ := Prod.mk.inj heq
      exact .more hname hcolon hvalue hafter hmore
    · cases h
  · intro h
    cases h with
    | last hname hcolon h hafter => simp only [readMembers_succ hname hcolon h, hafter]
    | more hname hcolon h hafter hmore =>
      simp only [readMembers_succ hname hcolon h, hafter, hmore]
      rfl

/-! ### Going too deep

Only an opening bracket or brace that there is no room for is given up on, so whoever goes too deep
has met with one. -/

theorem mapError_flaw_ne_tooDeep {α : Type} (found : Except Flaw α) :
    (found.mapError .flaw : Except Failure α) ≠ .error .tooDeep := by
  cases found <;> simp [Except.mapError]

/-- Nesting is too deep at a bracket with no room left, or further inside. -/
theorem tooDeep_of_readValue (h : readValue (fuel + 1) room text = .error .tooDeep) :
    ∃ c rest, text = c :: rest ∧ (room = 0 ∨ ∃ fewer, room = fewer + 1 ∧
      (readItems fuel fewer (skipBlanks rest) = .error .tooDeep ∨
      readMembers fuel fewer (skipBlanks rest) = .error .tooDeep)) := by
  obtain ⟨rest, rfl⟩ | ⟨rest, rfl⟩ | ⟨rest, rfl⟩ | hhead := opener_cases text
  · rw [readValue_quote] at h
    exact absurd h (mapError_flaw_ne_tooDeep _)
  · refine ⟨_, rest, rfl, ?_⟩
    cases room with
    | zero => exact .inl rfl
    | succ room =>
      refine .inr ⟨room, rfl, .inl ?_⟩
      obtain hrest | ⟨behind, hrest⟩ := head_ne_or_exists ']' (skipBlanks rest)
      · rw [readValue_array fuel room hrest] at h
        exact map_eq_error_iff.1 h
      · rw [readValue_emptyArray fuel room hrest] at h
        cases h
  · refine ⟨_, rest, rfl, ?_⟩
    cases room with
    | zero => exact .inl rfl
    | succ room =>
      refine .inr ⟨room, rfl, .inr ?_⟩
      obtain hrest | ⟨behind, hrest⟩ := head_ne_or_exists '\x7d' (skipBlanks rest)
      · rw [readValue_object fuel room hrest] at h
        exact map_eq_error_iff.1 h
      · rw [readValue_emptyObject fuel room hrest] at h
        cases h
  · rw [readValue_atom fuel room hhead] at h
    exact absurd h (mapError_flaw_ne_tooDeep _)

theorem tooDeep_of_readItems (h : readItems (fuel + 1) room text = .error .tooDeep) :
    readValue fuel room text = .error .tooDeep ∨
      ∃ item rest behind, readValue fuel room text = .ok (item, rest) ∧
      skipBlanks rest = ',' :: behind ∧
      readItems fuel room (skipBlanks behind) = .error .tooDeep := by
  rw [readItems] at h
  obtain hvalue | ⟨⟨item, rest⟩, hvalue, h⟩ := bind_eq_error_iff.1 h
  · exact .inl hvalue
  · simp only at h
    split at h
    · cases h
    · next hrest =>
      obtain hmore | ⟨_, -, hpure⟩ := bind_eq_error_iff.1 h
      · exact .inr ⟨item, rest, _, hvalue, hrest, hmore⟩
      · cases hpure
    · cases h

theorem tooDeep_of_readMembers (h : readMembers (fuel + 1) room text = .error .tooDeep) :
    ∃ behindQuote name rest behind, text = '"' :: behindQuote ∧
      readString behindQuote = .ok (name, rest) ∧
      skipBlanks rest = ':' :: behind ∧ (readValue fuel room (skipBlanks behind) = .error .tooDeep ∨
        ∃ value after further, readValue fuel room (skipBlanks behind) = .ok (value, after) ∧
          skipBlanks after = ',' :: further ∧
          readMembers fuel room (skipBlanks further) = .error .tooDeep) := by
  unfold readMembers at h
  split at h
  · next behindQuote =>
    obtain hname | ⟨⟨name, rest⟩, hname, h⟩ := bind_eq_error_iff.1 h
    · exact absurd hname (mapError_flaw_ne_tooDeep _)
    simp only at h
    split at h
    · next behind hcolon =>
      refine ⟨behindQuote, name, rest, behind, rfl, mapError_eq_ok_iff.1 hname, hcolon, ?_⟩
      obtain hvalue | ⟨⟨value, after⟩, hvalue, h⟩ := bind_eq_error_iff.1 h
      · exact .inl hvalue
      · simp only at h
        split at h
        · cases h
        · next hafter =>
          obtain hmore | ⟨_, -, hpure⟩ := bind_eq_error_iff.1 h
          · exact .inr ⟨value, after, _, hvalue, hafter, hmore⟩
          · cases hpure
        · cases h
    · cases h
  · cases h

end LazyEmbed.Json
