import LazyEmbed.Proofs.Json.Quoting
import LazyEmbed.Proofs.Placeholder.Escaping
import LazyEmbed.Proofs.Placeholder.Names
import Mathlib.Algebra.GroupWithZero.Nat
import Mathlib.Data.List.Forall2

/-!
# When a payload is good

Attribute values hold character references, and `forSingleQuotes` leaves those alone, so a reader of
the page decodes them inside the JSON strings that were made of the values. A value can end its
string that way, and then the rest of the list is read at the wrong places. The names between the
values put it right again only if every value ends inside a string: behind a comma in quotes no name
can follow. So the payload is good exactly if every value, on its own, leads the machine back into a
string, and the strings that end within values are even in number.
-/

namespace LazyEmbed.Payload

open Html Json Json.StringList Validation

/-- What a reader of the page finds for a value between the quotes of its string. -/
def seen (value : Text) : Except Text.Oversized Text :=
  decodeReferences (forSingleQuotes (value.flatMap quoteChar))

/-- From inside a string the value leads back into a string; so many strings end in between. -/
def Returns (value : Text) (breaks : Nat) : Prop :=
  ∃ text, seen value = .ok text ∧ scan .inString text = some (.inString, breaks)

/-- What a reader of the page finds for the text closes a list of strings that stands at `place`. -/
def Closes (place : Place) (text : Text) (count : Nat) : Prop :=
  ∃ decoded, decodeReferences (forSingleQuotes text) = .ok decoded ∧
    scan place decoded = some (.closed, count)

variable {place : Place} {text rest value name : Text} {count : Nat}

def IsInert (c : Char) : Prop := c ≠ '&' ∧ escapeChar c = [c]

instance (c : Char) : Decidable (IsInert c) := inferInstanceAs (Decidable (_ ∧ _))

theorem isInert_of_ne {c : Char} (hamp : c ≠ '&') (hlt : c ≠ '<') (hgt : c ≠ '>')
    (hquote : c ≠ '\'') : IsInert c :=
  ⟨hamp, escapeChar_of_ne hlt hgt hquote⟩

/-- Inert characters pass through the escape and the decoder, so the scan just crosses them. -/
theorem closes_append_of_inert (h : ∀ c ∈ text, IsInert c) :
    Closes place (text ++ rest) count ↔
      ∃ middle first second, scan place text = some (middle, first) ∧ Closes middle rest second ∧
        count = first + second := by
  have hamp : '&' ∉ text := fun hmem => (h '&' hmem).1 rfl
  simp only [Closes, forSingleQuotes_append_of_forall h, decodeReferences_append_of_not_mem hamp,
    map_eq_ok_iff]
  constructor
  · rintro ⟨_, ⟨decoded, hdecoded, rfl⟩, hscan⟩
    obtain ⟨middle, first, second, hfirst, hsecond, hcount⟩ := scan_append_eq_some_iff.1 hscan
    exact ⟨middle, first, second, hfirst, ⟨decoded, hdecoded, hsecond⟩, hcount⟩
  · rintro ⟨middle, first, second, hfirst, ⟨decoded, hdecoded, hsecond⟩, hcount⟩
    exact ⟨_, ⟨decoded, hdecoded, rfl⟩,
      scan_append_eq_some_iff.2 ⟨middle, first, second, hfirst, hsecond, hcount⟩⟩

theorem closes_nil : Closes place [] count ↔ place = .closed ∧ count = 0 := by
  simp [Closes, scan, eq_comm]

theorem closes_singleton_append {c : Char} (h : IsInert c) :
    Closes place (c :: rest) count ↔
      ∃ middle first second, scan place [c] = some (middle, first) ∧ Closes middle rest second ∧
        count = first + second := by
  rw [← List.singleton_append, closes_append_of_inert (by simpa using h)]

theorem isBarrier_quote : IsBarrier '"' := by decide

/-- A quote is a seam: what stands before it decodes by itself. -/
theorem closes_append_quote :
    Closes place (text ++ '"' :: rest) count ↔
      ∃ decoded middle first second, decodeReferences (forSingleQuotes text) = .ok decoded ∧
        scan place decoded = some (middle, first) ∧ Closes middle ('"' :: rest) second ∧
          count = first + second := by
  simp only [Closes, forSingleQuotes_append isBarrier_quote.2,
    (isEscaped_forSingleQuotes text).decodeReferences_append]
  constructor
  · rintro ⟨_, ⟨one, other, hone, hother, rfl⟩, hscan⟩
    obtain ⟨middle, first, second, hfirst, hsecond, hcount⟩ := scan_append_eq_some_iff.1 hscan
    exact ⟨one, middle, first, second, hone, hfirst, ⟨other, hother, hsecond⟩, hcount⟩
  · rintro ⟨one, middle, first, second, hone, hfirst, ⟨other, hother, hsecond⟩, hcount⟩
    exact ⟨_, ⟨one, other, hone, hother, rfl⟩,
      scan_append_eq_some_iff.2 ⟨middle, first, second, hfirst, hsecond, hcount⟩⟩

/-! ### Names -/

theorem isInert_of_isNameChar {c : Char} (h : Attributes.isNameChar c = true) : IsInert c := by
  refine isInert_of_ne ?_ ?_ ?_ ?_ <;> (rintro rfl; exact absurd h (by decide))

theorem isInert_quoted {name : Text} (h : ∀ c ∈ name, Attributes.isNameChar c = true) :
    ∀ d ∈ name.flatMap quoteChar, IsInert d := by
  intro d hd
  obtain ⟨c, hc, hd⟩ := List.mem_flatMap.1 hd
  obtain rfl | rfl | halphanum := mem_quoteChar hd
  · exact isInert_of_isNameChar (h d hc)
  · exact isInert_of_ne (by decide) (by decide) (by decide) (by decide)
  · refine isInert_of_ne ?_ ?_ ?_ ?_ <;> (rintro rfl; exact absurd halphanum (by decide))

/-- Behind the end of a string no name can follow. -/
theorem scan_behindString_name (hne : name ≠ [])
    (h : ∀ c ∈ name, Attributes.isNameChar c = true) (rest : Text) :
    scan .behindString (name.flatMap quoteChar ++ rest) = none := by
  obtain ⟨c, others, rfl⟩ := List.exists_cons_of_ne_nil hne
  have hc := h c List.mem_cons_self
  have hstep : ∀ d, d = c ∨ d = '\\' → step .behindString d = none := by
    rintro d (rfl | rfl)
    · have hother : ∀ e, Attributes.isNameChar e = false → d ≠ e := by
        rintro e he rfl
        simp [he] at hc
      have hblank : isBlank d = false := by
        simp [isBlank, hother ' ' (by decide), hother '\t' (by decide), hother '\n' (by decide),
          hother '\r' (by decide)]
      rw [step, hblank, if_neg Bool.false_ne_true, if_neg (hother ',' (by decide)),
        if_neg (hother ']' (by decide))]
    · rfl
  obtain ⟨d, hd, hhead⟩ : ∃ d, (d = c ∨ d = '\\') ∧ (quoteChar c).head? = some d := by
    obtain hhead | hhead := head_quoteChar c
    · exact ⟨c, .inl rfl, hhead⟩
    · exact ⟨'\\', .inr rfl, hhead⟩
  obtain ⟨behind, hbehind⟩ := List.head?_eq_some_iff.1 hhead
  rw [List.flatMap_cons, hbehind, List.cons_append, List.cons_append,
    scan_cons_of_step_eq_none (hstep d hd)]

/-! ### Lists -/

def entryText (entry : Text × Text) : Text :=
  ',' :: quote entry.1 ++ ',' :: quote entry.2

def closing (entries : List (Text × Text)) : Text := entries.flatMap entryText ++ [']']

def AreNamed (entries : List (Text × Text)) : Prop :=
  ∀ entry ∈ entries, Attributes.IsName entry.1

theorem closing_cons (entry : Text × Text) (entries : List (Text × Text)) :
    closing (entry :: entries) =
      ([',', '"'] ++ entry.1.flatMap quoteChar ++ ['"', ',', '"']) ++
        (entry.2.flatMap quoteChar ++ '"' :: closing entries) := by
  simp [closing, entryText, quote]

theorem isInert_before_value {first : Char} (hfirst : IsInert first) {name : Text}
    (h : ∀ c ∈ name, Attributes.isNameChar c = true) :
    ∀ c ∈ [first, '"'] ++ name.flatMap quoteChar ++ ['"', ',', '"'], IsInert c := by
  have hquote : IsInert '"' := by decide
  have hcomma : IsInert ',' := by decide
  intro c hc
  simp only [List.mem_append, List.mem_cons, List.not_mem_nil, or_false] at hc
  rcases hc with ((rfl | rfl) | hc) | rfl | rfl | rfl
  · exact hfirst
  · exact hquote
  · exact isInert_quoted h c hc
  · exact hquote
  · exact hcomma
  · exact hquote

/-- A name opens behind the first bracket and behind a comma alike. -/
theorem scan_before_value {next : Place} {first : Char} (hplace : place ≠ .inString)
    (hfirst : step place first = some next) (hnext : step next '"' = some .inString)
    (name : Text) :
    scan place ([first, '"'] ++ name.flatMap quoteChar ++ ['"', ',', '"']) =
      some (.inString, 1) := by
  have hstring : next ≠ .inString := by
    rintro rfl
    exact absurd hnext (by decide)
  rw [List.append_assoc, List.cons_append, List.cons_append, List.nil_append,
    scan_cons_of_step next hfirst fun hquote => hplace hquote.1,
    scan_cons_of_step .inString hnext fun hquote => hstring hquote.1, scan_quote_append]
  rfl

theorem scan_before_value_inString (hne : name ≠ [])
    (h : ∀ c ∈ name, Attributes.isNameChar c = true) :
    scan .inString ([',', '"'] ++ name.flatMap quoteChar ++ ['"', ',', '"']) = none := by
  rw [List.append_assoc, List.cons_append, List.cons_append, List.nil_append,
    scan_plain (by decide) (by decide) (by decide), scan_quote, scan_behindString_name hne h]
  rfl

theorem not_closes_inString {entries : List (Text × Text)} (h : AreNamed entries) (count : Nat) :
    ¬Closes .inString (closing entries) count := by
  cases entries with
  | nil =>
    rw [show closing [] = [']'] from rfl, closes_singleton_append (by decide)]
    rintro ⟨middle, first, second, hfirst, hsecond, -⟩
    obtain ⟨rfl, -⟩ := closes_nil.1 hsecond
    change some (Place.inString, 0) = some (Place.closed, first) at hfirst
    simp at hfirst
  | cons entry entries =>
    obtain ⟨hne, hname⟩ := h entry List.mem_cons_self
    rw [closing_cons, closes_append_of_inert (isInert_before_value (by decide) hname)]
    rintro ⟨middle, first, second, hfirst, -⟩
    rw [scan_before_value_inString hne hname] at hfirst
    simp at hfirst

/-- Whatever comes of a quote inside a string that is not the string's own, no list is closed. -/
theorem not_closes_of_ne_inString {entries : List (Text × Text)} (h : AreNamed entries)
    (hplace : place ≠ .inString) (count : Nat) : ¬Closes place ('"' :: closing entries) count := by
  rw [closes_singleton_append (by decide)]
  rintro ⟨middle, first, second, hfirst, hsecond, -⟩
  -- The places where a quote may stand outside of a string all lead into one.
  have hmiddle : middle = .inString := by
    cases place with
    | inString => exact absurd rfl hplace
    | opened | escape | behindComma =>
      change some (Place.inString, 0) = some (middle, first) at hfirst
      exact (Prod.mk.inj (Option.some.inj hfirst)).1.symm
    | digits more =>
      have hstep : step (.digits more) '"' = none := by cases more <;> rfl
      simp [scan, hstep] at hfirst
    | outside | behindString | closed =>
      change none = some (middle, first) at hfirst
      simp at hfirst
  exact not_closes_inString h second (hmiddle ▸ hsecond)

/-- A value closes the list if it returns to its string and the entries behind it close theirs. -/
theorem closes_value {entries : List (Text × Text)} (h : AreNamed entries) :
    Closes .inString (value.flatMap quoteChar ++ '"' :: closing entries) count ↔
      ∃ breaks others, Returns value breaks ∧ Closes .behindString (closing entries) others ∧
        count = breaks + 1 + others := by
  rw [closes_append_quote]
  constructor
  · rintro ⟨decoded, middle, first, second, hdecoded, hfirst, hsecond, rfl⟩
    have hmiddle : middle = .inString := by
      by_contra hne
      exact not_closes_of_ne_inString h hne second hsecond
    subst hmiddle
    obtain ⟨_, _, others, hquote, hothers, rfl⟩ := (closes_singleton_append (by decide)).1 hsecond
    obtain ⟨rfl, rfl⟩ : Place.behindString = _ ∧ 1 = _ := by simpa [scan, step] using hquote
    exact ⟨first, others, ⟨decoded, hdecoded, hfirst⟩, hothers, by omega⟩
  · rintro ⟨breaks, others, ⟨decoded, hdecoded, hscan⟩, hothers, rfl⟩
    refine ⟨decoded, .inString, breaks, 1 + others, hdecoded, hscan, ?_, by omega⟩
    exact (closes_singleton_append (by decide)).2 ⟨.behindString, 1, others, rfl, hothers, rfl⟩

/-- The machine goes from the text before a value over the value to the other entries. -/
theorem closes_entry {before : Text} {entries : List (Text × Text)}
    (hinert : ∀ c ∈ before, IsInert c) (hbefore : scan place before = some (.inString, 1))
    (h : AreNamed entries) :
    Closes place (before ++ (value.flatMap quoteChar ++ '"' :: closing entries)) count ↔
      ∃ breaks others, Returns value breaks ∧ Closes .behindString (closing entries) others ∧
        count = breaks + 2 + others := by
  rw [closes_append_of_inert hinert, hbefore]
  constructor
  · rintro ⟨_, _, second, hfirst, hvalue, rfl⟩
    obtain ⟨rfl, rfl⟩ := Prod.mk.inj (Option.some.inj hfirst)
    obtain ⟨breaks, others, hreturns, hothers, rfl⟩ := (closes_value h).1 hvalue
    exact ⟨breaks, others, hreturns, hothers, by omega⟩
  · rintro ⟨breaks, others, hreturns, hothers, rfl⟩
    exact ⟨.inString, 1, _, rfl, (closes_value h).2 ⟨breaks, others, hreturns, hothers, rfl⟩,
      by omega⟩

/-- The strings of entries: two for each, and those that end within values. -/
def Counts (entries : List (Text × Text)) (count : Nat) : Prop :=
  ∃ breaks, List.Forall₂ Returns (entries.map Prod.snd) breaks ∧
    count = 2 * entries.length + breaks.sum

theorem counts_nil : Counts [] count ↔ count = 0 := by
  constructor
  · rintro ⟨breaks, hbreaks, rfl⟩
    obtain rfl := List.forall₂_nil_left_iff.1 hbreaks
    rfl
  · rintro rfl
    exact ⟨[], .nil, rfl⟩

/-- The count of strings is made up entry by entry. -/
theorem counts_cons {entry : Text × Text} {entries : List (Text × Text)} :
    Counts (entry :: entries) count ↔
      ∃ breaks others, Returns entry.2 breaks ∧ Counts entries others ∧
        count = breaks + 2 + others := by
  constructor
  · rintro ⟨_, hall, rfl⟩
    obtain ⟨breaks, more, hreturns, hmore, rfl⟩ := List.forall₂_cons_left_iff.1 hall
    refine ⟨breaks, _, hreturns, ⟨more, hmore, rfl⟩, ?_⟩
    simp only [List.length_cons, List.sum_cons]
    omega
  · rintro ⟨breaks, _, hreturns, ⟨more, hmore, rfl⟩, rfl⟩
    refine ⟨breaks :: more, .cons hreturns hmore, ?_⟩
    simp only [List.length_cons, List.sum_cons]
    omega

/-- Where no string is begun, the list has no entries. -/
theorem closes_end (hinert : ∀ c ∈ text, IsInert c) (hscan : scan place text = some (.closed, 0)) :
    Closes place text count ↔ Counts [] count := by
  rw [← List.append_nil text, closes_append_of_inert hinert, hscan, counts_nil]
  constructor
  · rintro ⟨middle, first, second, hfirst, hsecond, rfl⟩
    obtain ⟨rfl, rfl⟩ := closes_nil.1 hsecond
    exact (Prod.mk.inj (Option.some.inj hfirst)).2.symm
  · rintro rfl
    exact ⟨.closed, 0, 0, rfl, closes_nil.2 ⟨rfl, rfl⟩, rfl⟩

theorem closes_closing {entries : List (Text × Text)} (h : AreNamed entries) :
    Closes .behindString (closing entries) count ↔ Counts entries count := by
  induction entries generalizing count with
  | nil => exact closes_end (by decide) rfl
  | cons entry entries ih =>
    obtain ⟨⟨-, hname⟩, hothers⟩ := List.forall_mem_cons.1 h
    rw [closing_cons, closes_entry (isInert_before_value (by decide) hname)
      (scan_before_value (by decide) rfl rfl _) hothers, counts_cons]
    simp only [ih hothers]

theorem quoteList_cons (entry : Text × Text) (entries : List (Text × Text)) :
    quoteList ((entry :: entries).flatMap fun (name, value) => [name, value]) =
      (['[', '"'] ++ entry.1.flatMap quoteChar ++ ['"', ',', '"']) ++
        (entry.2.flatMap quoteChar ++ '"' :: closing entries) := by
  have hothers :
      ((entries.flatMap fun (name, value) => [name, value]).map quote).flatMap ([','] ++ ·) =
        entries.flatMap entryText := by
    induction entries with
    | nil => rfl
    | cons other entries ih =>
      simp only [List.flatMap_cons, List.map_append, List.flatMap_append] at ih ⊢
      rw [ih]
      simp [entryText]
  rw [quoteList, List.flatMap_cons, List.cons_append, List.cons_append, List.nil_append,
    List.map_cons, Text.intercalate_cons, List.map_cons, List.flatMap_cons, hothers]
  simp [quote, closing]

/-- The whole payload closes exactly when its entries count. -/
theorem closes_list {entries : List (Text × Text)} (h : AreNamed entries) :
    Closes .outside (quoteList (entries.flatMap fun (name, value) => [name, value])) count ↔
      Counts entries count := by
  cases entries with
  | nil =>
    have hinert : ∀ c ∈ ['[', ']'], IsInert c := by decide
    exact closes_end hinert rfl
  | cons entry entries =>
    obtain ⟨⟨-, hname⟩, hothers⟩ := List.forall_mem_cons.1 h
    rw [quoteList_cons, closes_entry (isInert_before_value (by decide) hname)
      (scan_before_value (by decide) rfl rfl _) hothers, counts_cons]
    simp only [closes_closing hothers]

theorem returns_of_not_mem (h : '&' ∉ value) : Returns value 0 := by
  have hquoted : '&' ∉ value.flatMap quoteChar := by
    intro hmem
    obtain ⟨c, hc, hmem⟩ := List.mem_flatMap.1 hmem
    obtain rfl | hbackslash | halphanum := mem_quoteChar hmem
    · exact h hc
    · exact absurd hbackslash (by decide)
    · exact absurd halphanum (by decide)
  refine ⟨value.flatMap quoteChar, decodeReferences_forSingleQuotes hquoted, ?_⟩
  have hscan := scan_flatMap_quoteChar value []
  rwa [List.append_nil] at hscan

def kept (attributes : Attributes) : List (Text × Text) :=
  attributes.entries.filter fun (name, _) => isKept name

/-- The check accepts a payload exactly when every value returns to its string and the breaks are
even. -/
theorem accepted_iff {attributes : Attributes} (h : AreNamed (kept attributes)) :
    (∃ decoded, decodeReferences (render attributes) = .ok decoded ∧
        payloadProblem? decoded = .ok none) ↔
      ∃ breaks, List.Forall₂ Returns ((kept attributes).map Prod.snd) breaks ∧ Even breaks.sum := by
  have hlist : ∀ count, Closes .outside (quoteList (items attributes)) count ↔
      Counts (kept attributes) count := fun count => closes_list h
  simp only [payloadProblem?_eq_none_iff]
  constructor
  · rintro ⟨decoded, hdecoded, count, hscan, heven⟩
    obtain ⟨breaks, hbreaks, rfl⟩ := (hlist count).1 ⟨decoded, hdecoded, hscan⟩
    rw [Nat.even_iff] at heven
    exact ⟨breaks, hbreaks, Nat.even_iff.2 (by omega)⟩
  · rintro ⟨breaks, hbreaks, heven⟩
    obtain ⟨decoded, hdecoded, hscan⟩ := (hlist _).2 ⟨breaks, hbreaks, rfl⟩
    rw [Nat.even_iff] at heven
    exact ⟨decoded, hdecoded, _, hscan, Nat.even_iff.2 (by omega)⟩

end LazyEmbed.Payload

namespace LazyEmbed.Placeholder

open Html Validation

theorem areNamed_kept (frame : Text) : Payload.AreNamed (Payload.kept (attributesOf frame)) :=
  fun _ hentry => isName_of_mem_attributesOf frame _
    (List.mem_map_of_mem (List.mem_filter.1 hentry).1)

/-- The payload of a placeholder is good exactly if every value that it lists returns to its string,
and the strings that end within values are even in number. -/
theorem good_payload_iff (frame : Text) :
    ∃ payload, ofFrame frame =
        "<span" ++ renderAttributes (attributesOf frame) ++ " " ++ Payload.attributeName ++ "='"
          ++ payload ++ "'></span>" ∧
      '\'' ∉ payload ∧
      ((∃ decoded, decodeReferences payload = .ok decoded ∧ payloadProblem? decoded = .ok none) ↔
        ∃ breaks,
          List.Forall₂ Payload.Returns ((Payload.kept (attributesOf frame)).map Prod.snd) breaks ∧
            Even breaks.sum) :=
  ⟨Payload.render (attributesOf frame), rfl, Payload.not_mem_forSingleQuotes _,
    Payload.accepted_iff (areNamed_kept frame)⟩

theorem good_payload_of_no_ampersand (frame : Text)
    (h : ∀ entry ∈ Payload.kept (attributesOf frame), '&' ∉ entry.2) :
    ∃ decoded, decodeReferences (Payload.render (attributesOf frame)) = .ok decoded ∧
      payloadProblem? decoded = .ok none := by
  refine (Payload.accepted_iff (areNamed_kept frame)).2
    ⟨(Payload.kept (attributesOf frame)).map fun _ => 0, ?_, ?_⟩
  · rw [List.forall₂_map_left_iff, List.forall₂_map_right_iff, List.forall₂_same]
    exact fun entry hentry => Payload.returns_of_not_mem (h entry hentry)
  · simp

/-- A reference that stands for a quote ends the string of its value. -/
theorem bad_payload_of_quote_reference :
    ¬∃ decoded, decodeReferences (Payload.render (attributesOf
        "<iframe data-s9e-mediaembed=\"x\" title=\"a&quot;b\"></iframe>")) = .ok decoded ∧
      payloadProblem? decoded = .ok none := by
  have hdecoded : decodeReferences (Payload.render (attributesOf
      "<iframe data-s9e-mediaembed=\"x\" title=\"a&quot;b\"></iframe>")) =
        .ok "[\"data-s9e-mediaembed\",\"x\",\"title\",\"a\"b\"]" := by
    rw [String.toList_ofList, String.toList_ofList]
    decide +kernel
  rintro ⟨decoded, hok, hproblem⟩
  rw [hdecoded] at hok
  obtain rfl := Except.ok.inj hok
  obtain ⟨count, hscan, -⟩ := payloadProblem?_eq_none_iff.1 hproblem
  have hnone : Json.StringList.scan .outside
      "[\"data-s9e-mediaembed\",\"x\",\"title\",\"a\"b\"]" = none := by
    rw [String.toList_ofList]
    decide
  rw [hnone] at hscan
  simp at hscan

end LazyEmbed.Placeholder
