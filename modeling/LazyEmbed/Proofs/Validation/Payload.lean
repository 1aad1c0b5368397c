import LazyEmbed.Proofs.Json.Document
import LazyEmbed.Proofs.Json.StringList

/-!
# What is reported of a payload

A good payload is written flat: strings between commas, an even number of them, and blanks wherever
there is no string. The reader does not look for that. It reads whatever is JSON, and only the value
is judged; the first of three tests that the value fails makes the report. Both come to the same,
for among the documents the flat ones are just those whose value is an array of strings.
-/

namespace LazyEmbed.Validation

open Json

variable {text payload literal blanks : Text} {content : Text} {maxDepth : Nat}

def IsEntry (text : Text) : Prop :=
  ∃ before content literal after, IsBlanks before ∧ IsString content literal ∧ IsBlanks after ∧
    text = before ++ (literal ++ after)

/-- A list of so many strings, between blanks. -/
inductive IsFlat : Nat → Text → Prop
  | none {before inside after : Text} (hbefore : IsBlanks before) (hinside : IsBlanks inside)
      (hafter : IsBlanks after) : IsFlat 0 (before ++ '[' :: (inside ++ ']' :: after))
  | some {before after : Text} {entries : List Text} (hbefore : IsBlanks before)
      (hne : entries ≠ []) (hentries : ∀ entry ∈ entries, IsEntry entry) (hafter : IsBlanks after) :
      IsFlat entries.length (before ++ '[' :: ([','].intercalate entries ++ ']' :: after))

theorem isString_of_isJson (h : IsJson (.value (.string content)) literal) :
    IsString content literal := by
  cases h with
  | atom h =>
    cases h with
    | word h => simp [words] at h
  | string h => exact h

/-- The items of an array of strings, with the blanks in front of them, are entries between
commas. -/
theorem exists_entries {contents : List Text} (hblanks : IsBlanks blanks)
    (h : IsJson (.items (contents.map .string)) text) :
    ∃ entries : List Text, entries ≠ [] ∧ entries.length = contents.length ∧
      (∀ entry ∈ entries, IsEntry entry) ∧ blanks ++ text = [','].intercalate entries ++ [']'] := by
  induction contents generalizing blanks text with
  | nil => cases h
  | cons content contents ih =>
    rw [List.map_cons] at h
    generalize hitems : contents.map Value.string = items at h
    cases h with
    | @lastItem _ literal after hitem hafter =>
      obtain rfl := List.map_eq_nil_iff.1 hitems
      refine ⟨[blanks ++ (literal ++ after)], List.cons_ne_nil _ _, rfl, ?_, by simp⟩
      intro entry hentry
      obtain rfl := List.mem_singleton.1 hentry
      exact ⟨blanks, content, literal, after, hblanks, isString_of_isJson hitem, hafter, rfl⟩
    | @item _ _ literal before after more hitem hbefore hafter hmore =>
      obtain ⟨entries, hne, hlength, hentries, heq⟩ := ih hafter (hitems ▸ hmore)
      refine ⟨(blanks ++ (literal ++ before)) :: entries,
        List.cons_ne_nil _ _, by simp [hlength], ?_, ?_⟩
      · intro entry hentry
        obtain rfl | hentry := List.mem_cons.1 hentry
        · exact ⟨blanks, content, literal, before, hblanks, isString_of_isJson hitem, hbefore, rfl⟩
        · exact hentries entry hentry
      · rw [heq, List.intercalate_cons_of_ne_nil hne]
        simp

theorem exists_items {entries : List Text} (hne : entries ≠ [])
    (h : ∀ entry ∈ entries, IsEntry entry) :
    ∃ (contents : List Text) (blanks inside : Text), contents.length = entries.length ∧
      IsBlanks blanks ∧ IsJson (.items (contents.map .string)) inside ∧
      [','].intercalate entries ++ [']'] = blanks ++ inside := by
  induction entries with
  | nil => exact absurd rfl hne
  | cons entry entries ih =>
    obtain ⟨before, content, literal, after, hbefore, hstring, hafter, rfl⟩ :=
      h entry List.mem_cons_self
    by_cases hlast : entries = []
    · subst hlast
      refine ⟨[content], before, literal ++ (after ++ [']']), rfl, hbefore,
        .lastItem (.string hstring) hafter, ?_⟩
      rw [List.intercalate_singleton]
      simp only [List.append_assoc]
    · obtain ⟨contents, blanks, inside, hlength, hblanks, hinside, heq⟩ :=
        ih hlast fun other hother => h other (List.mem_cons_of_mem _ hother)
      refine ⟨content :: contents, before, literal ++ (after ++ ',' :: (blanks ++ inside)), by
        simp [hlength], hbefore, .item (.string hstring) hafter hblanks hinside, ?_⟩
      rw [List.intercalate_cons_of_ne_nil hlast, ← heq]
      simp only [List.append_assoc, List.cons_append, List.nil_append]

/-- A flat payload is a document whose value is an array of strings. -/
theorem isFlat_iff {count : Nat} :
    IsFlat count payload ↔ ∃ contents : List Text, contents.length = count ∧
      IsDocument (.array (contents.map .string)) payload := by
  constructor
  · rintro (⟨hbefore, hinside, hafter⟩ | ⟨hbefore, hne, hentries, hafter⟩)
    · exact ⟨[], rfl, _, _, _, hbefore, .emptyArray hinside, hafter, by simp⟩
    · obtain ⟨contents, blanks, inside, hlength, hblanks, hinside, heq⟩ := exists_items hne hentries
      refine ⟨contents, hlength, _, _, _, hbefore, .array hblanks hinside, hafter, ?_⟩
      rw [← heq]
      simp
  · rintro ⟨contents, rfl, before, literal, after, hbefore, h, hafter, rfl⟩
    generalize hitems : contents.map Value.string = items at h
    cases h with
    | atom h =>
      cases h with
      | word h => simp [words] at h
    | emptyArray hblanks =>
      obtain rfl := List.map_eq_nil_iff.1 hitems
      simpa using IsFlat.none hbefore hblanks hafter
    | array hblanks h =>
      obtain ⟨entries, hne, hlength, hentries, heq⟩ := exists_entries hblanks (hitems ▸ h)
      rw [← hlength, heq]
      simpa using IsFlat.some hbefore hne hentries hafter

/-! ### The report -/

def report (maxDepth : Nat) (payload : Text) : Except PayloadFault (Option Text) :=
  (payloadProblemWithin? maxDepth payload).map fun problem => problem.map (·.message payload)

theorem report_of_isDocument {value : Value} (hdepth : payload.length ≤ maxDepth)
    (h : IsDocument value payload) :
    report maxDepth payload = .ok ((valueProblem? value).map (·.message payload)) := by
  rw [report, payloadProblemWithin?, (readWithin_eq_ok_iff hdepth).2 h]
  rfl

/-- A text that is no document is reported with the flaw of the reader. -/
theorem report_of_no_document (hdepth : payload.length ≤ maxDepth)
    (h : ∀ value, ¬IsDocument value payload) :
    ∃ flaw, readWithin maxDepth payload = .error (.flaw flaw) ∧
      report maxDepth payload = .ok (some ("Invalid JSON payload: " ++ flaw.message payload)) := by
  cases hread : readWithin maxDepth payload with
  | ok value => exact absurd ((readWithin_eq_ok_iff hdepth).1 hread) (h value)
  | error failure =>
    cases failure with
    | flaw flaw =>
      refine ⟨flaw, rfl, ?_⟩
      rw [report, payloadProblemWithin?, hread]
      rfl
    | tooDeep => exact absurd hread (readWithin_ne_tooDeep hdepth)

theorem all_strings_iff {items : List Value} :
    (items.all fun item => item.text?.isSome) = true ↔
      ∃ contents : List Text, items = contents.map .string := by
  constructor
  · intro h
    induction items with
    | nil => exact ⟨[], rfl⟩
    | cons item items ih =>
      rw [List.all_cons, Bool.and_eq_true] at h
      obtain ⟨contents, rfl⟩ := ih h.2
      cases item with
      | string content => exact ⟨content :: contents, rfl⟩
      | null | bool _ | number _ | array _ | object _ => cases h.1
  · rintro ⟨contents, rfl⟩
    simp [Value.text?]

/-- Nothing is reported exactly for flat lists of an even number of strings. -/
theorem report_eq_none_iff (hdepth : payload.length ≤ maxDepth) :
    report maxDepth payload = .ok none ↔ ∃ count, Even count ∧ IsFlat count payload := by
  simp only [isFlat_iff]
  constructor
  · intro h
    by_cases hdocument : ∃ value, IsDocument value payload
    · obtain ⟨value, hvalue⟩ := hdocument
      rw [report_of_isDocument hdepth hvalue, Except.ok.injEq, Option.map_eq_none_iff,
        valueProblem?_eq_none_iff] at h
      obtain ⟨items, rfl, hstrings, heven⟩ := h
      obtain ⟨contents, rfl⟩ := all_strings_iff.1 hstrings
      rw [List.length_map] at heven
      exact ⟨_, heven, contents, rfl, hvalue⟩
    · obtain ⟨flaw, -, hreport⟩ := report_of_no_document hdepth (not_exists.1 hdocument)
      rw [hreport] at h
      cases h
  · rintro ⟨_, heven, contents, rfl, hvalue⟩
    rw [report_of_isDocument hdepth hvalue, valueProblem?_eq_none_iff.2]
    · rfl
    · exact ⟨_, rfl, all_strings_iff.2 ⟨contents, rfl⟩, by rwa [List.length_map]⟩

/-- Where the depth is no bound, every payload is reported on: just the flat ones with an even
number of strings are good, other documents fail the first test that their value fails, and of what
is no document the flaw is told. -/
theorem report_cases (maxDepth : Nat) (payload : Text) (hdepth : payload.length ≤ maxDepth) :
    (report maxDepth payload = .ok none ↔ ∃ count, Even count ∧ IsFlat count payload) ∧
      (∀ value, IsDocument value payload → (∀ items, value ≠ .array items) →
        report maxDepth payload = .ok (some "Payload is not a list")) ∧
      (∀ items, IsDocument (.array items) payload → ¬Even items.length →
        report maxDepth payload = .ok (some "Payload has an odd number of entries")) ∧
      (∀ items, IsDocument (.array items) payload → Even items.length →
        (∃ item ∈ items, ∀ content, item ≠ .string content) →
        report maxDepth payload = .ok (some "Payload contains non-string entries")) ∧
      ((∀ value, ¬IsDocument value payload) →
        ∃ flaw, readWithin maxDepth payload = .error (.flaw flaw) ∧
          report maxDepth payload =
            .ok (some ("Invalid JSON payload: " ++ flaw.message payload))) := by
  refine ⟨report_eq_none_iff hdepth, ?notList, ?oddCount, ?notStrings, report_of_no_document hdepth⟩
  case notList =>
    intro value hvalue hkind
    rw [report_of_isDocument hdepth hvalue]
    cases value with
    | array items => exact absurd rfl (hkind items)
    | null | bool _ | number _ | string _ | object _ => rfl
  case oddCount =>
    intro items hvalue hodd
    rw [Nat.even_iff] at hodd
    rw [report_of_isDocument hdepth hvalue, valueProblem?, if_pos hodd]
    rfl
  case notStrings =>
    rintro items hvalue heven ⟨item, hitem, hother⟩
    have hstrings : ¬(items.all fun item => item.text?.isSome) = true := by
      rw [all_strings_iff]
      rintro ⟨contents, rfl⟩
      obtain ⟨content, -, rfl⟩ := List.mem_map.1 hitem
      exact hother content rfl
    rw [Nat.even_iff] at heven
    rw [report_of_isDocument hdepth hvalue, valueProblem?, if_neg (not_not.2 heven),
      if_neg hstrings]
    rfl

theorem report_pair :
    ("[\"a\",\"b\"]" : Text).length ≤ 9 ∧ ∃ count, Even count ∧ IsFlat count "[\"a\",\"b\"]" := by
  have hgood : payloadProblemWithin? 9 "[\"a\",\"b\"]" = .ok none :=
    payloadProblemWithin?_eq_none_iff.2 ⟨2, by decide, by decide⟩
  have hreport : report 9 "[\"a\",\"b\"]" = .ok none := by
    rw [report, hgood]
    rfl
  exact ⟨by decide, (report_cases 9 "[\"a\",\"b\"]" (by decide)).1.1 hreport⟩

end LazyEmbed.Validation
