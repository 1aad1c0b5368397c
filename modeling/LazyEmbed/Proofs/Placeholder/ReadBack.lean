import LazyEmbed.Placeholder.Element
import LazyEmbed.Proofs.Html.Escaped
import LazyEmbed.Proofs.Html.QuotedTag
import LazyEmbed.Proofs.Json.RoundTrip
import LazyEmbed.Proofs.Placeholder.Escaping
import Mathlib.Data.List.Forall2
import Mathlib.Data.List.Infix

/-!
# A placeholder is read back

A value between double quotes comes back from its references; the payload is a list of strings,
which holds an ampersand only where one of the strings does. Neither holds the quote that it stands
between. So a reader of start tags finds in a placeholder the attributes that it was made of, and
behind its tag the end tag.
-/

namespace LazyEmbed.Json

/-- A character that stands in what is written only where it stands in one of the texts. -/
def IsForeign (d : Char) : Prop := d ∉ ['"', '\\', '[', ']', ','] ∧ d.isAlphanum = false

instance (d : Char) : Decidable (IsForeign d) := inferInstanceAs (Decidable (_ ∧ _))

theorem not_mem_quote {d : Char} {text : Text} (hd : IsForeign d) (h : d ∉ text) :
    d ∉ quote text := by
  obtain ⟨hmarks, halphanum⟩ := hd
  simp only [List.mem_cons, List.not_mem_nil, or_false, not_or] at hmarks
  intro hmem
  simp only [quote, List.append_assoc, List.mem_append, List.mem_flatMap] at hmem
  rcases hmem with hmem | ⟨c, hc, hmem⟩ | hmem
  · exact hmarks.1 (List.mem_singleton.1 hmem)
  · obtain rfl | hmem | hmem := mem_quoteChar hmem
    · exact h hc
    · exact hmarks.2.1 hmem
    · rw [halphanum] at hmem
      cases hmem
  · exact hmarks.1 (List.mem_singleton.1 hmem)

/-- A list is quoted without characters that neither its texts nor the notation have. -/
theorem not_mem_quoteList {d : Char} {texts : List Text} (hd : IsForeign d)
    (h : ∀ text ∈ texts, d ∉ text) : d ∉ quoteList texts := by
  have hmarks := hd.1
  simp only [List.mem_cons, List.not_mem_nil, or_false, not_or] at hmarks
  intro hmem
  cases texts with
  | nil =>
    rcases List.mem_append.1 hmem with hmem | hmem
    · exact hmarks.2.2.1 (List.mem_singleton.1 hmem)
    · exact hmarks.2.2.2.1 (List.mem_singleton.1 hmem)
  | cons text texts =>
    obtain ⟨htext, htexts⟩ := List.forall_mem_cons.1 h
    rw [quoteList, intercalate_quote, others] at hmem
    simp only [List.append_assoc, List.mem_append, List.mem_flatMap, List.mem_cons] at hmem
    rcases hmem with hmem | hmem | ⟨text, hother, hmem | hmem⟩ | hmem
    · exact hmarks.2.2.1 (List.mem_singleton.1 hmem)
    · exact not_mem_quote hd htext hmem
    · exact hmarks.2.2.2.2 hmem
    · exact not_mem_quote hd (htexts text hother) hmem
    · exact hmarks.2.2.2.1 (List.mem_singleton.1 hmem)

end LazyEmbed.Json

namespace LazyEmbed.Payload

theorem isKept_iff {name : Text} : isKept name = true ↔ ¬("c2l" : Text) <:+: name := by
  rw [isKept, Bool.not_eq_true', ← Bool.not_eq_true, Text.contains_iff]

/-- The payload lists names and values of the entries without `c2l` in their names, in turn. -/
theorem map_items (attributes : Attributes) :
    (items attributes).map Json.Value.string =
      (attributes.entries.filter fun entry => ¬("c2l" : Text) <:+: entry.1).flatMap fun entry =>
        [.string entry.1, .string entry.2] := by
  rw [items, List.map_flatMap]
  refine congrArg (List.flatMap _) (List.filter_congr fun entry _ => ?_)
  exact Bool.eq_iff_iff.2 (isKept_iff.trans decide_eq_true_iff.symm)

/-- Without ampersands in what is kept, the value of the payload decodes to the list. -/
theorem decodeReferences_render {attributes : Attributes}
    (h : ∀ entry ∈ attributes.entries, isKept entry.1 = true → '&' ∉ entry.1 ∧ '&' ∉ entry.2) :
    Html.decodeReferences (render attributes) = .ok (Json.quoteList (items attributes)) := by
  refine decodeReferences_forSingleQuotes (Json.not_mem_quoteList (by decide) fun text htext => ?_)
  obtain ⟨entry, hentry, htext⟩ := List.mem_flatMap.1 htext
  obtain ⟨hmem, hkept⟩ := List.mem_filter.1 hentry
  obtain ⟨hname, hvalue⟩ := h entry hmem hkept
  simp only [List.mem_cons, List.not_mem_nil, or_false] at htext
  rcases htext with rfl | rfl
  · exact hname
  · exact hvalue

end LazyEmbed.Payload

namespace LazyEmbed.Placeholder

open Html

variable (attributes : Attributes)

/-- The attributes that a placeholder takes over, with their values. -/
def taken : List (Text × Text) :=
  attributeNames.filterMap fun name => (attributes.get? name).map fun value => (name, value)

def doubleQuoted (entry : Text × Text) : QuotedAttribute :=
  ⟨entry.1, '"', forDoubleQuotes entry.2⟩

def payloadAttribute : QuotedAttribute :=
  ⟨Payload.attributeName, '\'', Payload.render attributes⟩

def allAttributes : List QuotedAttribute :=
  (taken attributes).map doubleQuoted ++ [payloadAttribute attributes]

theorem name_mem_of_mem_taken {entry : Text × Text} (h : entry ∈ taken attributes) :
    entry.1 ∈ attributeNames := by
  obtain ⟨name, hname, hentry⟩ := List.mem_filterMap.1 h
  obtain ⟨value, -, rfl⟩ := Option.map_eq_some_iff.1 hentry
  exact hname

theorem wellFormed_allAttributes : ∀ entry ∈ allAttributes attributes, entry.WellFormed := by
  have hnames : ∀ name ∈ Payload.attributeName :: attributeNames, name ≠ [] ∧
      ∀ c ∈ name, (Text.isBlank c || c = '/' || c = '=' || c = '>') = false := by
    simp only [attributeNames, List.forall_mem_cons]
    dsimp only [Payload.attributeName, markName, ClickToLoad.siteName, ClickToLoad.backgroundName,
      ClickToLoad.mediaName]
    repeat rw [String.toList_ofList]
    decide +kernel
  obtain ⟨hpayload, htaken⟩ := List.forall_mem_cons.1 hnames
  intro entry hentry
  rcases List.mem_append.1 hentry with hentry | hentry
  · obtain ⟨entry, hmem, rfl⟩ := List.mem_map.1 hentry
    obtain ⟨hne, hchar⟩ := htaken _ (name_mem_of_mem_taken attributes hmem)
    have hquote : '"' ∉ Html.forDoubleQuotes entry.2 := Html.not_mem_forDoubleQuotes (by decide) _
    exact ⟨hne, hchar, .inl rfl, hquote⟩
  · obtain rfl := List.mem_singleton.1 hentry
    exact ⟨hpayload.1, hpayload.2, .inr rfl, Payload.not_mem_forSingleQuotes _⟩

theorem renderAttributes_eq :
    renderAttributes attributes = quotedTexts ((taken attributes).map doubleQuoted) := by
  unfold renderAttributes taken quotedTexts
  induction attributeNames with
  | nil => rfl
  | cons name names ih =>
    rw [List.flatMap_cons, ih]
    cases hget : attributes.get? name with
    | none => simp [hget]
    | some value => simp [hget, doubleQuoted, QuotedAttribute.text, renderAttribute]

/-- A placeholder is a span with its attributes in double quotes, or in single quotes for the list.
-/
theorem render_eq : render attributes =
    '<' :: ("span" ++ (quotedTexts (allAttributes attributes) ++ '>' :: "</span>")) := by
  have hall : quotedTexts (allAttributes attributes) = renderAttributes attributes ++
      ' ' :: (Payload.attributeName ++ '=' :: '\'' :: (Payload.render attributes ++ ['\''])) := by
    rw [allAttributes, renderAttributes_eq, quotedTexts, List.flatMap_append,
      List.flatMap_singleton]
    rfl
  have hopen : ("<span" : Text) = '<' :: "span" := rfl
  have hblank : (" " : Text) = [' '] := rfl
  have hequals : ("='" : Text) = ['=', '\''] := rfl
  have hclose : ("'></span>" : Text) = '\'' :: '>' :: "</span>" := rfl
  unfold render
  rw [hall, hopen, hblank, hequals, hclose]
  simp only [List.append_assoc, List.cons_append, List.nil_append]

/-- A placeholder is an empty element. Its attributes decode to those taken over, and the last one,
if nothing listed in it has an ampersand, to a flat list of the names and values of the frame, less
those with `c2l` in the name. -/
theorem exists_run_render :
    ∃ rest written payload,
      render attributes = '<' :: rest ∧
      RawTag.reader.run rest =
        some (⟨"span", written ++ [(Payload.attributeName, some payload)], .opened⟩,
          ("</span>" : Text)) ∧
      List.Forall₂ (fun (found : Text × Option Text) (entry : Text × Text) => found.1 = entry.1 ∧
        ∃ value, found.2 = some value ∧ decodeReferences value = .ok entry.2)
        written (taken attributes) ∧
      ((∀ entry ∈ attributes.entries, ¬("c2l" : Text) <:+: entry.1 →
          '&' ∉ entry.1 ∧ '&' ∉ entry.2) →
        ∃ decoded, decodeReferences payload = .ok decoded ∧
          Json.read decoded = .ok (.array
            ((attributes.entries.filter fun entry => ¬("c2l" : Text) <:+: entry.1).flatMap
              fun entry => [.string entry.1, .string entry.2]))) := by
  have hname : RawTag.IsTagName "span" := ⟨'s', "pan", rfl, by decide, by decide⟩
  have hrun := RawTag.run_reader hname (wellFormed_allAttributes attributes) "</span>"
  rw [allAttributes, List.map_append, List.map_map] at hrun
  refine ⟨_, _, _, render_eq attributes, hrun, ?_, fun h => ?_⟩
  · rw [List.forall₂_map_left_iff, List.forall₂_same]
    exact fun entry _ => ⟨rfl, _, rfl, decodeReferences_forDoubleQuotes entry.2⟩
  · have hclear := Payload.decodeReferences_render fun entry hentry hkept =>
      h entry hentry (Payload.isKept_iff.1 hkept)
    rw [← Payload.map_items]
    exact ⟨_, hclear, Json.readWithin_quoteList _ _⟩

/-- Quotes of either kind come back from the payload, and what the placeholder has for itself is not
in it. -/
theorem exists_run_render_quotes :
    ∃ rest mark site payload decoded,
      render (.ofPairs [("data-s9e-mediaembed", "x"), ("data-s9e-mediaembed-c2l", "s"),
        ("title", "\"it's\"")]) = '<' :: rest ∧
      RawTag.reader.run rest =
        some (⟨"span", [("data-s9e-mediaembed", some mark), ("data-s9e-mediaembed-c2l", some site),
          (Payload.attributeName, some payload)], .opened⟩, ("</span>" : Text)) ∧
      decodeReferences mark = .ok "x" ∧ decodeReferences site = .ok "s" ∧
      decodeReferences payload = .ok decoded ∧
      Json.read decoded = .ok (.array [.string "data-s9e-mediaembed", .string "x",
        .string "title", .string "\"it's\""]) := by
  obtain ⟨rest, written, payload, hrender, hrun, htaken, hback⟩ :=
    exists_run_render (.ofPairs [("data-s9e-mediaembed", "x"), ("data-s9e-mediaembed-c2l", "s"),
      ("title", "\"it's\"")])
  have hboth : taken (.ofPairs [("data-s9e-mediaembed", "x"), ("data-s9e-mediaembed-c2l", "s"),
      ("title", "\"it's\"")]) =
        ([("data-s9e-mediaembed", "x"), ("data-s9e-mediaembed-c2l", "s")] :
          List (Text × Text)) := by
    decide +kernel
  have hkept : (Keyed.ofPairs [("data-s9e-mediaembed", "x"), ("data-s9e-mediaembed-c2l", "s"),
      ("title", "\"it's\"")] : Attributes).entries.filter
        (fun entry => ¬("c2l" : Text) <:+: entry.1) =
      ([("data-s9e-mediaembed", "x"), ("title", "\"it's\"")] : List (Text × Text)) := by
    decide +kernel
  rw [hboth] at htaken
  rw [hkept] at hback
  obtain ⟨decoded, hdecoded, hread⟩ := hback (by decide +kernel)
  obtain ⟨⟨_, _⟩, others, ⟨rfl, mark, rfl, hmark⟩, hothers, rfl⟩ :=
    List.forall₂_cons_right_iff.1 htaken
  obtain ⟨⟨_, _⟩, none, ⟨rfl, site, rfl, hsite⟩, hnone, rfl⟩ :=
    List.forall₂_cons_right_iff.1 hothers
  obtain rfl := List.forall₂_nil_right_iff.1 hnone
  exact ⟨rest, mark, site, payload, decoded, hrender, hrun, hmark, hsite, hdecoded, hread⟩

end LazyEmbed.Placeholder
