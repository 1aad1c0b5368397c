import LazyEmbed.Placeholder.Element
import LazyEmbed.Proofs.Html.Escaped
import LazyEmbed.Proofs.Json.RoundTrip
import LazyEmbed.Proofs.Placeholder.Escaping
import LazyEmbed.Proofs.Placeholder.Reading
import LazyEmbed.Proofs.Placeholder.Style
import LazyEmbed.Proofs.Text.Respelling
import LazyEmbed.Title.Tag

/-!
# Placeholders without titles

A placeholder says nothing that its frame does not say, but it spells it anew, and a style loses its
background. So it has a title attribute only if the name of one is in the frame, or is put together
where a background goes. The latter takes a background behind a hyphen.
-/

namespace LazyEmbed

open Title (attributeName)

variable {text rest value : Text}

/-! ### Names of title attributes behind blanks -/

/-- Behind no blank there is the name of a title attribute. -/
def Untold (text : Text) : Prop := ∀ c, Text.isBlank c = true → ¬c :: attributeName <:+: text

theorem untold_of_not_isInfix (h : ¬attributeName <:+: text) : Untold text :=
  fun c _ hbegun => h ((List.suffix_cons c _).isInfix.trans hbegun)

theorem not_mem_attributeName {c : Char} (h : Attributes.isNameChar c = false) :
    c ∉ attributeName :=
  Placeholder.isName_titleName.not_mem h

theorem untold_of_length_le (h : text.length ≤ attributeName.length) : Untold text := by
  intro c _ hbegun
  have hlength := hbegun.length_le
  rw [List.length_cons] at hlength
  omega

theorem Untold.of_isInfix (h : Untold text) (hpart : rest <:+: text) : Untold rest :=
  fun c hblank hbegun => h c hblank (hbegun.trans hpart)

/-- A text goes on with another one that begins with no character of the name. -/
theorem Untold.append (htext : Untold text) (hrest : Untold rest)
    (hhead : ∀ c ∈ rest.head?, c ∉ attributeName) : Untold (text ++ rest) := by
  intro c hblank
  refine Text.Misses.not_isInfix ?_ (List.cons_ne_nil c attributeName)
  apply Text.Misses.append
  · rw [List.append_nil]
    exact Text.misses_of_not_isInfix (htext c hblank) fun d hd => hhead d hd
  · exact Text.misses_of_not_isInfix (hrest c hblank) (by simp)

theorem Untold.cons {c : Char} (h : Untold text) (hc : Text.isBlank c = false) :
    Untold (c :: text) := by
  intro d hblank hbegun
  rcases List.infix_cons_iff.1 hbegun with hbegins | hlater
  · obtain ⟨rfl, -⟩ := List.cons_prefix_cons.1 hbegins
    rw [hc] at hblank
    cases hblank
  · exact h d hblank hlater

/-- The text has no such name, and behind any other it makes none. -/
structure Apart (text : Text) : Prop where
  untold : Untold text
  head : ∀ c ∈ text.head?, c ∉ attributeName

theorem apart_nil : Apart [] := ⟨untold_of_length_le (Nat.zero_le _), by simp⟩

theorem apart_of_length_le {c : Char} (h : text.length ≤ attributeName.length)
    (hhead : text.head? = some c) (hc : c ∉ attributeName) : Apart text := by
  refine ⟨untold_of_length_le h, fun d hd => ?_⟩
  rw [hhead, Option.mem_some_iff] at hd
  exact hd ▸ hc

theorem apart_singleton {c : Char} (h : Attributes.isNameChar c = false) : Apart [c] :=
  apart_of_length_le (by simp [Placeholder.length_titleName]) rfl (not_mem_attributeName h)

theorem Apart.append (htext : Apart text) (hrest : Apart rest) : Apart (text ++ rest) := by
  refine ⟨htext.untold.append hrest.untold hrest.head, fun c hc => ?_⟩
  rw [List.head?_append, Option.mem_def, Option.or_eq_some_iff] at hc
  rcases hc with hc | ⟨-, hc⟩
  · exact htext.head c hc
  · exact hrest.head c hc

/-- A chunk that no such name has a part in. -/
def IsSolid (chunk : Text) : Prop :=
  (∀ c ∈ chunk, Text.isBlank c = false) ∧ ∃ c ∈ chunk.head?, c ∉ attributeName

theorem IsSolid.not_mem {chunk : Text} (h : IsSolid chunk) {c : Char}
    (hblank : Text.isBlank c = true) : c ∉ chunk := by
  intro hmem
  rw [h.1 c hmem] at hblank
  cases hblank

theorem Untold.flatMap {write : Char → Text} (hwrite : ∀ c, write c = [c] ∨ IsSolid (write c))
    (h : Untold text) : Untold (text.flatMap write) := by
  intro c hblank hbegun
  have hrespelled := Text.respelled_flatMap
    (fun d => (hwrite d).imp_right fun hsolid => ⟨hsolid.not_mem hblank, hsolid.2⟩) text
  exact h c hblank (hrespelled.isInfix hbegun)

theorem Untold.replace {α : Type} {pattern : Pattern α} {write : α → Text}
    (hwrite : ∀ value, IsSolid (write value)) (h : Untold text) :
    Untold (pattern.replace write text) := by
  intro c hblank hbegun
  have hrespelled := pattern.respelled_replace
    (fun value => ⟨(hwrite value).not_mem hblank, (hwrite value).2⟩) text
  exact h c hblank (hrespelled.isInfix hbegun)

/-! ### What is spelled anew -/

theorem Untold.forDoubleQuotes (h : Untold text) : Untold (Html.forDoubleQuotes text) := by
  refine h.flatMap fun c => ?_
  split
  · exact .inr ⟨by decide, '&', rfl, not_mem_attributeName rfl⟩
  · exact .inr ⟨by decide, '&', rfl, not_mem_attributeName rfl⟩
  · exact .inr ⟨by decide, '&', rfl, not_mem_attributeName rfl⟩
  · exact .inr ⟨by decide, '&', rfl, not_mem_attributeName rfl⟩
  · exact .inl rfl

theorem Untold.forSingleQuotes (h : Untold text) : Untold (Payload.forSingleQuotes text) := by
  rw [Payload.forSingleQuotes_eq]
  refine (h.replace fun _ => ⟨by decide, '&', rfl, not_mem_attributeName rfl⟩).flatMap fun c => ?_
  unfold Payload.escapeChar
  split
  · exact .inr ⟨by decide, '&', rfl, not_mem_attributeName rfl⟩
  · exact .inr ⟨by decide, '&', rfl, not_mem_attributeName rfl⟩
  · exact .inr ⟨by decide, '&', rfl, not_mem_attributeName rfl⟩
  · exact .inl rfl

theorem isBlank_of_isAlphanum {c : Char} (h : c.isAlphanum = true) : Text.isBlank c = false := by
  rw [← Bool.not_eq_true]
  intro hblank
  rw [Html.isAlphanum_iff] at h
  simp only [Text.isBlank, Text.inRanges, Text.blankRanges, List.any_cons, List.any_nil,
    Bool.or_eq_true, Bool.and_eq_true, decide_eq_true_eq, Bool.false_eq_true, or_false] at hblank
  omega

theorem isSolid_escapeUnit {unit : Nat} {rest : Text} (h : unit < 0x10000)
    (hrest : ∀ c ∈ rest, Text.isBlank c = false) : IsSolid (Json.escapeUnit unit ++ rest) := by
  refine ⟨fun c hc => ?_, '\\', rfl, not_mem_attributeName rfl⟩
  rcases List.mem_append.1 hc with hunit | hrest'
  · rcases Json.mem_escapeUnit h hunit with rfl | halphanum
    · decide
    · exact isBlank_of_isAlphanum halphanum
  · exact hrest c hrest'

theorem isSolid_quoteChar (c : Char) : Json.quoteChar c = [c] ∨ IsSolid (Json.quoteChar c) := by
  have hc := Json.toNat_lt c
  unfold Json.quoteChar
  split
  · next letter hletter =>
    refine .inr ⟨?_, '\\', rfl, not_mem_attributeName rfl⟩
    unfold Json.escapeLetter? at hletter
    split at hletter
    case h_8 => cases hletter
    all_goals
      obtain rfl := Option.some.inj hletter
      decide
  · split
    · exact .inl rfl
    · right
      unfold Json.escapeUnits
      simp only
      split
      · next hunit =>
        rw [← List.append_nil (Json.escapeUnit _)]
        exact isSolid_escapeUnit hunit (by simp)
      · have hlow : IsSolid (Json.escapeUnit (0xDC00 + (c.toNat - 0x10000) % 0x400) ++ []) :=
          isSolid_escapeUnit (by omega) (by simp)
        rw [List.append_nil] at hlow
        exact isSolid_escapeUnit (by omega) hlow.1

theorem Untold.quote (h : Untold text) : Apart (Json.quote text) := by
  have hquote : ("\"" : Text) = ['"'] := by decide
  have hbody : Untold (text.flatMap Json.quoteChar) := h.flatMap isSolid_quoteChar
  have hlast : Apart ['"'] := apart_singleton rfl
  rw [Json.quote, hquote, List.singleton_append, List.cons_append]
  refine ⟨(hbody.append hlast.untold hlast.head).cons (by decide), ?_⟩
  rintro c ⟨⟩
  exact not_mem_attributeName rfl

theorem apart_flatMap {α : Type} {write : α → Text} {items : List α}
    (h : ∀ item ∈ items, Apart (write item)) : Apart (items.flatMap write) := by
  induction items with
  | nil => exact apart_nil
  | cons item items ih =>
    obtain ⟨hitem, hitems⟩ := List.forall_mem_cons.1 h
    exact hitem.append (ih hitems)

/-- A quoted list tells of no title if its texts do not. -/
theorem apart_quoteList {texts : List Text} (h : ∀ text ∈ texts, Untold text) :
    Apart (Json.quoteList texts) := by
  have hopen : Apart "[" := apart_singleton rfl
  have hclose : Apart "]" := apart_singleton rfl
  have hcomma : Apart [','] := apart_singleton rfl
  have hitems : Apart ([','].intercalate (texts.map Json.quote)) := by
    cases texts with
    | nil => exact apart_nil
    | cons text texts =>
      obtain ⟨htext, htexts⟩ := List.forall_mem_cons.1 h
      rw [Json.intercalate_quote]
      exact htext.quote.append (apart_flatMap fun text hmem =>
        hcomma.append (htexts text hmem).quote)
  exact (hopen.append hitems).append hclose

/-! ### What a frame says -/

namespace Keyed

variable {κ α : Type} [DecidableEq κ] {holds : κ → α → Prop} {map : Keyed κ α} {key : κ} {value : α}

def All (holds : κ → α → Prop) (map : Keyed κ α) : Prop :=
  ∀ entry ∈ map.entries, holds entry.1 entry.2

theorem All.get? (h : All holds map) (hget : map.get? key = some value) : holds key value := by
  obtain ⟨before, after, heq, -⟩ := List.lookup_eq_some_iff.1 hget
  exact h (key, value) (heq ▸ List.mem_append_right before List.mem_cons_self)

theorem All.put (h : All holds map) (hnew : holds key value) : All holds (map.put key value) := by
  unfold Keyed.put
  split
  · intro entry hentry
    obtain ⟨⟨other, old⟩, hold, rfl⟩ := List.mem_map.1 hentry
    simp only
    split
    · next heq => exact heq ▸ hnew
    · exact h _ hold
  · intro entry hentry
    rcases List.mem_append.1 hentry with hold | hlast
    · exact h entry hold
    · rw [List.mem_singleton.1 hlast]
      exact hnew

theorem All.erase (h : All holds map) (key : κ) : All holds (map.erase key) :=
  fun entry hentry => h entry (List.mem_filter.1 hentry).1

theorem all_ofPairs {pairs : List (κ × α)} (h : ∀ pair ∈ pairs, holds pair.1 pair.2) :
    All holds (ofPairs pairs) := by
  induction pairs using List.reverseRecOn with
  | nil => exact fun entry hentry => absurd hentry List.not_mem_nil
  | append_singleton pairs pair ih =>
    rw [ofPairs_concat]
    exact (ih fun other hother => h other (List.mem_append_left _ hother)).put (h pair (by simp))

end Keyed

theorem Attributes.isInfix_of_mem_hits {pair : Text × Text}
    (h : pair ∈ Attributes.pattern.hits text) : pair.1 <:+: text ∧ pair.2 <:+: text := by
  obtain ⟨behind, rest, hsuffix, hrun⟩ := Pattern.exists_run_of_mem_hits h
  obtain ⟨name, value⟩ := pair
  obtain ⟨hname, left, rfl, -⟩ := Attributes.exists_of_run hrun
  obtain ⟨heq, -⟩ :=
    Prod.mk.inj (Option.some.inj ((Attributes.run_pattern hname left).symm.trans hrun))
  obtain ⟨-, rfl⟩ := Prod.mk.inj heq
  have hleft : left <:+: name ++ '=' :: '"' :: left := ⟨name ++ ['=', '"'], [], by simp⟩
  exact ⟨(List.prefix_append name _).isInfix.trans hsuffix.isInfix,
    ((List.takeWhile_prefix _).isInfix.trans hleft).trans hsuffix.isInfix⟩

theorem Text.trim_isInfix (text : Text) : Text.trim text <:+: text := by
  have hlast : ((text.dropWhile Text.isBlank).reverse.dropWhile Text.isBlank).reverse <+:
      text.dropWhile Text.isBlank := by
    rw [← List.reverse_suffix, List.reverse_reverse]
    exact List.dropWhile_suffix _
  exact hlast.isInfix.trans (List.dropWhile_suffix _).isInfix

namespace Placeholder

variable {attributes : Attributes} {element name : Text}

def Says (name value : Text) : Prop := ¬attributeName <:+: name ∧ ¬attributeName <:+: value

theorem not_isInfix_of_length {text : Text} (h : text.length < attributeName.length) :
    ¬attributeName <:+: text :=
  fun hbegun => Nat.not_le.2 h hbegun.length_le

theorem all_ofElement {holds : Text → Text → Prop}
    (h : ∀ name value, name <:+: element → value <:+: element → holds name value) :
    (Attributes.ofElement element).All holds := by
  refine Keyed.all_ofPairs fun pair hpair => ?_
  obtain ⟨hname, hvalue⟩ := Attributes.isInfix_of_mem_hits hpair
  exact h pair.1 pair.2 hname hvalue

theorem all_promoteSource {holds : Text → Text → Prop} (h : attributes.All holds)
    (hsource : ∀ source, holds ClickToLoad.sourceName source → holds "src" source) :
    (ClickToLoad.promoteSource attributes).All holds := by
  unfold ClickToLoad.promoteSource
  split
  · next source hget => exact h.put (hsource source (h.get? hget))
  · exact h

theorem not_isInfix_background (h : ¬attributeName <:+: value) :
    ¬attributeName <:+: "background:" ++ Text.trim value := by
  have hcolon : ("background:" : Text) = "background" ++ [':'] := by decide
  have hshort : ¬attributeName <:+: "background" :=
    not_isInfix_of_length (by rw [length_titleName]; decide)
  rw [hcolon, List.append_assoc, List.singleton_append]
  intro hbegun
  rcases Text.isInfix_append_cons hbegun (not_mem_attributeName rfl) with hleft | hright
  · exact hshort hleft
  · exact h (hright.trans (Text.trim_isInfix value))

theorem not_isInfix_style {style : Text} (h : ¬attributeName <:+: style)
    (hstyle : ¬("-background:" : Text) <:+: style) :
    ¬attributeName <:+: Text.trim (ClickToLoad.withoutBackground style) := by
  have hname : ∀ c ∈ attributeName, Text.isWord c = true ∨ c = '-' := fun c hc => by
    simpa [Attributes.isNameChar] using isName_titleName.2 c hc
  intro hbegun
  exact h (ClickToLoad.isInfix_of_isInfix_withoutBackground hname ⟨'d', rfl, by decide⟩ hstyle
    (hbegun.trans (Text.trim_isInfix _)))

/-- What holds of all attributes still holds when the background has been moved. -/
theorem all_extractBackground (h : attributes.All Says)
    (hstyle : ∀ style ∈ attributes.get? "style", ¬("-background:" : Text) <:+: style) :
    (ClickToLoad.extractBackground attributes).All Says := by
  have hshorter : ∀ name ∈ attributeNames, ¬attributeName <:+: name := fun name hname =>
    not_isInfix_of_length (Nat.lt_of_add_right_lt (length_attributeNames name hname))
  unfold ClickToLoad.extractBackground
  split
  · next style _ hget =>
    split
    · next value hvalue =>
      have hsays := (h.get? hget).2
      have hfound : ¬attributeName <:+: value := fun hbegun =>
        hsays (hbegun.trans (ClickToLoad.isInfix_of_background? hvalue))
      have hmoved :
          (attributes.put ClickToLoad.backgroundName ("background:" ++ Text.trim value)).All Says :=
        h.put ⟨hshorter _ (by simp [attributeNames]), not_isInfix_background hfound⟩
      simp only
      split
      · exact hmoved.erase _
      · exact hmoved.put ⟨hshorter _ (by simp [attributeNames]),
          not_isInfix_style hsays (hstyle style hget)⟩
    · exact h
  · exact h

/-- What a frame says without the name of a title attribute, its placeholder says without it. -/
theorem all_attributesOf (h : ¬attributeName <:+: element)
    (hbackground : ¬("-background:" : Text) <:+: element) : (attributesOf element).All Says := by
  have hread : (ClickToLoad.promoteSource (Attributes.ofElement element)).All fun name value =>
      Says name value ∧ ¬("-background:" : Text) <:+: value := by
    refine all_promoteSource (all_ofElement fun name value hname hvalue => ?_)
      fun source hsource => ?_
    · exact ⟨⟨fun hbegun => h (hbegun.trans hname), fun hbegun => h (hbegun.trans hvalue)⟩,
        fun hbegun => hbackground (hbegun.trans hvalue)⟩
    · exact ⟨⟨not_isInfix_of_length (by rw [length_titleName]; decide), hsource.1.2⟩, hsource.2⟩
  have hapart : (ClickToLoad.setApart (Attributes.ofElement element)).All Says :=
    all_extractBackground (fun entry hentry => (hread entry hentry).1) fun style hget =>
      (hread.get? hget).2
  unfold attributesOf
  simp only
  split
  · exact hapart.erase _
  · exact hapart

/-! ### What its placeholder says -/

theorem apart_quoted {d : Char} (hd : Text.isBlank d = false ∧ d ∉ attributeName)
    (h : Untold text) : Apart (d :: text) := by
  refine ⟨h.cons hd.1, ?_⟩
  rintro c ⟨⟩
  exact hd.2

theorem apart_renderAttribute (hname : name.length + 2 ≤ attributeName.length)
    (hvalue : ¬attributeName <:+: value) : Apart (renderAttribute name value) := by
  have hsplit : renderAttribute name value = ' ' :: (name ++ ['=']) ++
      ('"' :: Html.forDoubleQuotes value ++ ['"']) := by
    unfold renderAttribute
    simp
  have hlength : (' ' :: (name ++ ['='])).length = name.length + 2 := by simp
  have hstart : Apart (' ' :: (name ++ ['='])) := by
    refine ⟨untold_of_length_le (hlength.trans_le hname), ?_⟩
    rintro c ⟨⟩
    exact not_mem_attributeName rfl
  have hquoted : Apart ('"' :: Html.forDoubleQuotes value) :=
    apart_quoted ⟨by decide,
      not_mem_attributeName rfl⟩ (untold_of_not_isInfix hvalue).forDoubleQuotes
  have hlast : Apart ['"'] := apart_singleton rfl
  rw [hsplit]
  exact hstart.append (hquoted.append hlast)

theorem apart_renderAttributes (h : attributes.All Says) : Apart (renderAttributes attributes) := by
  refine apart_flatMap fun name hname => ?_
  split
  · next value hget =>
      exact apart_renderAttribute (length_attributeNames name hname) (h.get? hget).2
  · exact apart_nil

theorem untold_payload (h : attributes.All Says) : Untold (Payload.render attributes) := by
  have hitems : ∀ text ∈ Payload.items attributes, Untold text := by
    intro text hmem
    obtain ⟨⟨name, value⟩, hentry, hmem⟩ := List.mem_flatMap.1 hmem
    obtain ⟨hname, hvalue⟩ := h (name, value) (List.mem_filter.1 hentry).1
    simp only [List.mem_cons, List.not_mem_nil, or_false] at hmem
    rcases hmem with rfl | rfl
    · exact untold_of_not_isInfix hname
    · exact untold_of_not_isInfix hvalue
  exact (apart_quoteList hitems).untold.forSingleQuotes

/-- The placeholder of such a frame has no title attribute, whatever stands before it. -/
theorem apart_render (h : attributes.All Says) : Apart (render attributes) := by
  have hsplit :
      render attributes = "<span" ++ renderAttributes attributes ++
        (" " ++ Payload.attributeName ++ "=") ++ ('\'' :: Payload.render attributes) ++
          "'></span>" := by
    have hequals : ("='" : Text) = "=" ++ ['\''] := by decide
    have hrender : render attributes = "<span" ++ renderAttributes attributes ++ " " ++
        Payload.attributeName ++ ("=" ++ ['\'']) ++ Payload.render attributes ++ "'></span>" :=
      congrArg (fun equals => "<span" ++ renderAttributes attributes ++ " " ++
        Payload.attributeName ++ equals ++ Payload.render attributes ++ "'></span>") hequals
    rw [hrender]
    simp only [List.append_assoc, List.singleton_append]
  have hlength : ("<span" : Text).length ≤ 36 ∧
      (" " ++ Payload.attributeName ++ "=" : Text).length ≤ 36 ∧
      ("'></span>" : Text).length ≤ 36 := by decide
  rw [← length_titleName] at hlength
  have hopen : Apart "<span" := apart_of_length_le hlength.1 rfl (not_mem_attributeName rfl)
  have hname : Apart (" " ++ Payload.attributeName ++ "=") :=
    apart_of_length_le hlength.2.1 rfl (not_mem_attributeName rfl)
  have hpayload : Apart ('\'' :: Payload.render attributes) :=
    apart_quoted ⟨by decide, not_mem_attributeName rfl⟩ (untold_payload h)
  have hclose : Apart "'></span>" := apart_of_length_le hlength.2.2 rfl (not_mem_attributeName rfl)
  rw [hsplit]
  exact (((hopen.append (apart_renderAttributes h)).append hname).append hpayload).append hclose

end Placeholder

end LazyEmbed
