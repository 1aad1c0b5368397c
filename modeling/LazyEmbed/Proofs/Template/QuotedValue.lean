import LazyEmbed.Proofs.Template.QuotedTest
import LazyEmbed.Proofs.Text.Yielding

/-!
# Values between quotation marks

A converted test stands between quotation marks, and so does the content of an attribute element
that is moved into its tag. Neither is escaped, so a value is read back, up to the next quotation
mark, exactly if it has none in it. Such a value stays where it is: the stretch from the bracket
before it to its closing quotation mark has its bracket and its quotation mark only at the ends of
what the later passes look for, so they find it as a whole or not at all.
-/

namespace LazyEmbed

/-- What is read up to the nearest stop has no stop in it. -/
theorem Reader.not_infix_of_run_upTo {test : Char → Bool} {stop text value rest : Text}
    (hne : stop ≠ []) (h : (Reader.upTo test stop).run text = some (value, rest)) :
    ¬stop <:+: value := by
  obtain ⟨⟨found, _⟩, left, hshortest, hpure⟩ := Reader.run_bind_eq_some_iff.1 h
  obtain ⟨rfl, rfl⟩ := Prod.mk.inj (Option.some.inj hpure)
  obtain ⟨after, rfl, -, -⟩ := Reader.shortestRun_eq_some hshortest
  rintro ⟨before, behind, heq⟩
  have hnone :=
    Reader.shortestRun_nearest hshortest before (stop ++ behind) (by rw [← heq,
      List.append_assoc]) (List.append_ne_nil_of_left_ne_nil hne behind)
  rw [List.append_assoc, Reader.run_literal_append] at hnone
  cases hnone

namespace Template

open Dialect

/-! ### Stretches that end with a value -/

/-- A piece of a text from a bracket to the quotation mark behind a value. -/
structure IsQuotation (stretch : Text) : Prop where
  opens : stretch.head? = some '<'
  closes : stretch.getLast? = some '"'

/-- A tag that is looked for: one bracket at its beginning, and a quotation mark at its end at
most. -/
structure IsSought (word : Text) : Prop where
  opens : word.head? = some '<'
  no_bracket : '<' ∉ word.tail
  no_quote : '"' ∉ word.dropLast

instance (word : Text) : Decidable (IsSought word) :=
  decidable_of_iff (word.head? = some '<' ∧ '<' ∉ word.tail ∧ '"' ∉ word.dropLast)
    ⟨fun h => ⟨h.1, h.2.1, h.2.2⟩, fun h => ⟨h.opens, h.no_bracket, h.no_quote⟩⟩

section

variable {stretch word text out rest : Text}

/-- Where the stretch goes as far as the word, or ends inside it, it has the word at its beginning,
since its last character is not inside the word. -/
theorem prefix_of_getLast? {d : Char} (hlast : stretch.getLast? = some d)
    (hword : d ∉ word.dropLast) (h : stretch <+: word ++ rest) : word <+: stretch := by
  obtain hle | hle := List.prefix_or_prefix_of_prefix h (List.prefix_append word rest)
  · obtain ⟨more, rfl⟩ := hle
    cases more with
    | nil => simp
    | cons c more =>
      rw [List.dropLast_append_of_ne_nil (List.cons_ne_nil c more)] at hword
      exact absurd (List.mem_append_left _ (List.mem_of_getLast? hlast)) hword
  · exact hle

namespace IsQuotation

variable (h : IsQuotation stretch)
include h

/-- A stretch stands on one side of a tag that it does not hold. -/
theorem infix_append {front : Text} (hsought : IsSought word) (hnot : ¬word <:+: stretch)
    (hwithin : stretch <:+: front ++ (word ++ rest)) : stretch <:+: front ∨ stretch <:+: rest := by
  obtain ⟨tail, rfl⟩ := List.head?_eq_some_iff.1 h.opens
  obtain ⟨others, rfl⟩ := List.head?_eq_some_iff.1 hsought.opens
  obtain hfront | hbehind | ⟨first, second, heq, hfirst, hsecond⟩ := List.infix_append_iff.1 hwithin
  · exact .inl hfront
  · obtain hbegins | hlater := List.infix_cons_iff.1 hbehind
    · exact absurd (prefix_of_getLast? h.closes hsought.no_quote hbegins).isInfix hnot
    · exact .inr (Text.isInfix_of_not_mem hlater hsought.no_bracket)
  · cases second with
    | nil =>
      rw [List.append_nil] at heq
      exact .inl (heq ▸ hfirst.isInfix)
    | cons c second =>
      have hlast : (c :: second).getLast? = some '"' := by
        have hcloses := h.closes
        rwa [heq, List.getLast?_append_cons] at hcloses
      have hbegins := prefix_of_getLast? hlast hsought.no_quote hsecond
      exact absurd (hbegins.isInfix.trans (heq ▸ (List.suffix_append first _).isInfix)) hnot

/-! ### Passes over a stretch -/

/-- What is selected ends with its own quotation mark, which may be that of the stretch. -/
theorem infix_selected {selected : Text} (hslash : ¬("\"/" : Text) <:+: stretch)
    (hwithin : stretch <:+: selected ++ ("\"/>" ++ rest)) :
    stretch.dropLast <:+: selected ∨ stretch <:+: rest := by
  obtain ⟨tail, rfl⟩ := List.head?_eq_some_iff.1 h.opens
  obtain hselected | hbehind | ⟨first, second, heq, hfirst, hsecond⟩ :=
    List.infix_append_iff.1 hwithin
  · exact .inl ((List.dropLast_prefix _).isInfix.trans hselected)
  · exact .inr (Text.isInfix_of_not_mem hbehind (by decide))
  · rw [heq]
    obtain rfl | ⟨c, rfl⟩ | ⟨c, d, others, rfl⟩ :
        second = [] ∨ (∃ c, second = [c]) ∨ ∃ c d others, second = c :: d :: others := by
      match second with
      | [] => exact .inl rfl
      | [c] => exact .inr (.inl ⟨c, rfl⟩)
      | c :: d :: others => exact .inr (.inr ⟨c, d, others, rfl⟩)
    · rw [List.append_nil]
      exact .inl ((List.dropLast_prefix _).isInfix.trans hfirst.isInfix)
    · rw [List.dropLast_concat]
      exact .inl hfirst.isInfix
    · have hends : ("\"/" : Text) <+: c :: d :: others := by
        obtain ⟨rfl, hrest⟩ := List.cons_prefix_cons.1 hsecond
        obtain ⟨rfl, -⟩ := List.cons_prefix_cons.1 hrest
        exact List.prefix_append _ others
      exact absurd (hends.isInfix.trans (heq ▸ (List.suffix_append first _).isInfix)) hslash

/-- A stretch is kept, or what is selected somewhere has all of it but the quotation mark. -/
theorem infix_convertSelections (hstart : ¬selectionStart <:+: stretch)
    (hslash : ¬("\"/" : Text) <:+: stretch) (hout : convertSelections text = .ok out)
    (hwithin : stretch <:+: text) :
    stretch <:+: out ∨ ∃ selected ∈ selection.hits text, stretch.dropLast <:+: selected := by
  refine Pattern.carry_replaceM (fun left => stretch <:+: left ∨ ∃ selected ∈ selection.hits text,
    stretch.dropLast <:+: selected)
    (fun selected hselected behind rest written hrun _ front hfront => ?_) hout [] (.inl hwithin)
  refine hfront.elim (fun hwithin => ?_) .inr
  have hbehind : front ++ behind = front ++ (selectionStart ++ (selected ++ ("\"/>" ++ rest))) := by
    rw [eq_append_of_run_selection hrun, List.append_assoc, List.append_assoc]
    rfl
  rw [hbehind] at hwithin
  obtain hfront | hlater := h.infix_append (by decide) hstart hwithin
  · exact .inl (hfront.trans (List.prefix_append front _).isInfix)
  obtain hinside | hrest := h.infix_selected hslash hlater
  · exact .inr ⟨selected, hselected, hinside⟩
  · exact .inl
      (hrest.trans ((List.suffix_append written rest).trans (List.suffix_append front _)).isInfix)

/-- A stretch is kept, or stands in an attribute element. -/
theorem infix_foldAttributeBodies (hstart : ¬("<xsl:attribute" : Text) <:+: stretch)
    (hend : ¬("</xsl:attribute" : Text) <:+: stretch) (hout : foldAttributeBodies text = .ok out)
    (hwithin : stretch <:+: text) :
    stretch <:+: out ∨ ∃ found ∈ attributeBody.hits text, stretch <:+: found.1 ++ found.2 := by
  refine Pattern.carry_replaceM (fun left => stretch <:+: left ∨ ∃ found ∈ attributeBody.hits text,
    stretch <:+: found.1 ++ found.2) (fun found hfound behind rest written hrun _ front hfront =>
    ?_) hout [] (.inl hwithin)
  refine hfront.elim (fun hwithin => ?_) .inr
  obtain ⟨rfl, ⟨inside, htag⟩, left, rfl⟩ := eq_append_of_run_attributeBody hrun
  have hbody : found.1 ++ found.2 = "<xsl:attribute" ++ (inside ++ ">" ++ found.2) := by
    rw [htag]
    simp only [List.append_assoc]
  rw [← List.append_assoc] at hwithin
  obtain hbefore | hleft := h.infix_append (by decide) hend hwithin
  · rw [hbody] at hbefore
    obtain hfront | hinside := h.infix_append (by decide) hstart hbefore
    · exact .inl (hfront.trans (List.prefix_append front _).isInfix)
    · exact .inr ⟨found, hfound, hinside.trans (hbody ▸ (List.suffix_append _ _).isInfix)⟩
  · refine .inl (hleft.trans ?_)
    exact ((List.suffix_append _ left).trans
      ((List.suffix_append written _).trans (List.suffix_append front _))).isInfix

/-- What stands in front of an attribute element, is its content, or stands behind it. -/
theorem infix_parts {front middle value : Text}
    (hstart : ¬("<xsl:attribute name=\"" : Text) <:+: stretch)
    (hend : ¬("</xsl:attribute>" : Text) <:+: stretch) (hmiddle : '<' ∉ middle)
    (hwithin : stretch <:+: front ++
      (['>'] ++ "<xsl:attribute name=\"" ++ (middle ++ (value ++ ("</xsl:attribute>" ++ rest))))) :
    stretch <:+: front ∨ stretch <:+: value ∨ stretch <:+: rest := by
  rw [List.append_assoc ['>'], ← List.append_assoc front] at hwithin
  obtain hfront | hbehind := h.infix_append (by decide) hstart hwithin
  · obtain ⟨more, hmore⟩ | hfront := List.infix_concat_iff.1 hfront
    · have hlast : (more ++ stretch).getLast? = some '"' := by
        rw [List.getLast?_append, h.closes, Option.some_or]
      rw [hmore, List.getLast?_concat] at hlast
      cases hlast
    · exact .inl hfront
  · obtain ⟨tail, rfl⟩ := List.head?_eq_some_iff.1 h.opens
    exact .inr (h.infix_append (by decide) hend (Text.isInfix_of_not_mem hbehind hmiddle))

end IsQuotation

end

/-! ### Attribute elements that are moved -/

namespace Inlinable

def start (found : Inlinable) : Text := "<" ++ found.tag ++ " " ++ found.name ++ "=\""

variable {text rest : Text} {found : Inlinable}

theorem inlined_eq (found : Inlinable) : found.inlined = found.start ++ found.value ++ "\">" := rfl

/-- What the parts of a hit are. -/
theorem parts_of_run (h : pattern.reader.run text = some (found, rest)) :
    '>' ∉ found.tag ∧ (∀ c ∈ found.name, Text.isWord c = true) ∧
      ¬("</xsl:attribute>" : Text) <:+: found.value := by
  obtain ⟨left, rfl⟩ := Pattern.after_beginsWith _ _ _ h
  rw [pattern, Pattern.run_after_append] at h
  obtain ⟨_, first, -, h⟩ := Reader.run_bind_eq_some_iff.1 h
  obtain ⟨tag, second, htag, h⟩ := Reader.run_bind_eq_some_iff.1 h
  obtain ⟨_, third, -, h⟩ := Reader.run_bind_eq_some_iff.1 h
  obtain ⟨name, fourth, hname, h⟩ := Reader.run_bind_eq_some_iff.1 h
  obtain ⟨_, fifth, -, h⟩ := Reader.run_bind_eq_some_iff.1 h
  obtain ⟨value, last, hvalue, h⟩ := Reader.run_bind_eq_some_iff.1 h
  obtain ⟨rfl, rfl⟩ := Prod.mk.inj (Option.some.inj h)
  refine ⟨fun hmem => ?_, fun c hc => (Reader.eq_append_of_run_many1 hname).2.2 c hc, ?_⟩
  · simpa using (Reader.eq_append_of_run_many htag).2 _ hmem
  · exact Reader.not_infix_of_run_upTo (by decide) hvalue

/-- The same text, cut where the parts of the element meet. -/
theorem append_parts {before bracket tag seam start name close value last rest : Text}
    (h : seam = ['>'] ++ start) :
    before ++ (bracket ++ tag ++ seam ++ name ++ close ++ value ++ last ++ rest) =
      before ++ (bracket ++ tag) ++
      (['>'] ++ start ++ ((name ++ close) ++ (value ++ (last ++ rest)))) := by
  subst h
  simp only [List.append_assoc]

end Inlinable

section

variable {stretch text : Text}

/-- A stretch stays where it is when an attribute element is moved, in front of it, inside it or
behind it. -/
theorem IsQuotation.infix_inlineFirst? (h : IsQuotation stretch)
    (hstart : ¬("<xsl:attribute name=\"" : Text) <:+: stretch)
    (hend : ¬("</xsl:attribute>" : Text) <:+: stretch) {next : Text}
    (hfirst : inlineFirst? text = some next) (hwithin : stretch <:+: text) : stretch <:+: next := by
  obtain ⟨⟨before, found, rest⟩, hsplit, rfl⟩ := Option.map_eq_some_iff.1 hfirst
  obtain ⟨tail, rfl, hrun⟩ := Pattern.splitFirst?_eq_some hsplit
  have hname : '<' ∉ found.name :=
    fun hmem => absurd ((Inlinable.parts_of_run hrun).2.1 _ hmem) (by decide)
  have hseam : ("><xsl:attribute name=\"" : Text) = ['>'] ++ "<xsl:attribute name=\"" := by decide
  rw [Inlinable.eq_append_of_run hrun, Inlinable.append_parts hseam] at hwithin
  change stretch <:+: before ++ found.inlined ++ rest
  obtain hfront | hvalue | hrest := h.infix_parts hstart hend (by simp [hname]) hwithin
  · exact hfront.trans ⟨[], " " ++ found.name ++ "=\"" ++ found.value ++ "\">" ++ rest, by
      simp [Inlinable.inlined]⟩
  · have hinside : found.value <:+: found.inlined := ⟨found.start, "\">", rfl⟩
    exact hvalue.trans (hinside.trans (List.infix_append before found.inlined rest))
  · exact hrest.trans (List.suffix_append _ rest).isInfix

theorem IsQuotation.infix_inlineAttributes (h : IsQuotation stretch)
    (hstart : ¬("<xsl:attribute name=\"" : Text) <:+: stretch)
    (hend : ¬("</xsl:attribute>" : Text) <:+: stretch) (hwithin : stretch <:+: text) :
    stretch <:+: inlineAttributes text := by
  fun_induction inlineAttributes text with
  | case1 text shorter hfirst ih => exact ih (h.infix_inlineFirst? hstart hend hfirst hwithin)
  | case2 text hnone => exact hwithin

/-- The texts on the way from a text to the one with all its attribute elements moved. -/
inductive Moves (text : Text) : Text → Prop
  | start : Moves text text
  | step {later next : Text} (h : Moves text later) (hfirst : inlineFirst? later = some next) :
      Moves text next

theorem inlineAttributes_of_moves {later : Text} (h : Moves text later) :
    inlineAttributes text = inlineAttributes later := by
  induction h with
  | start => rfl
  | step _ hfirst ih => rw [ih, inlineAttributes_of_inlineFirst? hfirst]

end

/-! ### Braces that come back -/

section

variable {d : Char}

theorem swap_append_cons {old new : Text} {hne : old ≠ []} (hd : d ∉ old) (text rest : Text) :
    Markup.swap old new hne (text ++ d :: rest) = Markup.swap old new hne text ++
      d :: Markup.swap old new hne rest := by
  have hstops : (Pattern.fixed old hne).reader.StopsAt (d :: rest) :=
    (Reader.stopsAt_literal hd).bind fun _ => Reader.stopsAt_pure _
  have hnone : (Pattern.fixed old hne).reader.run (d :: rest) = none := by
    refine (Pattern.after_beginsWith _ _ _).run_eq_none fun hbegins => ?_
    obtain ⟨c, others, rfl⟩ := List.exists_cons_of_ne_nil hne
    exact hd ((List.cons_prefix_cons.1 hbegins).1 ▸ List.mem_cons_self)
  simp only [Markup.swap]
  rw [Pattern.replace_append_stop hstops, Pattern.replace_cons_of_run_eq_none hnone]

/-- A character of no reference parts the text. -/
theorem restoreBraces_append_cons (hclose : d ∉ ("&#125;" : Text)) (hopen : d ∉ ("&#123;" : Text))
    (text rest : Text) :
    restoreBraces (text ++ d :: rest) = restoreBraces text ++ d :: restoreBraces rest := by
  simp only [restoreBraces, Function.comp_apply]
  rw [swap_append_cons hopen, swap_append_cons hclose]

theorem restoreBraces_nil : restoreBraces [] = [] := by
  simp only [restoreBraces, Function.comp_apply, Markup.swap, Pattern.replace_nil]

theorem not_mem_restoreBraces {text : Text} (hclose : d ∉ ("\x7d" : Text))
    (hopen : d ∉ ("\x7b" : Text)) (h : d ∉ text) : d ∉ restoreBraces text :=
  Pattern.not_mem_replace (Pattern.not_mem_replace h fun _ _ => hopen) fun _ _ => hclose

end

/-- Somewhere in the text stands the opening, and the value is what is read behind it. -/
def ReadsAs (text opening value : Text) : Prop :=
  ∃ front behind, text = front ++ (opening ++ behind) ∧ upToQuote behind = value

/-- Restoring the braces keeps an attribute readable with its value. -/
theorem readsAs_restoreBraces {left opening value : Text} (hopens : opening.head? = some '<')
    (hends : opening.getLast? = some '"') (hvalue : '"' ∉ value)
    (h : opening ++ (value ++ ['"']) <:+: left) :
    ReadsAs (restoreBraces left) (restoreBraces opening) (restoreBraces value) := by
  obtain ⟨front, rest, rfl⟩ := h
  obtain ⟨inside, rfl⟩ := List.getLast?_eq_some_iff.1 hends
  obtain ⟨tail, hwhole⟩ := List.head?_eq_some_iff.1 hopens
  have hopening : restoreBraces (inside ++ ['"']) = restoreBraces inside ++ ['"'] := by
    rw [restoreBraces_append_cons (d := '"') (by decide) (by decide) inside [], restoreBraces_nil]
  have hfront : ∀ behind, restoreBraces (front ++ (inside ++ ['"'] ++ behind)) =
      restoreBraces front ++ restoreBraces (inside ++ ['"'] ++ behind) := by
    intro behind
    have hbracket :=
      restoreBraces_append_cons (d := '<') (by decide) (by decide) front (tail ++ behind)
    have hfirst := restoreBraces_append_cons (d := '<') (by decide) (by decide) [] (tail ++ behind)
    rw [restoreBraces_nil, List.nil_append, List.nil_append] at hfirst
    rw [hwhole, List.cons_append, hbracket, hfirst]
  refine ⟨restoreBraces front, restoreBraces value ++ '"' :: restoreBraces rest, ?_, ?_⟩
  · rw [hopening, List.append_assoc front, List.append_assoc (inside ++ ['"']),
      List.append_assoc value, hfront, List.append_assoc inside, List.singleton_append,
      List.singleton_append, restoreBraces_append_cons (d := '"') (by decide) (by decide) inside,
      restoreBraces_append_cons (d := '"') (by decide) (by decide) value,
      List.append_assoc (restoreBraces inside)]
    rfl
  · exact (upToQuote_append_iff _ _).2 (not_mem_restoreBraces (by decide) (by decide) hvalue)

/-! ### What is read of the output -/

def conditionOpening (further : Text) : Text := "<xf:" ++ (further ++ "if is=\"")

structure Course (template resolved computed folded : Text) : Prop where
  resolves : convertConditions (changeMarkup template) = .ok resolved
  computes : convertSelections resolved = .ok computed
  folds : foldAttributeBodies computed = .ok folded

/-- A later pass writes the stretch anew, as part of what is selected somewhere or of an attribute
element. -/
def IsRewritten (resolved computed stretch : Text) : Prop :=
  (∃ selected ∈ selection.hits resolved, stretch.dropLast <:+: selected) ∨
    ∃ found ∈ attributeBody.hits computed, stretch <:+: found.1 ++ found.2

section

variable {template resolved computed folded value : Text}

/-- A word without a quotation mark is on one side of the opening quotation mark. -/
theorem infix_of_quotation {word inside : Text} (hword : '"' ∉ word) (hne : word ≠ [])
    (h : word <:+: inside ++ ['"'] ++ (value ++ ['"'])) : word <:+: inside ∨ word <:+: value := by
  rw [List.append_assoc, List.singleton_append] at h
  obtain hinside | h := Text.isInfix_append_cons h hword
  · exact .inl hinside
  obtain hvalue | h := Text.isInfix_append_cons h hword
  · exact .inr hvalue
  · exact absurd (List.infix_nil.1 h) hne

theorem isQuotation_append {opening : Text} (h : opening.head? = some '<') (value : Text) :
    IsQuotation (opening ++ (value ++ ['"'])) := by
  constructor
  · rw [List.head?_append, h, Option.some_or]
  · rw [← List.append_assoc, List.getLast?_concat]

/-- An opening ends with its only quotation mark, and begins no element of the source dialect. -/
theorem exists_conditionOpening {further : Text} (h : further ∈ ["else".toList, []]) :
    (conditionOpening further).head? = some '<' ∧
      restoreBraces (conditionOpening further) = conditionOpening further ∧
      ∃ inside, conditionOpening further = inside ++ ['"'] ∧ '"' ∉ inside ∧
      ¬("<xsl:" : Text) <:+: inside ∧ ¬("</xsl:attribute" : Text) <:+: inside := by
  have hboth : ∀ further ∈ ["else".toList, []], (conditionOpening further).head? = some '<' ∧
      restoreBraces (conditionOpening further) = conditionOpening further ∧
      conditionOpening further = (conditionOpening further).dropLast ++ ['"'] ∧
      '"' ∉ (conditionOpening further).dropLast ∧
      ¬("<xsl:" : Text) <:+: (conditionOpening further).dropLast ∧
      ¬("</xsl:attribute" : Text) <:+: (conditionOpening further).dropLast := by decide +kernel
  obtain ⟨hopens, hrestored, hinside⟩ := hboth further h
  exact ⟨hopens, hrestored, _, hinside⟩

/-- The quotation mark before a test is followed by the test, and the one behind it is the last
character. -/
theorem not_slash_infix {test inside : Text} (hvalue : convertExpression test = .ok value)
    (hquote : '"' ∉ value) (hinside : '"' ∉ inside) :
    ¬("\"/" : Text) <:+: inside ++ ['"'] ++ (value ++ ['"']) := by
  intro h
  rw [List.append_assoc, List.singleton_append] at h
  obtain hbegins | hlater := List.infix_cons_iff.1 (Text.isInfix_of_not_mem h hinside)
  · obtain ⟨expression, -, -, rfl⟩ := exists_of_convertExpression hvalue
    obtain ⟨c, tail, hrender, hc⟩ := expression.exists_render_cons
    rw [hrender] at hbegins
    obtain ⟨rfl, -⟩ := List.cons_prefix_cons.1 (List.cons_prefix_cons.1 hbegins).2
    obtain hc | hc := hc <;> cases hc
  · have hends := (Text.isInfix_of_not_mem hlater hquote).length_le
    exact absurd hends (by decide)

/-- A test that stands for no quotation mark is what is read behind its opening in the output,
unless a later pass writes it anew. -/
theorem readsAs_condition (h : Course template resolved computed folded) {further test : Text}
    (hfurther : further ∈ ["else".toList, []]) (hvalue : convertExpression test = .ok value)
    (hdecodes : DecodesUnquoted test) (hstart : ¬("<xsl:" : Text) <:+: value)
    (hend : ¬("</xsl:attribute" : Text) <:+: value)
    (hwithin : conditionOpening further ++ (value ++ ['"']) <:+: resolved) :
    ReadsAs (restoreBraces (inlineAttributes folded)) (conditionOpening further)
      (restoreBraces value) ∨
      IsRewritten resolved computed (conditionOpening further ++ (value ++ ['"'])) := by
  have hquote : '"' ∉ value := (quote_not_mem_iff hvalue).2 hdecodes
  obtain ⟨hopens, hrestored, inside, hopening, hinside, hnostart, hnoend⟩ :=
    exists_conditionOpening hfurther
  have hquotation := isQuotation_append hopens value
  have hlast : (conditionOpening further).getLast? = some '"' := by
    rw [hopening, List.getLast?_concat]
  generalize conditionOpening further = opening at *
  subst hopening
  have hslash := not_slash_infix hvalue hquote hinside
  have hbegin : ∀ {word : Text}, ("<xsl:" : Text) <+: word →
      ¬word <:+: inside ++ ['"'] ++ (value ++ ['"']) :=
    fun hword hin =>
      (infix_of_quotation (by decide) (by decide) (hword.isInfix.trans hin)).elim hnostart hstart
  have hbody : ∀ {word : Text}, ("</xsl:attribute" : Text) <+: word →
      ¬word <:+: inside ++ ['"'] ++ (value ++ ['"']) :=
    fun hword hin =>
      (infix_of_quotation (by decide) (by decide) (hword.isInfix.trans hin)).elim hnoend hend
  obtain hcomputed | hselected :=
    hquotation.infix_convertSelections (hbegin (by decide)) hslash h.computes hwithin
  · obtain hfolded | hcontent :=
      hquotation.infix_foldAttributeBodies (hbegin (by decide))
        (hbody (by decide)) h.folds hcomputed
    · have hleft :=
        hquotation.infix_inlineAttributes (hbegin (by decide)) (hbody (by decide)) hfolded
      have hreads := readsAs_restoreBraces hopens hlast hquote hleft
      rw [hrestored] at hreads
      exact .inl hreads
    · exact .inr (.inr hcontent)
  · exact .inr (.inl hselected)

theorem inlineFirst?_of_splitFirst? {later before rest : Text} {found : Inlinable}
    (h : Inlinable.pattern.splitFirst? later = some (before, found, rest)) :
    inlineFirst? later = some (before ++ (found.start ++ (found.value ++ '"' :: '>' :: rest))) := by
  have hmoved :
      before ++ found.inlined ++ rest = before ++
        (found.start ++ (found.value ++ '"' :: '>' :: rest)) := by
    rw [Inlinable.inlined_eq]
    simp only [List.append_assoc]
    rfl
  rw [inlineFirst?, h, Option.map_some, ← hmoved]

/-- A moved value without a quotation mark is what is read behind its opening in the output. -/
theorem readsAs_moved {later before rest : Text} {found : Inlinable} (hmoves : Moves folded later)
    (hsplit : Inlinable.pattern.splitFirst? later = some (before, found, rest))
    (hquote : '"' ∉ found.value) (hstart : ¬("<xsl:" : Text) <:+: found.start ++ found.value) :
    ReadsAs (restoreBraces (inlineAttributes folded)) (restoreBraces found.start)
      (restoreBraces found.value) := by
  obtain ⟨tail, rfl, hrun⟩ := Pattern.splitFirst?_eq_some hsplit
  obtain ⟨htag, hname, hvalue⟩ := Inlinable.parts_of_run hrun
  have hopening : found.start = "<" ++ found.tag ++ " " ++ found.name ++ ['='] ++ ['"'] := by
    unfold Inlinable.start
    simp
  have hlast : found.start.getLast? = some '"' := by rw [hopening, List.getLast?_concat]
  have hbegin : ¬("<xsl:attribute name=\"" : Text) <:+: found.start ++ (found.value ++ ['"']) := by
    intro h
    have hword : ("<xsl:" : Text) <:+: found.start ++ found.value ++ '"' :: [] := by
      rw [List.append_assoc]
      exact List.IsInfix.trans (by decide) h
    obtain hword | hword := Text.isInfix_append_cons hword (by decide)
    · exact hstart hword
    · exact absurd hword (by decide)
  have hend : ¬("</xsl:attribute>" : Text) <:+: found.start ++ (found.value ++ ['"']) := by
    rw [hopening]
    intro h
    obtain h | h := infix_of_quotation (by decide) (by decide) h
    · have hbracket : '>' ∈ "<" ++ found.tag ++ " " ++ found.name ++ ['='] := h.subset (by decide)
      have hword : '>' ∉ found.name := fun hmem => absurd (hname _ hmem) (by decide)
      simp [htag, hword] at hbracket
    · exact hvalue h
  have hfirst := inlineFirst?_of_splitFirst? hsplit
  have hwithin : found.start ++ (found.value ++ ['"']) <:+: before ++
      (found.start ++ (found.value ++ '"' :: '>' :: rest)) := ⟨before, '>' :: rest, by simp⟩
  have hkept := (isQuotation_append rfl found.value).infix_inlineAttributes hbegin hend hwithin
  rw [← inlineAttributes_of_moves (hmoves.step hfirst)] at hkept
  exact readsAs_restoreBraces rfl hlast hquote hkept

end

/-- In a template that is converted, all tests are read back from between their quotation marks
exactly if none stands for a text with a quotation mark, and the value of an attribute is read back
as it is moved into its tag exactly if it has none. And such tests and values are read of the output
too, but for tests that a later pass writes anew. -/
theorem convert_readsBack {template out : Text} (h : convert template = .ok out) :
    ∃ resolved computed folded, Course template resolved computed folded ∧
      out = restoreBraces (inlineAttributes folded) ∧
      (List.Forall₂ ReadsBack (condition.hits (changeMarkup template)) (condition.hits resolved) ↔
        ∀ found ∈ condition.hits (changeMarkup template), DecodesUnquoted found.2) ∧
      (∀ further ∈ ["else".toList, []], ∀ test value : Text,
        convertExpression test = .ok value → DecodesUnquoted test →
        ¬("<xsl:" : Text) <:+: value → ¬("</xsl:attribute" : Text) <:+: value →
        conditionOpening further ++ (value ++ ['"']) <:+: resolved →
        ReadsAs out (conditionOpening further) (restoreBraces value) ∨
          IsRewritten resolved computed (conditionOpening further ++ (value ++ ['"']))) ∧
      ∀ later before rest : Text, ∀ found : Inlinable, Moves folded later →
        Inlinable.pattern.splitFirst? later = some (before, found, rest) →
        (∃ behind, inlineFirst? later = some (before ++ (found.start ++ behind)) ∧
          (upToQuote behind = found.value ↔ '"' ∉ found.value)) ∧
        ('"' ∉ found.value → ¬("<xsl:" : Text) <:+: found.start ++ found.value →
          ReadsAs out (restoreBraces found.start) (restoreBraces found.value)) := by
  obtain ⟨left, hleft, -, rfl⟩ := exists_of_convert h
  obtain ⟨resolved, computed, folded, hresolved, hcomputed, hfolded, rfl⟩ :=
    exists_of_beforeCheck hleft
  have hcourse : Course template resolved computed folded := ⟨hresolved, hcomputed, hfolded⟩
  refine ⟨resolved, computed, folded, hcourse, rfl, forall₂_hits_iff hresolved, ?_, ?_⟩
  · exact fun further hfurther test value => readsAs_condition hcourse hfurther
  · exact fun later before rest found hmoves hsplit =>
      ⟨⟨_, inlineFirst?_of_splitFirst? hsplit, upToQuote_append_iff _ _⟩,
        readsAs_moved hmoves hsplit⟩

theorem convert_readsBack_attribute :
    convert "<xsl:if test=\"@a\"><b><xsl:attribute name=\"x\">v</xsl:attribute></b></xsl:if>" =
        .ok "<xf:if is=\"$a\"><b x=\"v\"></b></xf:if>" ∧
      ∃ resolved,
        convertConditions (changeMarkup
          "<xsl:if test=\"@a\"><b><xsl:attribute name=\"x\">v</xsl:attribute></b></xsl:if>") =
            .ok resolved ∧
        List.Forall₂ ReadsBack [([], "@a".toList)] (condition.hits resolved) := by
  have hmarkup : changeMarkup
      "<xsl:if test=\"@a\"><b><xsl:attribute name=\"x\">v</xsl:attribute></b></xsl:if>" =
        "<xf:if is=\"@a\"><b><xsl:attribute name=\"x\">v</xsl:attribute></b></xf:if>" := by
    -- The kernel takes long to decode a literal, so it is given the characters.
    rw [String.toList_ofList, String.toList_ofList]
    decide +kernel
  have hconvert :
      convert "<xsl:if test=\"@a\"><b><xsl:attribute name=\"x\">v</xsl:attribute></b></xsl:if>" =
        .ok "<xf:if is=\"$a\"><b x=\"v\"></b></xf:if>" := by
    rw [convert, hmarkup, String.toList_ofList, String.toList_ofList]
    decide +kernel
  obtain ⟨resolved, computed, folded, hcourse, -, hconditions, -⟩ := convert_readsBack hconvert
  have hhits : condition.hits (changeMarkup
      "<xsl:if test=\"@a\"><b><xsl:attribute name=\"x\">v</xsl:attribute></b></xsl:if>") =
        [([], "@a".toList)] := by
    rw [hmarkup, String.toList_ofList]
    decide +kernel
  rw [hhits] at hconditions
  refine ⟨hconvert, resolved, hcourse.resolves,
    hconditions.2 fun found hfound decoded hdecoded => ?_⟩
  obtain rfl := List.mem_singleton.1 hfound
  rw [Html.decodeReferences_of_not_mem (by decide)] at hdecoded
  obtain rfl := Except.ok.inj hdecoded
  decide

/-- The test stands for a quotation mark, and is cut off before it. -/
theorem not_readsBack_quote : ¬∀ template out, convert template = .ok out →
    List.Forall₂ ReadsBack (condition.hits (changeMarkup template)) (condition.hits out) := by
  intro h
  have hmarkup :
      changeMarkup "<xsl:if test=\"@a='&quot;'\">x</xsl:if>" =
        "<xf:if is=\"@a='&quot;'\">x</xf:if>" := by
    rw [String.toList_ofList, String.toList_ofList]
    decide +kernel
  have hexpression : convertExpression "@a='&quot;'" = .ok "$a=='\"'" := by decide +kernel
  have hconvert :
      convert "<xsl:if test=\"@a='&quot;'\">x</xsl:if>" =
        .ok "<xf:if is=\"$a=='\"'\">x</xf:if>" := by
    rw [convert, hmarkup, String.toList_ofList, String.toList_ofList]
    decide +kernel
  have hhits : condition.hits (changeMarkup "<xsl:if test=\"@a='&quot;'\">x</xsl:if>") =
      [([], "@a='&quot;'".toList)] := by
    rw [hmarkup, String.toList_ofList]
    decide +kernel
  have hread : condition.hits "<xf:if is=\"$a=='\"'\">x</xf:if>" = [([], "$a=='".toList)] := by
    rw [String.toList_ofList]
    decide +kernel
  have hall := h _ _ hconvert
  rw [hhits, hread, List.forall₂_cons] at hall
  exact absurd (Except.ok.inj (hall.1.2.symm.trans hexpression)) (by decide)

end Template

end LazyEmbed
