import LazyEmbed.Proofs.Template.Attributes
import LazyEmbed.Proofs.Template.QuotedValue

/-!
# The markup before an attribute element

An attribute element is moved into whatever stands between the brackets before it, as long as that
does not begin with a namespace. So it goes into a closing tag, a tag that closes itself or a
comment as it goes into the start tag of its parent, and it is reported only behind a tag with a
namespace, such as that of a conditional.
-/

namespace LazyEmbed.Template

open MixedContent

namespace Inlinable

theorem run_of_isNamespaced {tag : Text} (h : isNamespaced tag = true) (rest : Text) :
    pattern.reader.run ('<' :: (tag ++ '>' :: rest)) = none := by
  have hrun : pattern.reader.run ("<" ++ (tag ++ '>' :: rest)) = none := by
    rw [pattern, Pattern.run_after_append, body, Reader.run_bind, Reader.run_ahead,
      isNamespaced_append, h]
    rfl
  exact hrun

theorem isNamespaced_of_run {text rest : Text} {found : Inlinable}
    (h : pattern.reader.run text = some (found, rest)) : isNamespaced found.tag = false := by
  obtain ⟨behind, htext⟩ := exists_of_run h
  cases hnamespaced : isNamespaced found.tag with
  | false => rfl
  | true =>
    rw [htext, run_of_isNamespaced hnamespaced] at h
    cases h

end Inlinable

/-- No angle bracket is open at the end of the text. -/
def IsClosed (text : Text) : Prop := ∀ before rest, text = before ++ '<' :: rest → '>' ∈ rest

/-- The tag, without its brackets, opens an element without a namespace. -/
def OpensElement (tag : Text) : Prop :=
  Inlinable.isNamespaced tag = false ∧ (∃ c ∈ tag.head?, Text.isWord c = true) ∧
    tag.getLast? ≠ some '/'

/-- A template in which an attribute element stands directly behind some markup, whatever that
is. -/
structure Neighborhood where
  front : List Token
  sibling : Sibling
  behind : List Token
  /-- What becomes of all that is in front of the markup. -/
  start : Text
  /-- What becomes of the markup, without its brackets. -/
  tag : Text
  front_stage : Stage sourceShapes front
  behind_stage : Stage sourceShapes behind
  front_eq : texts (front.map Token.toFinal) = start ++ '<' :: (tag ++ ['>'])
  isClosed : IsClosed start
  no_open : '<' ∉ tag
  no_close : '>' ∉ tag

namespace Neighborhood

variable (place : Neighborhood)

def template :
    Text := texts place.front ++ (attributeElement place.sibling.source ++ texts place.behind)

def left : Text :=
  texts (place.front.map Token.toFinal) ++
    (attributeElement place.sibling.written ++ texts (place.behind.map Token.toFinal))

def written : Text := attributeText (place.sibling.name.val, place.sibling.value)

def moved : Text :=
  place.start ++
    '<' :: (place.tag ++ (place.written ++ '>' :: texts (place.behind.map Token.toFinal)))

/-! ### Up to the attribute element -/

theorem not_element_front : ¬("<xsl:" : Text) <:+: place.start ++ '<' :: (place.tag ++ ['>']) := by
  rw [← place.front_eq]
  exact (misses_element place.front_stage.toFinal).not_isInfix (by decide)

theorem misses_element_front (rest : Text) :
    Text.Misses "<xsl:" (place.start ++ '<' :: (place.tag ++ ['>'])) rest := by
  have hclosing : Text.Misses "<xsl:" ['>'] rest := Text.misses_of_apart (by decide) rest
  have hwhole : place.start ++ '<' :: (place.tag ++ ['>']) = (place.start ++ '<' :: place.tag) ++
      ['>'] := by simp
  have hnot : ¬("<xsl:" : Text) <:+: place.start ++ '<' :: place.tag := fun h =>
    place.not_element_front (hwhole ▸ h.trans (List.prefix_append _ _).isInfix)
  rw [hwhole]
  refine (Text.misses_of_not_isInfix hnot fun c hc => ?_).append hclosing
  obtain rfl : '>' = c := by simpa using hc
  decide

/-- The brackets of what is in front of the markup are closed again, and no attribute element is
behind them. -/
theorem passes_start (rest : Text) :
    Inlinable.pattern.Passes place.start ('<' :: (place.tag ++ '>' :: rest)) := by
  intro before after heq hne
  rw [Option.eq_none_iff_forall_ne_some]
  rintro ⟨found, left⟩ hrun
  obtain ⟨htag, -, -⟩ := Inlinable.parts_of_run hrun
  obtain ⟨element, htext⟩ := Inlinable.exists_of_run hrun
  obtain ⟨c, after, rfl⟩ := List.exists_cons_of_ne_nil hne
  rw [List.cons_append] at htext
  obtain ⟨rfl, hrest⟩ := List.cons.inj htext
  obtain ⟨inside, behind, rfl, hinside⟩ :=
    List.eq_append_cons_of_mem (place.isClosed before after heq)
  rw [List.append_assoc, List.cons_append] at hrest
  obtain ⟨-, helement⟩ := Text.append_cons_inj hinside htag hrest
  refine place.misses_element_front rest (before ++ '<' :: (inside ++ ['>']))
    (behind ++ '<' :: (place.tag ++ ['>'])) (by rw [heq]; simp) (by simp) ?_
  rw [List.append_assoc, List.cons_append, List.append_assoc, List.singleton_append, helement]
  exact List.prefix_append _ _

theorem left_eq : place.left = place.start ++ '<' :: (place.tag ++
    '>' :: (attributeElement place.sibling.written ++ texts (place.behind.map Token.toFinal))) := by
  rw [left, place.front_eq, List.append_assoc, List.cons_append, List.append_assoc]
  rfl

/-! ### Converting -/

theorem foldAttributeBodies_translation :
    Dialect.foldAttributeBodies (texts (place.front.map Token.toFinal) ++
      (attributeElement place.sibling.translation ++ texts (place.behind.map Token.toFinal))) =
      .ok place.left := by
  have hbegins : Dialect.attributeBody.BeginsWith "<xsl:attribute" := Pattern.after_beginsWith _ _ _
  have hlonger : ("<xsl:" : Text) <+: "<xsl:attribute" := by decide
  have hfront : ∀ rest, Dialect.attributeBody.Passes (texts (place.front.map Token.toFinal)) rest :=
    fun rest =>
    hbegins.passes ((place.front_eq ▸ place.misses_element_front rest).of_isPrefix hlonger)
  have hbehind : Dialect.attributeBody.Passes (texts (place.behind.map Token.toFinal)) [] :=
    hbegins.passes ((misses_element place.behind_stage.toFinal).of_isPrefix hlonger)
  rw [Dialect.foldAttributeBodies, Pattern.replaceM_append _ (hfront _),
    ← Dialect.foldAttributeBodies, Sibling.translation,
    foldAttributeBodies_element _ place.sibling.no_line_translation
      place.sibling.no_closing_translation place.sibling.foldConditionals_translation,
    Dialect.foldAttributeBodies, Pattern.replaceM_eq_self _ hbehind]
  rfl

/-- The outcome for a place is decided by the check on what moving its attribute gives. -/
theorem convert_template :
    convert place.template = (Leftover.check (inlineAttributes place.left)).map fun _ =>
      restoreBraces (inlineAttributes place.left) := by
  obtain ⟨tokens, hstage, hsource, hfinal⟩ := place.sibling.exists_tokens
  let layout : Layout := ⟨place.front,
    [⟨attributeOpening place.sibling.name, tokens, isFixed_attributeOpening _⟩,
    ⟨attributeClosing, place.behind, isFixed_attributeClosing⟩]⟩
  have hlayout : layout.InStage sourceShapes := by
    refine ⟨place.front_stage, fun segment hsegment => ?_⟩
    obtain rfl | rfl : segment = _ ∨ segment = _ := by simpa [layout] using hsegment
    · exact hstage
    · exact place.behind_stage
  have htext : layout.text = place.template := by
    simp [layout, Layout.text, template, attributeElement, Sibling.source, hsource]
  have hfinalText : (layout.map Token.toFinal).text = texts (place.front.map Token.toFinal) ++
      (attributeElement place.sibling.translation ++ texts (place.behind.map Token.toFinal)) := by
    simp [layout, Layout.text, Layout.map, attributeElement, Sibling.translation, hfinal]
  rw [← htext, convert_text hlayout, hfinalText, place.foldAttributeBodies_translation]
  rfl

/-! ### Moving -/

theorem inlineFirst?_left (h : Inlinable.isNamespaced place.tag = false) :
    inlineFirst? place.left = some place.moved := by
  have hrun : Inlinable.pattern.reader.run ('<' :: (place.tag ++ '>' ::
      (attributeElement place.sibling.written ++ texts (place.behind.map Token.toFinal)))) = _ :=
    Host.run_inlinable_tag place.no_close h place.sibling.written place.sibling.isValue.isMovable _
  rw [inlineFirst?, place.left_eq, Pattern.splitFirst?_append (place.passes_start _),
    Pattern.splitFirst?_of_run_eq_some hrun]
  simp [Inlinable.inlined, moved, written, attributeText, Sibling.written]

/-- A word is in the text with the attribute moved only if it is before the attribute, in its value
or behind it. -/
theorem infix_moved {word : Text} (hblank : ' ' ∉ word) (hquote : '"' ∉ word)
    (h : word <:+: place.moved) :
    word <:+: place.start ++ '<' :: (place.tag ++ ['>']) ∨
      word <:+: place.sibling.name.val ++ ['='] ∨
      word <:+: place.sibling.value ∨ word <:+: '>' :: texts (place.behind.map Token.toFinal) := by
  have htext : place.moved = (place.start ++ '<' :: place.tag) ++
      ' ' :: (place.sibling.name.val ++ ['='] ++ '"' ::
        (place.sibling.value ++ '"' :: ('>' :: texts (place.behind.map Token.toFinal)))) := by
    simp [moved, written, attributeText]
  rw [htext] at h
  obtain hfront | h := Text.isInfix_append_cons h hblank
  · exact .inl (hfront.trans ⟨[], ['>'], by simp⟩)
  obtain hname | h := Text.isInfix_append_cons h hquote
  · exact .inr (.inl hname)
  · exact .inr (.inr (Text.isInfix_append_cons h hquote))

/-- What begins in none of the tokens, and is not in the value, is not in the text with the
attribute moved. -/
theorem not_infix_moved {c : Char} {word : Text} (hblank : ' ' ∉ c :: word)
    (hquote : '"' ∉ c :: word) (hclose : c ≠ '>') (hequals : c ≠ '=')
    (hword : Text.isWord c = false) (hvalue : c ∉ place.sibling.value)
    (h : ∀ tokens, Stage finalShapes tokens → ¬c :: word <:+: texts tokens) :
    ¬c :: word <:+: place.moved := by
  intro hmoved
  obtain hfront | hname | hinside | hbehind := place.infix_moved hblank hquote hmoved
  · exact h _ place.front_stage.toFinal (place.front_eq ▸ hfront)
  · have hmem : c ∈ place.sibling.name.val ++ ['='] := hname.subset List.mem_cons_self
    obtain hmem | hmem := List.mem_append.1 hmem
    · exact Bool.noConfusion (hword.symm.trans (place.sibling.name.property.2 c hmem))
    · exact hequals (List.mem_singleton.1 hmem)
  · exact hvalue (hinside.subset List.mem_cons_self)
  · obtain hbegins | hlater := List.infix_cons_iff.1 hbehind
    · exact hclose (List.cons_prefix_cons.1 hbegins).1
    · exact h _ place.behind_stage.toFinal hlater

theorem not_element_moved : ¬("<xsl:" : Text) <:+: place.moved := by
  have hsplit : ("<xsl:" : Text) = '<' :: ("xsl:" : Text) := by decide
  rw [hsplit]
  refine place.not_infix_moved (by decide) (by decide) (by decide) (by decide) (by decide)
    place.sibling.isValue.no_open fun tokens htokens => ?_
  exact hsplit ▸ (misses_element htokens).not_isInfix (by decide)

theorem inlineAttributes_left (h : Inlinable.isNamespaced place.tag = false) :
    inlineAttributes place.left = place.moved := by
  rw [inlineAttributes_of_inlineFirst? (place.inlineFirst?_left h),
    inlineAttributes_eq_self place.not_element_moved]

theorem swap_moved {reference new : Text} (href : reference ∈ braceReferences) :
    Markup.swap ('&' :: reference) new (List.cons_ne_nil _ _) place.moved = place.moved := by
  have hapart : ∀ reference ∈ braceReferences, ' ' ∉ '&' :: reference ∧
      '"' ∉ '&' :: reference := by decide
  have hnot : ¬ '&' :: reference <:+: place.moved := by
    refine place.not_infix_moved (hapart _ href).1 (hapart _ href).2 (by decide) (by decide)
      (by decide) place.sibling.isValue.no_reference fun tokens htokens => ?_
    have hmisses : Text.Misses ('&' :: reference) (texts tokens) [] :=
      htokens.misses (fun _ _ => Token.misses_reference href) (by simp)
    exact hmisses.not_isInfix (List.cons_ne_nil _ _)
  exact Pattern.replace_eq_self
    _ ((Pattern.after_beginsWith _ _ _).passes (Text.misses_of_not_isInfix hnot (by simp)))

theorem restoreBraces_moved : restoreBraces place.moved = place.moved :=
  (congrArg _ (place.swap_moved List.mem_cons_self)).trans
    (place.swap_moved (List.mem_cons_of_mem _ List.mem_cons_self))

theorem not_hasLone_moved : ¬HasLone place.moved := by
  have htexts : ∀ tokens, Stage finalShapes tokens → ¬HasLone (texts tokens) :=
    fun tokens htokens =>
    (brace?_eq_none_iff _).1 (brace?_texts htokens)
  have hvalue : ¬HasLone place.sibling.value := by
    have hnone := place.sibling.isValue.no_brace [] (by simp)
    rw [List.append_nil] at hnone
    exact (brace?_eq_none_iff _).1 (brace?_eq_none hnone)
  have hname : '\x7b' ∉ ' ' :: (place.sibling.name.val ++ "=\"") := by
    have hname : '\x7b' ∉ place.sibling.name.val :=
      place.sibling.name.property.isClean '\x7b' (by decide)
    simp [hname]
  have htext :
      place.moved = (place.start ++ '<' :: place.tag) ++
        (' ' :: (place.sibling.name.val ++ "=\"") ++
          (place.sibling.value ++ ("\">" ++ texts (place.behind.map Token.toFinal)))) := by
    simp [moved, written, attributeText]
  intro h
  rw [htext] at h
  obtain hfront | h := h.of_append
  · refine htexts _ place.front_stage.toFinal ?_
    have hwhole := hfront.append_right (parted_cons (c := '>') (by decide) (by decide) _ [])
    rw [place.front_eq]
    simpa using hwhole
  obtain hvalue' | h := (h.of_append_left hname).of_append
  · exact hvalue hvalue'
  · exact htexts _ place.behind_stage.toFinal (h.of_append_left (by decide))

/-! ### What is converted and what is refused -/

theorem convert_of_not_namespaced (h : Inlinable.isNamespaced place.tag = false) :
    convert place.template = .ok place.moved := by
  have hcheck : Leftover.check place.moved = .ok () :=
    check_eq_ok_iff.2 ⟨place.not_element_moved, (brace?_eq_none_iff _).2 place.not_hasLone_moved⟩
  rw [place.convert_template, place.inlineAttributes_left h, hcheck, place.restoreBraces_moved]
  rfl

/-- An attribute behind an element with a namespace is refused, naming the attribute element. -/
theorem convert_of_namespaced (h : Inlinable.isNamespaced place.tag = true) :
    convert place.template = .error (.foreignElement (attributeOpening place.sibling.name)) := by
  have hbegins : Inlinable.pattern.BeginsWith ['<'] := Pattern.after_beginsWith _ _ _
  have htag : ∀ rest, Inlinable.pattern.Passes ('<' :: (place.tag ++ ['>'])) rest := by
    intro rest
    refine Pattern.passes_cons ?_
      (hbegins.passes (Text.misses_of_not_mem (by simp [place.no_open])))
    rw [List.append_assoc]
    exact Inlinable.run_of_isNamespaced h rest
  have hfront : ∀ rest, Inlinable.pattern.Passes
      (place.start ++ '<' :: (place.tag ++ ['>']) ++ attributeOpening place.sibling.name) rest := by
    intro rest
    refine Pattern.Passes.append (Pattern.Passes.append ?_ (htag _))
      (Host.passes_inlinable_attributeOpening _ rest)
    rw [List.cons_append, List.append_assoc]
    exact place.passes_start _
  have hleft : place.left =
      (place.start ++ '<' :: (place.tag ++ ['>']) ++ attributeOpening place.sibling.name) ++
        (place.sibling.value ++ attributeClosing ++ texts (place.behind.map Token.toFinal)) := by
    simp [left, place.front_eq, attributeElement, Sibling.written]
  have helement : ∀ rest,
      Leftover.element? (place.start ++ '<' :: (place.tag ++ ['>']) ++
          attributeOpening place.sibling.name ++ rest) =
        some (attributeOpening place.sibling.name) := by
    intro rest
    have hbegins : Leftover.element.BeginsWith "<xsl:" := Pattern.after_beginsWith _ _ _
    rw [List.append_assoc, Leftover.element?,
      Pattern.hits_append (hbegins.passes (place.misses_element_front _)),
      Pattern.hits_of_run_eq_some (Host.run_element _ rest), List.head?_cons]
  rw [place.convert_template, hleft, inlineAttributes_append hfront, Leftover.check, helement]
  rfl

end Neighborhood

/-- An attribute element is moved into the markup before it exactly if that has no namespace, and
reported otherwise. So behind markup that opens no element it is reported exactly if there is a
namespace in it. Wherever attributes are moved, they are moved between two brackets with no other
closing bracket and no namespace. -/
theorem convert_neighbor (place : Neighborhood) :
    (Inlinable.isNamespaced place.tag = false → convert place.template = .ok place.moved) ∧
      (Inlinable.isNamespaced place.tag = true →
        convert place.template = .error (.foreignElement (attributeOpening place.sibling.name))) ∧
      ((¬OpensElement place.tag →
          ∃ fragment, convert place.template = .error (.foreignElement fragment)) ↔
        OpensElement place.tag ∨ Inlinable.isNamespaced place.tag = true) ∧
      ∀ text later before rest : Text, ∀ found : Inlinable, Moves text later →
        Inlinable.pattern.splitFirst? later = some (before, found, rest) →
        '>' ∉ found.tag ∧ Inlinable.isNamespaced found.tag = false := by
  refine ⟨place.convert_of_not_namespaced, place.convert_of_namespaced,
    ⟨fun h => ?_, fun h hopens => ?_⟩, ?_⟩
  · by_contra hnot
    obtain ⟨hopens, hnamespaced⟩ := not_or.1 hnot
    obtain ⟨fragment, hfragment⟩ := h hopens
    cases hfragment.symm.trans (place.convert_of_not_namespaced (Bool.eq_false_iff.2 hnamespaced))
  · exact ⟨_, place.convert_of_namespaced (h.resolve_left hopens)⟩
  · intro text later before rest found _ hsplit
    obtain ⟨tail, rfl, hrun⟩ := Pattern.splitFirst?_eq_some hsplit
    exact ⟨(Inlinable.parts_of_run hrun).1, Inlinable.isNamespaced_of_run hrun⟩

theorem isClosed_concat (text : Text) : IsClosed (text ++ ['>']) := by
  intro before rest heq
  obtain rfl | ⟨others, last, rfl⟩ := List.eq_nil_or_concat rest
  · exact absurd (List.append_inj' heq rfl).2 (by decide)
  · have heq : text ++ ['>'] = (before ++ '<' :: others) ++ [last] := by
      simpa [List.concat_eq_append] using heq
    obtain rfl : '>' = last := List.singleton_inj.1 (List.append_inj' heq rfl).2
    simp

theorem startsApart_nil : StartsApart [] := by
  intro token h
  cases h

def letterContent : Content := .literal ['v'] .nil

theorem isTemplate_letterContent : letterContent.IsTemplate := by
  have hplain : (∀ d ∈ ['<', '&', '\'', '"', '\x7b', '\x7d', mark, '\n'], d ∉ ['v']) ∧
      ' ' ∉ ['v'] := by decide
  exact ⟨⟨hplain.1, fun hwithin => hplain.2 (hwithin.subset (by decide))⟩, not_false, trivial⟩

def closingNeighborhood : Neighborhood where
  front := [.chunk ⟨['<', 'b', '>', '<', '/', 'b', '>'], by decide⟩]
  sibling := ⟨⟨['x'], List.cons_ne_nil _ _, by decide⟩, letterContent, isTemplate_letterContent,
    List.cons_ne_nil _ _⟩
  behind := []
  start := ['<', 'b'] ++ ['>']
  tag := ['/', 'b']
  front_stage := ⟨⟨fun _ => startsApart_nil, trivial⟩, by decide⟩
  behind_stage := ⟨trivial, List.forall_mem_nil _⟩
  front_eq := by decide
  isClosed := isClosed_concat ['<', 'b']
  no_open := by decide
  no_close := by decide

/-- A closing tag has no namespace, and gets the attribute. -/
theorem not_refused_closing : ¬∀ place : Neighborhood, ¬OpensElement place.tag →
    ∃ fragment, convert place.template = .error (.foreignElement fragment) := by
  intro h
  have htext :
      closingNeighborhood.template = "<b></b><xsl:attribute name=\"x\">v</xsl:attribute>" := by
    rw [String.toList_ofList]
    decide +kernel
  have hopens : ¬OpensElement closingNeighborhood.tag := by
    rintro ⟨-, ⟨c, hc, hword⟩, -⟩
    obtain rfl : '/' = c := Option.some.inj hc
    exact absurd hword (by decide)
  obtain ⟨fragment, hfragment⟩ := h closingNeighborhood hopens
  have hconvert :
      convert "<b></b><xsl:attribute name=\"x\">v</xsl:attribute>" = .ok "<b></b x=\"v\">" := by
    rw [String.toList_ofList, String.toList_ofList]
    decide +kernel
  rw [← htext] at hconvert
  cases hconvert.symm.trans hfragment

end LazyEmbed.Template
