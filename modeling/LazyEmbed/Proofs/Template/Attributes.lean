import LazyEmbed.Proofs.Template.Siblings
import Mathlib.Tactic.Choose

/-!
# Attribute elements become attributes

The conversion of an element whose content is attribute elements. Each of them is converted and
folded by itself; then they are moved into the start tag, which goes on until a value with a closing
bracket is in the tag.
-/

namespace LazyEmbed.Template

open MixedContent

/-- A brace of a folded part is one that the forum dialect has. -/
theorem Part.IsFolded.forall_hits_braces {part : Part} (h : part.IsFolded) {rest : Text}
    (hrest : ∀ hit ∈ Leftover.braces.hits rest, hit = none) :
    ∀ hit ∈ Leftover.braces.hits (part.source ++ rest), hit = none := by
  cases part with
  | literal text =>
    rw [Part.source_literal, Pattern.hits_append (passes_braces (h.2 _ (by decide)) _)]
    exact hrest
  | reference name =>
    have hname : '\x7b' ∉ name := IsName.isClean h _ (by decide)
    refine forall_hits_braces_of_run ("$" ++ (name ++ "\x7d")) ?_ (by simp [hname]) hrest
    simp only [Part.source_reference, List.append_assoc]
    exact run_braces_variable _
  | expression text =>
    have htext : '\x7b' ∉ text := h.2.2 _ (by decide)
    refine forall_hits_braces_of_run (" " ++ (text ++ " \x7d\x7d")) ?_ (by simp [htext]) hrest
    simp only [Part.source_expression, List.append_assoc]
    exact run_braces_expression _

/-! ### Folding one content -/

/-- What stands in an attribute element is read as a whole, if it is on one line and no closing tag
of the source dialect is in it. -/
theorem run_attributeBody (name : Name) {content : Text} (hline : '\n' ∉ content)
    (hclosing : ¬("</xsl:" : Text) <:+: content) (rest : Text) :
    Dialect.attributeBody.reader.run (attributeElement (name, content) ++ rest) =
      some ((attributeOpening name, content), attributeClosing ++ rest) := by
  have hshortest :
      (Reader.shortest (· ≠ '\n') (.ahead fun text => "</xsl:attribute".toList.isPrefixOf text)).run
      (content ++ (attributeClosing ++ rest)) = some ((content, ()), attributeClosing ++ rest) := by
    refine Reader.run_shortest_append (Text.forall_ne_iff.2 hline)
      (fun first second heq hne => ?_) rfl
    have hmisses : Text.Misses "</xsl:" content (attributeClosing ++ rest) :=
      Text.misses_of_not_isInfix hclosing fun c hc => Option.some.inj hc ▸ by decide
    have hlonger : ("</xsl:" : Text) <+: "</xsl:attribute" := by decide
    have hbegins := hmisses.of_isPrefix hlonger first second heq hne
    rw [Reader.run_ahead, if_neg (by rwa [List.isPrefixOf_iff_prefix])]
  have hname : '>' ∉ name.val := fun hmem => absurd (name.property.2 '>' hmem) (by decide)
  have htag : '>' ∉ (" name=\"" : Text) ++ (name.val ++ ['"']) := by
    simp only [List.mem_append, not_or]
    exact ⟨by decide, hname, by decide⟩
  have hinside : (Reader.many1 (· ≠ '>')).run ((" name=\"" ++ (name.val ++ ['"'])) ++
      '>' :: (content ++ (attributeClosing ++ rest))) =
        some (" name=\"" ++ (name.val ++ ['"']), '>' :: (content ++ (attributeClosing ++ rest))) :=
    Reader.run_many1_ne (by simp) htag _
  have hclose : ∀ behind : Text, (Reader.literal ">").run ('>' :: behind) = some ((), behind) :=
    Reader.run_literal_singleton '>'
  have hopening :
      attributeOpening name = "<xsl:attribute" ++
        ((" name=\"" ++ (name.val ++ ['"'])) ++ ['>']) := by
    have hopen : ("<xsl:attribute name=\"" : Text) = "<xsl:attribute" ++ " name=\"" := by decide
    change "<xsl:attribute name=\"" ++ (name.val ++ ['"', '>']) = _
    rw [hopen]
    simp
  have htext : attributeElement (name, content) ++ rest = "<xsl:attribute" ++
      ((" name=\"" ++ (name.val ++ ['"'])) ++ '>' :: (content ++ (attributeClosing ++ rest))) := by
    rw [attributeElement, hopening]
    simp
  rw [htext, Dialect.attributeBody, Pattern.run_after_append]
  simp only [Reader.run_bind, hinside, Option.bind_some, hclose, hshortest, Reader.run_pure]
  rw [hopening, List.append_assoc]
  rfl

/-- Each attribute element is folded by itself. -/
theorem foldAttributeBodies_element (name : Name) {content folded : Text} (hline : '\n' ∉ content)
    (hclosing : ¬("</xsl:" : Text) <:+: content) (hfold : foldConditionals content = .ok folded)
    (rest : Text) :
    Dialect.foldAttributeBodies (attributeElement (name, content) ++ rest) =
      (Dialect.foldAttributeBodies rest).map (attributeElement (name, folded) ++ ·) := by
  have hbegins : Dialect.attributeBody.BeginsWith "<xsl:attribute" := Pattern.after_beginsWith _ _ _
  have htag : Dialect.attributeBody.Passes attributeClosing rest :=
    hbegins.passes (Text.misses_of_apart (by decide) rest)
  rw [Dialect.foldAttributeBodies,
    Pattern.replaceM_of_run_eq_some _ (run_attributeBody name hline hclosing rest)]
  simp only [hfold, Except.mapError, bind, Except.bind, pure, Except.pure]
  rw [Pattern.replaceM_append _ htag]
  cases Dialect.attributeBody.replaceM _ rest with
  | error fault => rfl
  | ok written => simp [Except.map, attributeElement]

/-- The attribute elements of an element are folded one by one. -/
theorem Host.foldAttributeBodies_text_map (host : Host) {ι : Type} (before after : ι → Name × Text)
    {items : List ι}
    (h : ∀ item ∈ items, ∀ rest,
      Dialect.foldAttributeBodies (attributeElement (before item) ++ rest) =
        (Dialect.foldAttributeBodies rest).map (attributeElement (after item) ++ ·)) :
    Dialect.foldAttributeBodies (host.text [] (items.map before)) =
      .ok (host.text [] (items.map after)) := by
  have hbegins : Dialect.attributeBody.BeginsWith "<xsl:attribute" := Pattern.after_beginsWith _ _ _
  have hlonger : ("<xsl:" : Text) <+: "<xsl:attribute" := by decide
  have hhead : ∀ rest, Dialect.attributeBody.Passes host.head rest := fun rest =>
    hbegins.passes ((host.misses_head (by decide) rest).of_isPrefix hlonger)
  have hlast : Dialect.attributeBody.Passes host.last [] :=
    hbegins.passes ((host.misses_last (by decide) []).of_isPrefix hlonger)
  have hsplit :
      ∀ items, host.text [] items = host.head ++ (items.flatMap attributeElement ++ host.last) := by
    simp [Host.text, Host.tagWith, Host.head]
  rw [hsplit, hsplit, Dialect.foldAttributeBodies, Pattern.replaceM_append _ (hhead _),
    List.flatMap_map, Pattern.replaceM_flatMap _ h, Pattern.replaceM_eq_self _ hlast,
    List.flatMap_map]
  rfl

structure Sibling where
  name : Name
  content : Content
  isTemplate : content.IsTemplate
  ne_nil : content.template ≠ []

namespace Sibling

variable (sibling : Sibling)

def source : Name × Text := (sibling.name, sibling.content.template)

def translation : Name × Text := (sibling.name, sibling.content.source)

def value : Text := sibling.content.parts.flatMap Part.source

def written : Name × Text := (sibling.name, sibling.value)

theorem isFolded : ∀ part ∈ sibling.content.parts, part.IsFolded :=
  Content.isFolded_parts (Content.wellFormed_of_isTemplate sibling.isTemplate)

theorem foldConditionals_translation :
    foldConditionals sibling.content.source = .ok sibling.value :=
  Content.foldConditionals_source (Content.wellFormed_of_isTemplate sibling.isTemplate)

theorem exists_tokens :
    ∃ tokens, Stage sourceShapes tokens ∧ texts tokens = sibling.content.template ∧
    texts (tokens.map Token.toFinal) = sibling.content.source := by
  obtain ⟨tokens, htokens⟩ := Content.exists_hasTokens sibling.isTemplate
  have hstage := htokens.stage [] ⟨trivial, List.forall_mem_nil _⟩ (by simp [StartsApart])
  rw [List.append_nil] at hstage
  exact ⟨tokens, hstage, htokens.source_eq, htokens.final_eq⟩

theorem convert_template : convert sibling.content.template = .ok sibling.content.source := by
  obtain ⟨tokens, hstage, hsource, hfinal⟩ := sibling.exists_tokens
  rw [← hsource, convert_texts hstage, hfinal]

theorem forall_hits_braces_value {rest : Text} (h : ∀ hit ∈ Leftover.braces.hits rest, hit = none) :
    ∀ hit ∈ Leftover.braces.hits (sibling.value ++ rest), hit = none := by
  have hfolded := sibling.isFolded
  unfold value
  generalize sibling.content.parts = parts at hfolded ⊢
  induction parts with
  | nil => exact h
  | cons part parts ih =>
    obtain ⟨hpart, hparts⟩ := List.forall_mem_cons.1 hfolded
    rw [List.flatMap_cons, List.append_assoc]
    exact hpart.forall_hits_braces (ih hparts)

theorem isValue : IsValue sibling.value := by
  have hparts : ∀ {c : Char}, (∀ part ∈ sibling.content.parts, c ∉ part.source) →
      c ∉ sibling.value := by
    intro c h hmem
    obtain ⟨part, hpart, hmem⟩ := List.mem_flatMap.1 hmem
    exact h part hpart hmem
  refine ⟨hparts fun part hpart => (sibling.isFolded part hpart).not_mem_source, hparts ?_,
    hparts ?_, fun _ => sibling.forall_hits_braces_value⟩
  · exact Content.not_mem_parts (by decide) (Content.not_mem_source sibling.isTemplate (.inr rfl))
  · exact Content.not_mem_parts (by decide) (Content.not_mem_source sibling.isTemplate (.inl rfl))

theorem no_line_translation : '\n' ∉ sibling.content.source :=
  Content.not_mem_source sibling.isTemplate (.inr rfl)

theorem no_closing_translation : ¬("</xsl:" : Text) <:+: sibling.content.source := by
  obtain ⟨tokens, hstage, -, hfinal⟩ := sibling.exists_tokens
  rw [← hfinal]
  exact (misses_closing hstage.toFinal).not_isInfix (by decide)

end Sibling

/-- Each content is folded. -/
theorem foldAttributeBodies_text (host : Host) (siblings : List Sibling) :
    Dialect.foldAttributeBodies (host.text [] (siblings.map Sibling.translation)) =
      .ok (host.text [] (siblings.map Sibling.written)) :=
  host.foldAttributeBodies_text_map _ _ fun sibling _ =>
    foldAttributeBodies_element _ sibling.no_line_translation sibling.no_closing_translation
    sibling.foldConditionals_translation

/-- What is left to do once every content is converted and folded. -/
theorem convert_element (host : Host) (siblings : List Sibling) :
    convert (host.text [] (siblings.map Sibling.source)) = (do
      let template := inlineAttributes (host.text [] (siblings.map Sibling.written))
      Leftover.check template
      pure (restoreBraces template)) := by
  choose tokens hstage hsource hfinal using Sibling.exists_tokens
  let items := siblings.map fun sibling => (sibling.name, tokens sibling)
  have hsourceText : (host.layout items).text = host.text [] (siblings.map Sibling.source) := by
    rw [host.layout_text, List.map_map]
    congr 2
    funext sibling
    exact congrArg (Prod.mk sibling.name) (hsource sibling)
  have hfinalText : ((host.layout items).map Token.toFinal).text =
      host.text [] (siblings.map Sibling.translation) := by
    rw [host.layout_map, host.layout_text, List.map_map, List.map_map]
    congr 2
    funext sibling
    exact congrArg (Prod.mk sibling.name) (hfinal sibling)
  have hitems : (host.layout items).InStage sourceShapes := by
    refine host.inStage_layout fun item hitem => ?_
    obtain ⟨sibling, -, rfl⟩ := List.mem_map.1 hitem
    exact hstage sibling
  rw [← hsourceText, convert_text hitems, hfinalText, foldAttributeBodies_text]
  rfl

/-! ### What the conversion gives -/

section

variable (host : Host)

/-- Attributes move one after the other as long as none but the last value holds the bracket. -/
theorem convert_moved {siblings : List Sibling}
    (h : ∀ sibling ∈ siblings.dropLast, '>' ∉ sibling.value) :
    convert (host.text [] (siblings.map Sibling.source)) =
      .ok (host.text (siblings.map Sibling.written) []) := by
  have hvalue : ∀ item ∈ siblings.map Sibling.written, IsValue item.2 := by
    intro item hitem
    obtain ⟨sibling, -, rfl⟩ := List.mem_map.1 hitem
    exact sibling.isValue
  have hmoved : ∀ item ∈ (siblings.map Sibling.written).dropLast, '>' ∉ item.2 := by
    intro item hitem
    rw [← List.map_dropLast] at hitem
    obtain ⟨sibling, hsibling, rfl⟩ := List.mem_map.1 hitem
    exact h sibling hsibling
  have hinline := host.inlineAttributes_text (List.forall_mem_nil _) hvalue hmoved []
  have hmovable : ∀ item ∈ siblings.map Sibling.written, IsMovable item.2 := fun item hitem =>
    (hvalue item hitem).isMovable
  have hself := inlineAttributes_eq_self ((host.no_element_text hmovable).not_isInfix (by decide))
  rw [List.append_nil, List.nil_append, hself] at hinline
  rw [convert_element, hinline]
  simp only [host.check_text hmovable, host.restoreBraces_text hmovable]
  rfl

/-- The first value with a closing bracket keeps the next attribute element from being moved. -/
theorem convert_refused {before : List Sibling} {first : Sibling}
    (hbefore : ∀ sibling ∈ before, '>' ∉ sibling.value) (hfirst : '>' ∈ first.value)
    (next : Sibling) (after : List Sibling) :
    convert (host.text [] ((before ++ first :: next :: after).map Sibling.source)) =
      .error (.foreignElement (attributeOpening next.name)) := by
  have hvalue : ∀ item ∈ (before ++ [first]).map Sibling.written, IsValue item.2 := by
    intro item hitem
    obtain ⟨sibling, -, rfl⟩ := List.mem_map.1 hitem
    exact sibling.isValue
  have hmoved : ∀ item ∈ ((before ++ [first]).map Sibling.written).dropLast, '>' ∉ item.2 := by
    intro item hitem
    rw [← List.map_dropLast, List.dropLast_concat] at hitem
    obtain ⟨sibling, hsibling, rfl⟩ := List.mem_map.1 hitem
    exact hbefore sibling hsibling
  have hclose : '>' ∈ host.tagWith ((before ++ [first]).map Sibling.written) := by
    refine List.mem_append_right _ (List.mem_flatMap.2 ⟨first.written, by simp, ?_⟩)
    simp [attributeText, Sibling.written, hfirst]
  have hsplit : before ++ first :: next :: after = (before ++ [first]) ++ next :: after := by simp
  have hinline := host.inlineAttributes_text (List.forall_mem_nil _) hvalue hmoved
    ((next :: after).map Sibling.written)
  rw [List.nil_append] at hinline
  rw [convert_element, hsplit, List.map_append, hinline, List.map_cons]
  simp only [host.check_inlineAttributes hvalue hclose]
  rfl

end

/-- The first value with a bracket that is not the last, with what stands around it. -/
theorem exists_first_close {siblings : List Sibling}
    (h : ∃ sibling ∈ siblings.dropLast, '>' ∈ sibling.value) :
    ∃ before first next after, siblings = before ++ first :: next :: after ∧
      (∀ sibling ∈ before, '>' ∉ sibling.value) ∧ '>' ∈ first.value := by
  induction siblings with
  | nil => simp at h
  | cons first siblings ih =>
    cases siblings with
    | nil => simp at h
    | cons next after =>
      by_cases hfirst : '>' ∈ first.value
      · exact ⟨[], first, next, after, rfl, List.forall_mem_nil _, hfirst⟩
      · obtain ⟨sibling, hmem, hclose⟩ := h
        obtain rfl | hmem := List.mem_cons.1 hmem
        · exact absurd hclose hfirst
        · obtain ⟨before, second, third, others, heq, hbefore, hsecond⟩ :=
            ih ⟨sibling, hmem, hclose⟩
          exact ⟨first :: before, second, third, others, by rw [heq, List.cons_append],
            List.forall_mem_cons.2 ⟨hfirst, hbefore⟩, hsecond⟩

/-- The values are the folded translations of the contents. All attribute elements become
attributes, in their order, exactly if no value but the last has a closing bracket; otherwise an
attribute element behind the first is reported. -/
theorem convert_siblings (host : Host) (siblings : List Sibling) :
    (∀ sibling ∈ siblings, ∃ translated, convert sibling.content.template = .ok translated ∧
      foldConditionals translated = .ok sibling.value) ∧
    (convert (host.text [] (siblings.map Sibling.source)) =
        .ok (host.text (siblings.map Sibling.written) []) ↔
      ∀ sibling ∈ siblings.dropLast, '>' ∉ sibling.value) ∧
    (convert (host.text [] (siblings.map Sibling.source)) =
        .ok (host.text (siblings.map Sibling.written) []) ∨
      ∃ next ∈ siblings.tail, convert (host.text [] (siblings.map Sibling.source)) =
        .error (.foreignElement (attributeOpening next.name))) := by
  refine ⟨fun sibling _ => ⟨_, sibling.convert_template, sibling.foldConditionals_translation⟩, ?_⟩
  by_cases hclose : ∀ sibling ∈ siblings.dropLast, '>' ∉ sibling.value
  · have hmoved := convert_moved host hclose
    exact ⟨iff_of_true hmoved hclose, .inl hmoved⟩
  · obtain ⟨before, first, next, after, rfl, hbefore, hfirst⟩ :=
      exists_first_close (by simpa using hclose)
    have hrefused := convert_refused host hbefore hfirst next after
    refine ⟨iff_of_false (fun hmoved => ?_) hclose, .inr ⟨next, ?_, hrefused⟩⟩
    · cases hrefused.symm.trans hmoved
    · cases before <;> simp

set_option maxRecDepth 2000 in
/-- A comparison in the first value keeps the second attribute element behind the tag. -/
theorem convert_siblings_comparison :
    ∃ (host : Host) (siblings : List Sibling),
      host.text [] (siblings.map Sibling.source) =
        ("<b><xsl:attribute name=\"x\"><xsl:if test=\"@a>1\">y</xsl:if></xsl:attribute>" ++
          "<xsl:attribute name=\"z\">w</xsl:attribute></b>").toList ∧
      host.text (siblings.map Sibling.written) [] =
        "<b x=\"\x7b\x7b $a>1 ? 'y' : '' \x7d\x7d\" z=\"w\"></b>" ∧
      convert (host.text [] (siblings.map Sibling.source)) ≠
        .ok (host.text (siblings.map Sibling.written) []) := by
  have hname : ∀ c ∈ ['a', 'x', 'z'], IsName [c] := by
    have hword : ∀ c ∈ ['a', 'x', 'z'], Text.isWord c = true := by decide
    exact fun c hc => ⟨List.cons_ne_nil _ _, by simpa using hword c hc⟩
  have hplain : ∀ c ∈ ['y', 'w'], IsPlainText [c] := by
    have hmeaning : ∀ c ∈ ['y', 'w'],
        (∀ d ∈ ['<', '&', '\'', '"', '\x7b', '\x7d', mark, '\n'], d ∉ [c]) ∧ ' ' ∉ [c] := by
      decide
    exact fun c hc => ⟨(hmeaning c hc).1,
      fun hwithin => (hmeaning c hc).2 (hwithin.subset (by decide))⟩
  let host : Host := ⟨['b'], [], ⟨'b', [], rfl, by decide, by simp⟩, by simp⟩
  let first : Sibling := ⟨⟨['x'], hname 'x' (by decide)⟩,
    .conditional (.exceeds ['a'] ['1']) (.literal ['y'] .nil) .nil,
    ⟨⟨⟨hname 'a' (by decide), List.cons_ne_nil _ _, by decide⟩, by simp⟩,
      ⟨by decide, hplain 'y' (by decide), not_false, trivial⟩, trivial⟩,
    List.cons_ne_nil _ _⟩
  let second : Sibling := ⟨⟨['z'], hname 'z' (by decide)⟩, .literal ['w'] .nil,
    ⟨hplain 'w' (by decide), not_false, trivial⟩, List.cons_ne_nil _ _⟩
  have hvalue : first.value = "\x7b\x7b $a>1 ? 'y' : '' \x7d\x7d" := rfl
  have hclose : '>' ∈ first.value := by
    rw [hvalue]
    decide
  have hrefused := convert_refused host (List.forall_mem_nil _) hclose second []
  refine ⟨host, [first, second], ?_, ?_, fun hmoved => ?_⟩
  · rw [String.toList_append, String.toList_ofList, String.toList_ofList]
    rfl
  · rw [String.toList_ofList]
    rfl
  · cases hrefused.symm.trans hmoved

end LazyEmbed.Template
