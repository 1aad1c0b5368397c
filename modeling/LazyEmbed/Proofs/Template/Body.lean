import LazyEmbed.Proofs.Template.Folding
import LazyEmbed.Proofs.Template.Forest

/-!
# Content in the source dialect

What stands inside an attribute element is content with conditionals, and before the conversion it
is written with elements of the source dialect. Its tokens are those of a template, so each pass
does to them what it does to a template, and what all passes leave is the content as the forum
dialect has it.
-/

namespace LazyEmbed.Template

open MixedContent

/-- An expression whose literal, if it has one, can stand in a template and has no mark. -/
def Expression.IsPlain (found : Expression) : Prop :=
  found.WellFormed ∧ ∀ name literal, found = .equals name literal → mark ∉ literal

theorem Expression.IsPlain.isSimple {found : Expression} (h : found.IsPlain) : found.IsSimple := by
  cases found with
  | value name | exceeds name number | ratio | paddedRatio extra => exact h.1
  | equals name literal =>
    obtain ⟨⟨hname, hliteral⟩, hmark⟩ := h
    refine ⟨hname, fun c hc => ?_⟩
    simp only [meaningful, List.mem_cons, List.not_mem_nil, or_false] at hc
    obtain rfl | rfl | rfl | rfl | rfl | rfl | rfl := hc
    · exact hliteral.no_apostrophe
    · exact hliteral.no_quote
    · exact hliteral.no_foreign _ (by decide)
    · exact hliteral.no_foreign _ (by decide)
    · exact hliteral.no_foreign _ (by decide)
    · exact hmark name literal rfl
    · exact hliteral.no_foreign _ (by decide)

structure IsPlainText (text : Text) : Prop where
  no_meaning : ∀ c ∈ ['<', '&', '\'', '"', '\x7b', '\x7d', mark, '\n'], c ∉ text
  no_hint : ¬hintStart <:+: text

def Spelling.ofExpression (found : Expression) (h : found.WellFormed) : Spelling where
  text := found.source
  expression := found
  decodes := Html.decodeReferences_of_not_mem ((Expression.isClean h).1 '&' (by decide))
  wellFormed := h
  no_quote := by
    have hname : ∀ {name : Text}, IsName name → '"' ∉ name :=
      fun hname hmem => absurd (hname.2 _ hmem) (by decide)
    have hnumber : ∀ {number : Text}, IsNumber number → '"' ∉ number :=
      fun hnumber hmem => absurd (hnumber.2 _ hmem) (by decide)
    cases found with
    | value name => simpa [Expression.source_value] using hname h
    | equals name literal => simpa [Expression.source_equals] using ⟨hname h.1, h.2.no_quote⟩
    | exceeds name number => simpa [Expression.source_exceeds] using ⟨hname h.1, hnumber h.2⟩
    | ratio => decide
    | paddedRatio extra => simpa [Expression.source_paddedRatio] using hnumber h

def Stretch.ofPlain (text : Text) (h : IsPlainText text) : Stretch where
  text := text
  no_root root hroot hwithin := by
    have hfirst : ∀ root ∈ roots, root = hintStart ∨
        ∃ c ∈ ['<', '&', '\'', '"', '\x7b', '\x7d', mark, '\n'], c ∈ root := by decide
    obtain rfl | ⟨c, hc, hmem⟩ := hfirst root hroot
    · exact h.no_hint hwithin
    · exact h.no_meaning c hc (hwithin.subset hmem)

namespace Content

def template : Content → Text
  | nil => []
  | literal text rest => text ++ rest.template
  | reference name rest => "<xsl:value-of select=\"@" ++ name ++ "\"/>" ++ rest.template
  | expression found rest =>
    "<xsl:value-of select=\"" ++ found.source ++ "\"/>" ++ rest.template
  | conditional condition holds rest =>
    "<xsl:if test=\"" ++ condition.source ++ "\">" ++ holds.template ++ "</xsl:if>" ++ rest.template
  | choice condition holds otherwise rest =>
    "<xsl:choose>" ++
      ("<xsl:when test=\"" ++ condition.source ++ "\">" ++ holds.template ++ "</xsl:when>") ++
      ("<xsl:otherwise>" ++ otherwise.template ++ "</xsl:otherwise>") ++ "</xsl:choose>" ++
      rest.template

def IsLiteralFirst : Content → Prop
  | literal _ _ => True
  | _ => False

/-- The content can be written in the source dialect. Texts do not touch, and a bare value is no
expression. -/
def IsTemplate : Content → Prop
  | nil => True
  | literal text rest => IsPlainText text ∧ ¬rest.IsLiteralFirst ∧ rest.IsTemplate
  | reference name rest => IsName name ∧ rest.IsTemplate
  | expression found rest => (found.IsPlain ∧ ∀ name, found ≠ .value name) ∧ rest.IsTemplate
  | conditional condition holds rest =>
    condition.IsPlain ∧ (holds.template ≠ [] ∧ holds.IsTemplate) ∧ rest.IsTemplate
  | choice condition holds otherwise rest =>
    condition.IsPlain ∧ (holds.template ≠ [] ∧ holds.IsTemplate) ∧
      (otherwise.template ≠ [] ∧ otherwise.IsTemplate) ∧ rest.IsTemplate

theorem source_ne_nil {content : Content} (h : content.template ≠ []) : content.source ≠ [] := by
  induction content with
  | nil => exact absurd rfl h
  | literal text rest ih =>
    intro hnil
    obtain ⟨htext, hrest⟩ := List.append_eq_nil_iff.1 hnil
    refine ih (fun htemplate => h ?_) hrest
    change text ++ rest.template = []
    rw [htext, htemplate, List.append_nil]
  | reference | expression | conditional | choice => exact List.cons_ne_nil _ _

theorem wellFormed_of_isTemplate {content : Content} (h : content.IsTemplate) :
    content.WellFormed := by
  induction content with
  | nil => trivial
  | literal text rest ih =>
    have hmeaning : ∀ c ∈ structural, c ∈ ['<', '&', '\'', '"', '\x7b', '\x7d', mark,
        '\n'] := by decide
    exact ⟨⟨h.1.no_meaning _ (by decide), fun c hc => h.1.no_meaning c (hmeaning c hc)⟩, ih h.2.2⟩
  | reference name rest ih => exact ⟨h.1, ih h.2⟩
  | expression found rest ih => exact ⟨h.1.1.isSimple, ih h.2⟩
  | conditional condition holds rest ihholds ih =>
    obtain ⟨hcondition, ⟨hne, hholds⟩, hrest⟩ := h
    exact ⟨hcondition.isSimple, ⟨source_ne_nil hne, ihholds hholds⟩, ih hrest⟩
  | choice condition holds otherwise rest ihholds ihotherwise ih =>
    obtain ⟨hcondition, ⟨hne, hholds⟩, ⟨hotherNe, hother⟩, hrest⟩ := h
    exact ⟨hcondition.isSimple, ⟨source_ne_nil hne, ihholds hholds⟩,
      ⟨source_ne_nil hotherNe, ihotherwise hother⟩, ih hrest⟩

/-- No reference and no line feed comes into the content in the forum dialect. -/
theorem not_mem_source {content : Content} (h : content.IsTemplate) {c : Char}
    (hc : c = '&' ∨ c = '\n') : c ∉ content.source := by
  have hforeign : c ∈ foreign := by
    obtain rfl | rfl := hc
    · decide
    · decide
  have hplain : c ∈ ['<', '&', '\'', '"', '\x7b', '\x7d', mark, '\n'] := by
    obtain rfl | rfl := hc
    · decide
    · decide
  have hfixed :
      ∀ text ∈ (["\x7b$", "\x7d", "\x7b\x7b ", " \x7d\x7d", "<xf:if is=\"", "\">", "<xf:else/>",
      "</xf:if>"] : List Text), c ∉ text := by
    obtain rfl | rfl := hc
    · decide
    · decide
  have hrender : ∀ {found : Expression}, found.IsPlain → c ∉ found.render := fun hfound =>
    (Expression.isClean hfound.1).2 c hforeign
  have hopening : ∀ {condition : Expression}, condition.IsPlain → c ∉ opening condition := by
    intro condition hcondition
    change c ∉ ("<xf:if is=\"" : Text) ++ (condition.render ++ ("\">" : Text))
    simp only [List.mem_append, not_or]
    exact ⟨hfixed _ (by decide), hrender hcondition, hfixed _ (by decide)⟩
  induction content with
  | nil => exact List.not_mem_nil
  | literal text rest ih =>
    rw [source, List.mem_append, not_or]
    exact ⟨h.1.no_meaning c hplain, ih h.2.2⟩
  | reference name rest ih =>
    simp only [source, Part.source_reference, List.mem_append, not_or]
    exact ⟨⟨⟨hfixed _ (by decide), h.1.isClean c hforeign⟩, hfixed _ (by decide)⟩, ih h.2⟩
  | expression found rest ih =>
    simp only [source, Part.source_expression, List.mem_append, not_or]
    exact ⟨⟨⟨hfixed _ (by decide), hrender h.1.1⟩, hfixed _ (by decide)⟩, ih h.2⟩
  | conditional condition holds rest ihholds ih =>
    obtain ⟨hcondition, ⟨-, hholds⟩, hrest⟩ := h
    simp only [source, List.mem_append, not_or]
    exact ⟨⟨hopening hcondition, ihholds hholds, hfixed _ (by decide)⟩, ih hrest⟩
  | choice condition holds otherwise rest ihholds ihotherwise ih =>
    obtain ⟨hcondition, ⟨-, hholds⟩, ⟨-, hother⟩, hrest⟩ := h
    simp only [source, List.mem_append, not_or]
    exact ⟨⟨hopening hcondition, ihholds hholds, hfixed _ (by decide), ihotherwise hother,
      hfixed _ (by decide)⟩, ih hrest⟩

/-! ### Tokens -/

structure HasTokens (content : Content) (tokens : List Token) : Prop where
  source_eq : texts tokens = content.template
  final_eq : texts (tokens.map Token.toFinal) = content.source
  stage : ∀ behind, Stage sourceShapes behind → StartsApart behind →
    Stage sourceShapes (tokens ++ behind)
  starts : ¬content.IsLiteralFirst → ∀ behind, StartsApart behind → StartsApart (tokens ++ behind)

namespace HasTokens

variable {holds otherwise rest : Content} {inner others tokens : List Token}

theorem nil : Content.nil.HasTokens [] :=
  ⟨rfl, rfl, fun _ hbehind _ => hbehind, fun _ _ hbehind => hbehind⟩

theorem literal {text : Text} (htext : IsPlainText text) (hfirst : ¬rest.IsLiteralFirst)
    (h : rest.HasTokens tokens) :
    (Content.literal text rest).HasTokens (.chunk (.ofPlain text htext) :: tokens) where
  source_eq := by
    rw [texts_chunk, h.source_eq]
    rfl
  final_eq := by
    have htoken : (Token.chunk (.ofPlain text htext)).toFinal = .chunk (.ofPlain text htext) := rfl
    rw [List.map_cons, htoken, texts_chunk, h.final_eq]
    rfl
  stage behind hbehind hapart :=
    (h.stage behind hbehind hapart).cons (by simp [Token.shape, sourceShapes]) fun _ =>
      h.starts hfirst behind hapart
  starts hnot := absurd trivial hnot

/-- A tag by itself, before the rest. -/
theorem tag {content : Content} {token : Token}
    (hsource : content.template = token.text ++ rest.template)
    (hfinal : content.source = token.toFinal.text ++ rest.source)
    (hshape : token.shape ∈ sourceShapes) (hchunk : token.isChunk = false)
    (h : rest.HasTokens tokens) : content.HasTokens (token :: tokens) where
  source_eq := by rw [texts_cons, h.source_eq, hsource]
  final_eq := by rw [List.map_cons, texts_cons, h.final_eq, hfinal]
  stage behind hbehind hapart := (h.stage behind hbehind hapart).cons_tag hshape hchunk
  starts _ _ _ := startsApart_cons hchunk _

theorem conditional {condition : Expression} (hcondition : condition.IsPlain)
    (hinner : holds.HasTokens inner) (h : rest.HasTokens tokens) :
    (Content.conditional condition holds rest).HasTokens
      (.opening .sourceIf (.ofExpression condition hcondition.1) ::
        (inner ++ .mark .sourceEnd :: tokens)) where
  source_eq := by
    rw [texts_opening, texts_append, texts_mark, hinner.source_eq, h.source_eq]
    change _ = "<xsl:if test=\"" ++ condition.source ++ "\">" ++ holds.template ++
      "</xsl:if>" ++ rest.template
    simp only [List.append_assoc]
    rfl
  final_eq := by
    have hif : (Token.opening .sourceIf (.ofExpression condition hcondition.1)).toFinal =
        .resolved .forumIf (.ofExpression condition hcondition.1) := rfl
    have hend : (Token.mark .sourceEnd).toFinal = .mark .forumEnd := rfl
    rw [List.map_cons, List.map_append, List.map_cons, hif, hend, texts_resolved, texts_append,
      texts_mark, hinner.final_eq, h.final_eq, source, opening_append]
    simp only [List.append_assoc]
    rfl
  stage behind hbehind hapart := by
    have hend : Stage sourceShapes (.mark .sourceEnd :: (tokens ++ behind)) :=
      (h.stage behind hbehind hapart).cons_tag (by decide) rfl
    rw [List.cons_append, List.append_assoc]
    exact (hinner.stage _ hend (startsApart_cons rfl _)).cons_tag (by simp [Token.shape,
      sourceShapes]) rfl
  starts _ _ _ := startsApart_cons rfl _

theorem choice {condition : Expression} (hcondition : condition.IsPlain)
    (hinner : holds.HasTokens inner) (hothers : otherwise.HasTokens others)
    (h : rest.HasTokens tokens) :
    (Content.choice condition holds otherwise rest).HasTokens
      (.opening .firstWhen (.ofExpression condition hcondition.1) ::
        (inner ++ .mark .otherwise :: (others ++ .mark .otherwiseEnd :: tokens))) where
  source_eq := by
    rw [texts_opening, texts_append, texts_mark, texts_append, texts_mark, hinner.source_eq,
      hothers.source_eq, h.source_eq, before_firstWhen, text_otherwise, text_otherwiseEnd]
    change _ = "<xsl:choose>" ++
      ("<xsl:when test=\"" ++ condition.source ++ "\">" ++ holds.template ++ "</xsl:when>") ++
      ("<xsl:otherwise>" ++ otherwise.template ++ "</xsl:otherwise>") ++
      "</xsl:choose>" ++ rest.template
    simp only [List.append_assoc]
    rfl
  final_eq := by
    have hwhen : (Token.opening .firstWhen (.ofExpression condition hcondition.1)).toFinal =
        .resolved .forumIf (.ofExpression condition hcondition.1) := rfl
    have helse : (Token.mark .otherwise).toFinal = .mark .forumElse := rfl
    have hend : (Token.mark .otherwiseEnd).toFinal = .mark .forumEnd := rfl
    rw [List.map_cons, List.map_append, List.map_cons, List.map_append, List.map_cons, hwhen, helse,
      hend, texts_resolved, texts_append, texts_mark, texts_append, texts_mark, hinner.final_eq,
      hothers.final_eq, h.final_eq, source, List.append_assoc, opening_append]
    simp only [List.append_assoc]
    rfl
  stage behind hbehind hapart := by
    have hend : Stage sourceShapes (.mark .otherwiseEnd :: (tokens ++ behind)) :=
      (h.stage behind hbehind hapart).cons_tag (by decide) rfl
    have helse :
        Stage sourceShapes (.mark .otherwise ::
          (others ++ .mark .otherwiseEnd :: (tokens ++ behind))) :=
      (hothers.stage _ hend (startsApart_cons rfl _)).cons_tag (by decide) rfl
    rw [List.cons_append, List.append_assoc, List.cons_append, List.append_assoc, List.cons_append]
    exact (hinner.stage _ helse (startsApart_cons rfl _)).cons_tag (by simp [Token.shape,
      sourceShapes]) rfl
  starts _ _ _ := startsApart_cons rfl _

end HasTokens

/-- The content of a template is a row of tokens. -/
theorem exists_hasTokens {content : Content} (h : content.IsTemplate) :
    ∃ tokens, content.HasTokens tokens := by
  induction content with
  | nil => exact ⟨[], .nil⟩
  | literal text rest ih =>
    obtain ⟨htext, hfirst, hrest⟩ := h
    obtain ⟨tokens, htokens⟩ := ih hrest
    exact ⟨_, htokens.literal htext hfirst⟩
  | reference name rest ih =>
    obtain ⟨hname, hrest⟩ := h
    obtain ⟨tokens, htokens⟩ := ih hrest
    exact ⟨.value .selected ⟨name, hname⟩ :: tokens,
      htokens.tag rfl rfl (by simp [Token.shape, sourceShapes]) rfl⟩
  | expression found rest ih =>
    obtain ⟨⟨hfound, hvalue⟩, hrest⟩ := h
    obtain ⟨tokens, htokens⟩ := ih hrest
    exact ⟨.selection ⟨.ofExpression found hfound.1, hvalue⟩ :: tokens,
      htokens.tag rfl rfl (by simp [Token.shape, sourceShapes]) rfl⟩
  | conditional condition holds rest ihholds ih =>
    obtain ⟨hcondition, ⟨-, hholds⟩, hrest⟩ := h
    obtain ⟨inner, hinner⟩ := ihholds hholds
    obtain ⟨tokens, htokens⟩ := ih hrest
    exact ⟨_, .conditional hcondition hinner htokens⟩
  | choice condition holds otherwise rest ihholds ihotherwise ih =>
    obtain ⟨hcondition, ⟨-, hholds⟩, ⟨-, hother⟩, hrest⟩ := h
    obtain ⟨inner, hinner⟩ := ihholds hholds
    obtain ⟨others, hothers⟩ := ihotherwise hother
    obtain ⟨tokens, htokens⟩ := ih hrest
    exact ⟨_, .choice hcondition hinner hothers htokens⟩

end Content

end LazyEmbed.Template
