import LazyEmbed.Proofs.Template.Attributes
import LazyEmbed.Proofs.Template.Piece

/-!
# Choices with several tests in an attribute

The content of an attribute element may nest conditionals and choices as it likes. It is converted
in any case, and the value has no tags left exactly if no choice has more than one test: the tag of
a further test is in the way of folding the choice, and so of everything around it.
-/

namespace LazyEmbed.Template

open MixedContent

/-! ### The pieces of a template -/

namespace Token

def piece : Token → Piece
  | chunk literal => .part (.literal literal.text)
  | value _ name => .part (.reference name.val)
  | selection computed | expression computed => .part (.expression computed.expression.render)
  | opening .nextWhen test | opening .forumElseif test | resolved .nextWhen test | resolved
      .forumElseif test =>
    .further test.expression
  | opening _ test | resolved _ test => .condition test.expression
  | mark .otherwise | mark .forumElse => .alternative
  | mark _ => .close

theorem source_piece {token : Token} (h : token.shape ∈ sourceShapes) :
    token.piece.source = token.toFinal.text := by
  cases token with
  | chunk literal => exact (text_chunk literal).symm
  | value access name =>
    cases access with
    | braced | selected => rfl
    | forum => exact absurd h (show Shape.value .forum ∉ sourceShapes by decide)
  | selection computed => rfl
  | opening tag test =>
    cases tag with
    | sourceIf | firstWhen | nextWhen => exact (List.append_assoc _ _ _).symm
    | forumIf => exact absurd h (show Shape.opening .forumIf ∉ sourceShapes by decide)
    | forumElseif => exact absurd h (show Shape.opening .forumElseif ∉ sourceShapes by decide)
  | mark tag =>
    cases tag with
    | sourceEnd | otherwise | otherwiseEnd | whenEnd => decide
    | forumElse => exact absurd h (show Shape.mark .forumElse ∉ sourceShapes by decide)
    | forumEnd => exact absurd h (show Shape.mark .forumEnd ∉ sourceShapes by decide)
  | expression computed => exact absurd h (show Shape.expression ∉ sourceShapes by decide)
  | resolved tag test =>
    exact absurd h (show Shape.resolved tag ∉ sourceShapes by cases tag <;> decide)

def IsPlain : Token → Prop
  | chunk literal => IsPlainText literal.text
  | selection computed | expression computed => computed.expression.IsPlain
  | opening _ test | resolved _ test => test.expression.IsPlain
  | value _ _ | mark _ => True

end Token

theorem no_reference_render {found : Expression} (h : found.IsPlain) : '&' ∉ found.render :=
  (Expression.isClean h.1).2 '&' (by decide)

theorem Part.IsFolded.no_line {part : Part} (h : part.IsFolded) : '\n' ∉ part.source := by
  cases part with
  | literal text => exact h.2 _ (by decide)
  | reference name =>
    have hname : '\n' ∉ name := IsName.isClean h _ (by decide)
    simp [hname]
  | expression text =>
    have htext : '\n' ∉ text := h.2.2 _ (by decide)
    simp [htext]

theorem IsPlainText.isFolded {text : Text} (h : IsPlainText text) :
    (Part.literal text).IsFolded := by
  have hmeaning : ∀ c ∈ structural, c ∈ ['<', '&', '\'', '"', '\x7b', '\x7d', mark,
      '\n'] := by decide
  exact ⟨h.no_meaning _ (by decide), fun c hc => h.no_meaning c (hmeaning c hc)⟩

namespace Piece

theorem isClean_part {content : Part} (h : content.IsFolded) (hreference : '&' ∉ content.source) :
    (part content).IsClean where
  isFolded other heq := part.inj heq ▸ h
  isSimple := by simp
  no_reference := hreference

theorem isClean_opening {piece : Piece} {test : Expression}
    (hpiece : piece = condition test ∨ piece = further test) (h : test.IsPlain) :
    piece.IsClean where
  isFolded other heq := by
    obtain rfl | rfl := hpiece
    · cases heq
    · cases heq
  isSimple other hother := by
    have hsame : test = other := by
      obtain rfl | rfl := hpiece
      · simpa using hother
      · simpa using hother
    exact hsame ▸ h.isSimple
  no_reference := by
    have hfixed : ∀ tag ∈ (["<xf:if is=\"", "<xf:elseif is=\"", "\">"] : List Text), '&' ∉ tag := by
      decide
    have hbehind : '&' ∉ test.render ++ ("\">" : Text) :=
      List.not_mem_append (no_reference_render h) (hfixed _ (by simp))
    obtain rfl | rfl := hpiece
    · exact List.not_mem_append (hfixed "<xf:if is=\"" (by simp)) hbehind
    · exact List.not_mem_append (hfixed "<xf:elseif is=\"" (by simp)) hbehind

theorem isClean_alternative : alternative.IsClean := ⟨by simp, by simp, by decide⟩

theorem isClean_close : close.IsClean := ⟨by simp, by simp, by decide⟩

end Piece

theorem Token.IsPlain.isClean {token : Token} (h : token.IsPlain) : token.piece.IsClean := by
  cases token with
  | chunk literal =>
    exact Piece.isClean_part (IsPlainText.isFolded h) (h.no_meaning '&' (by decide))
  | value access name =>
    refine Piece.isClean_part name.property ?_
    have hname : '&' ∉ name.val := name.property.isClean '&' (by decide)
    simp [hname]
  | selection computed | expression computed =>
    refine Piece.isClean_part (Expression.isFolded_render (Expression.IsPlain.isSimple h)) ?_
    have hrender := no_reference_render h
    simp [hrender]
  | opening tag test | resolved tag test =>
    cases tag with
    | nextWhen | forumElseif => exact Piece.isClean_opening (.inr rfl) h
    | sourceIf | firstWhen | forumIf => exact Piece.isClean_opening (.inl rfl) h
  | mark tag =>
    cases tag with
    | otherwise | forumElse => exact Piece.isClean_alternative
    | sourceEnd | otherwiseEnd | whenEnd | forumEnd => exact Piece.isClean_close

namespace Piece

/-! ### Clean pieces can be moved -/

theorem not_mem_tag {piece : Piece} {c : Char} (hc : c ∈ ['\n', '\x7b']) (h : piece.IsClean)
    (hpart : ∀ content, piece ≠ part content) : c ∉ piece.source := by
  have hfixed : ∀ c ∈ ['\n', '\x7b'], c ∈ structural ∧
      ∀ tag ∈ (["<xf:if is=\"", "<xf:elseif is=\"", "\">", "<xf:else/>", "</xf:if>"] : List Text),
      c ∉ tag := by decide
  obtain ⟨hstructural, hfixed⟩ := hfixed c hc
  have hopening : ∀ {before : Text} {test : Expression}, test.IsSimple → c ∉ before →
      c ∉ before ++ (test.render ++ "\">") := by
    intro before test htest hbefore
    simp only [List.mem_append, not_or]
    exact ⟨hbefore, Expression.isFlat_render htest c hstructural, hfixed "\">" (by simp)⟩
  cases piece with
  | part content => exact absurd rfl (hpart content)
  | condition test => exact hopening (h.isSimple test (.inl rfl)) (hfixed "<xf:if is=\"" (by simp))
  | further test =>
    exact hopening (h.isSimple test (.inr rfl)) (hfixed "<xf:elseif is=\"" (by simp))
  | alternative => exact hfixed "<xf:else/>" (by simp)
  | close => exact hfixed "</xf:if>" (by simp)

section

variable {pieces : List Piece} (h : ∀ piece ∈ pieces, piece.IsClean)
include h

/-- A tag of the source dialect begins in no piece. -/
theorem misses_text {start : Text} (hstart : start.head? = some '<')
    (happart : ∀ tag ∈ (["<xf:if is=\"", "<xf:elseif is=\"", "\">", "<xf:else/>",
      "</xf:if>"] : List Text), Text.apart start tag = true) (rest : Text) :
    Text.Misses start (text pieces) rest := by
  have hopening : ∀ {before : Text} {test : Expression}, test.IsSimple →
      Text.apart start before = true →
      Text.apart start "\">" = true →
      ∀ rest, Text.Misses start (before ++ (test.render ++ "\">")) rest := by
    intro before test htest hbefore hafter rest
    obtain ⟨behind, rfl⟩ := List.head?_eq_some_iff.1 hstart
    exact (Text.misses_of_apart hbefore _).append
      ((Text.misses_of_not_mem (Expression.isFlat_render htest _ (by decide))).append
      (Text.misses_of_apart hafter _))
  induction pieces with
  | nil => exact Text.misses_nil _ rest
  | cons piece pieces ih =>
    obtain ⟨hpiece, hpieces⟩ := List.forall_mem_cons.1 h
    refine Text.Misses.append ?_ (ih hpieces)
    cases piece with
    | part content =>
      obtain ⟨behind, rfl⟩ := List.head?_eq_some_iff.1 hstart
      exact Text.misses_of_not_mem (hpiece.isFolded content rfl).not_mem_source
    | condition test =>
      exact hopening (hpiece.isSimple test (.inl rfl)) (happart _ (by simp)) (happart _ (by simp)) _
    | further test =>
      exact hopening (hpiece.isSimple test (.inr rfl)) (happart _ (by simp)) (happart _ (by simp)) _
    | alternative => exact Text.misses_of_apart (happart "<xf:else/>" (by simp)) _
    | close => exact Text.misses_of_apart (happart "</xf:if>" (by simp)) _

theorem no_line_text : '\n' ∉ text pieces := by
  refine not_mem_text fun piece hpiece => ?_
  by_cases hpart : ∃ content, piece = part content
  · obtain ⟨content, rfl⟩ := hpart
    exact ((h _ hpiece).isFolded content rfl).no_line
  · exact not_mem_tag (by simp) (h _ hpiece) fun content heq => hpart ⟨content, heq⟩

theorem forall_hits_braces_text {rest : Text}
    (hrest : ∀ hit ∈ Leftover.braces.hits rest, hit = none) :
    ∀ hit ∈ Leftover.braces.hits (text pieces ++ rest), hit = none := by
  induction pieces with
  | nil => exact hrest
  | cons piece pieces ih =>
    obtain ⟨hpiece, hpieces⟩ := List.forall_mem_cons.1 h
    rw [text_cons, List.append_assoc]
    by_cases hpart : ∃ content, piece = part content
    · obtain ⟨content, rfl⟩ := hpart
      exact (hpiece.isFolded content rfl).forall_hits_braces (ih hpieces)
    · have htag : '\x7b' ∉ piece.source :=
        not_mem_tag (by simp) hpiece fun content heq => hpart ⟨content, heq⟩
      rw [Pattern.hits_append (passes_braces htag _)]
      exact ih hpieces

theorem isMovable_text : IsMovable (text pieces) where
  no_element := (misses_text h (by decide) (by decide) []).not_isInfix (by decide)
  no_closing := (misses_text h (by decide) (by decide) []).not_isInfix (by decide)
  no_line := no_line_text h
  no_reference := not_mem_text fun piece hpiece => (h piece hpiece).no_reference
  no_brace _ := forall_hits_braces_text h

end

end Piece

/-! ### Converting one attribute element -/

theorem text_piece {tokens : List Token} (h : ∀ token ∈ tokens, token.shape ∈ sourceShapes) :
    Piece.text (tokens.map Token.piece) = texts (tokens.map Token.toFinal) := by
  induction tokens with
  | nil => rfl
  | cons token tokens ih =>
    obtain ⟨htoken, htokens⟩ := List.forall_mem_cons.1 h
    rw [List.map_cons, List.map_cons, Piece.text_cons, texts_cons,
      Token.source_piece htoken, ih htokens]

/-- An attribute element with any tokens in it is converted, and the tags of further tests in it are
in the value. -/
theorem convert_attributeElement (host : Host) (name : Name) {tokens : List Token}
    (hstage : Stage sourceShapes tokens) (hplain : ∀ token ∈ tokens, token.IsPlain) :
    ∃ pieces : List Piece, foldConditionals (Piece.text (tokens.map Token.piece)) =
      .ok (Piece.text pieces) ∧
      (∀ test, .further test ∈ tokens.map Token.piece → .further test ∈ pieces) ∧
      convert (host.text [] [(name, texts tokens)]) =
        .ok (host.text [(name, Piece.text pieces)] []) := by
  have hclean : ∀ piece ∈ tokens.map Token.piece, piece.IsClean := by
    intro piece hpiece
    obtain ⟨token, htoken, rfl⟩ := List.mem_map.1 hpiece
    exact (hplain token htoken).isClean
  obtain ⟨pieces, hfold, hpieces, hfurther⟩ := Piece.foldConditionals_text hclean
  refine ⟨pieces, hfold, hfurther, ?_⟩
  have hlayout : (host.layout [(name, tokens)]).InStage sourceShapes :=
    host.inStage_layout (by simpa using hstage)
  have hsource : (host.layout [(name, tokens)]).text = host.text [] [(name, texts tokens)] :=
    host.layout_text _
  have hfinal : ((host.layout [(name, tokens)]).map Token.toFinal).text =
      host.text [] [(name, Piece.text (tokens.map Token.piece))] := by
    rw [host.layout_map, host.layout_text, text_piece hstage.shape_mem]
    rfl
  have hinside : IsMovable (Piece.text (tokens.map Token.piece)) := Piece.isMovable_text hclean
  have hvalue : ∀ item ∈ [(name, Piece.text pieces)], IsMovable item.2 := by
    simpa using Piece.isMovable_text hpieces
  have helement := foldAttributeBodies_element name hinside.no_line hinside.no_closing hfold
  have hfolded :
      Dialect.foldAttributeBodies (host.text [] [(name, Piece.text (tokens.map Token.piece))]) =
        .ok (host.text [] [(name, Piece.text pieces)]) := by
    have hall : ∀ item ∈ [()], _ := fun (_ : Unit) _ => helement
    exact host.foldAttributeBodies_text_map (fun _ => (name, Piece.text (tokens.map Token.piece)))
      (fun _ => (name, Piece.text pieces)) hall
  have hinline : inlineAttributes (host.text [] [(name, Piece.text pieces)]) =
      host.text [(name, Piece.text pieces)] [] := by
    have hclose : '>' ∉ host.tagWith [] := host.no_close_tagWith (List.forall_mem_nil _)
    rw [inlineAttributes_of_inlineFirst? (host.inlineFirst?_text hclose (hvalue _ (by simp)) []),
      List.nil_append]
    exact inlineAttributes_eq_self ((host.no_element_text hvalue).not_isInfix (by decide))
  rw [← hsource, convert_text hlayout, hfinal, hfolded]
  simp only [bind, Except.bind, hinline, host.check_text hvalue, host.restoreBraces_text hvalue]
  rfl

/-! ### Contents as trees -/

abbrev PlainTest := { test : Spelling // test.expression.IsPlain }

mutual

/-- What stands in an attribute element, the first node and the rest. No text stands directly behind
a text; the index tells whether one may come first. -/
inductive Body : Bool → Type
  | nil {free : Bool} : Body free
  | literal (text : { text : Text // IsPlainText text }) (rest : Body false) : Body true
  | reference {free : Bool} (name : Name) (rest : Body true) : Body free
  | expression {free : Bool} (selection : { selection : Computed // selection.expression.IsPlain })
      (rest : Body true) : Body free
  | conditional {free : Bool} (test : PlainTest) (holds rest : Body true) : Body free
  | choice {free : Bool} (test : PlainTest) (holds : Body true) (arms : Arms)
      (rest : Body true) : Body free

inductive Arms : Type
  | done
  | otherwise (body : Body true)
  | when (test : PlainTest) (holds : Body true) (arms : Arms)

end

mutual

def Body.source {free : Bool} : Body free → Text
  | .nil => []
  | .literal text rest => text.val ++ rest.source
  | .reference name rest => "<xsl:value-of select=\"@" ++ name.val ++ "\"/>" ++ rest.source
  | .expression selection rest =>
    "<xsl:value-of select=\"" ++ selection.val.text ++ "\"/>" ++ rest.source
  | .conditional test holds rest =>
    "<xsl:if test=\"" ++ test.val.text ++ "\">" ++ holds.source ++ "</xsl:if>" ++ rest.source
  | .choice test holds arms rest =>
    "<xsl:choose>" ++ ("<xsl:when test=\"" ++ test.val.text ++ "\">" ++ holds.source ++
      "</xsl:when>") ++ arms.source ++ "</xsl:choose>" ++ rest.source

def Arms.source : Arms → Text
  | .done => []
  | .otherwise body => "<xsl:otherwise>" ++ body.source ++ "</xsl:otherwise>"
  | .when test holds arms =>
    "<xsl:when test=\"" ++ test.val.text ++ "\">" ++ holds.source ++ "</xsl:when>" ++ arms.source

end

mutual

def Body.value {free : Bool} (environment : Environment) : Body free → Text
  | .nil => []
  | .literal text rest => text.val ++ rest.value environment
  | .reference name rest => environment.references name.val ++ rest.value environment
  | .expression selection rest =>
    environment.expressions selection.val.expression ++ rest.value environment
  | .conditional test holds rest =>
    (if environment.conditions test.val.expression then holds.value environment else []) ++
      rest.value environment
  | .choice test holds arms rest =>
    (if environment.conditions test.val.expression then holds.value environment
      else arms.value environment) ++
      rest.value environment

def Arms.value (environment : Environment) : Arms → Text
  | .done => []
  | .otherwise body => body.value environment
  | .when test holds arms =>
    if environment.conditions test.val.expression then holds.value environment
      else arms.value environment

end

mutual

def Body.IsFilled {free : Bool} : Body free → Prop
  | .nil => True
  | .literal _ rest => rest.IsFilled
  | .reference _ rest => rest.IsFilled
  | .expression _ rest => rest.IsFilled
  | .conditional _ holds rest => (holds.source ≠ [] ∧ holds.IsFilled) ∧ rest.IsFilled
  | .choice _ holds arms rest =>
    (holds.source ≠ [] ∧ holds.IsFilled) ∧ arms.IsFilled ∧ rest.IsFilled

def Arms.IsFilled : Arms → Prop
  | .done => True
  | .otherwise body => body.source ≠ [] ∧ body.IsFilled
  | .when _ holds arms => (holds.source ≠ [] ∧ holds.IsFilled) ∧ arms.IsFilled

end

mutual

def Body.HasSingleTests {free : Bool} : Body free → Prop
  | .nil => True
  | .literal _ rest => rest.HasSingleTests
  | .reference _ rest => rest.HasSingleTests
  | .expression _ rest => rest.HasSingleTests
  | .conditional _ holds rest => holds.HasSingleTests ∧ rest.HasSingleTests
  | .choice _ holds arms rest => holds.HasSingleTests ∧ arms.HasSingleTests ∧ rest.HasSingleTests

def Arms.HasSingleTests : Arms → Prop
  | .done => True
  | .otherwise body => body.HasSingleTests
  | .when _ _ _ => False

end

mutual

def Body.forest {free : Bool} : Body free → Forest Stretch free
  | .nil => .nil
  | .literal text rest => .chunk (.ofPlain text.val text.property) rest.forest
  | .reference name rest => .selected name rest.forest
  | .expression selection rest => .computed selection.val rest.forest
  | .conditional test holds rest => .conditional test.val holds.forest rest.forest
  | .choice test holds arms rest => .choice test.val holds.forest arms.branches rest.forest

def Arms.branches : Arms → Branches Stretch
  | .done => .done
  | .otherwise body => .otherwise body.forest
  | .when test holds arms => .when test.val holds.forest arms.branches

end

mutual

theorem Body.source_forest {free : Bool} (body : Body free) : body.forest.source = body.source := by
  cases body with
  | nil => rfl
  | literal | reference | expression =>
    rename_i rest
    exact congrArg (_ ++ ·) rest.source_forest
  | conditional test holds rest =>
    exact congrArg₂ (fun inside behind : Text =>
      "<xsl:if test=\"" ++ test.val.text ++ "\">" ++ inside ++ "</xsl:if>" ++ behind)
      holds.source_forest rest.source_forest
  | choice test holds arms rest =>
    have hchoice := congrArg₂ (fun inside others : Text =>
      "<xsl:choose>" ++ ("<xsl:when test=\"" ++ test.val.text ++ "\">" ++ inside ++
        "</xsl:when>") ++ others ++ "</xsl:choose>") holds.source_forest arms.source_branches
    exact congrArg₂ (· ++ ·) hchoice rest.source_forest

theorem Arms.source_branches (arms : Arms) : arms.branches.source = arms.source := by
  cases arms with
  | done => rfl
  | otherwise body =>
    exact congrArg (fun inside : Text => "<xsl:otherwise>" ++ inside ++ "</xsl:otherwise>")
      body.source_forest
  | «when» test holds arms =>
    exact congrArg₂ (fun inside others : Text =>
      "<xsl:when test=\"" ++ test.val.text ++ "\">" ++ inside ++ "</xsl:when>" ++ others)
      holds.source_forest arms.source_branches

end

mutual

/-- A body has plain tokens only, so every pass changes them one by one. -/
theorem Body.isPlain_tokens {free : Bool} (body : Body free) :
    ∀ token ∈ body.forest.tokens, token.IsPlain := by
  cases body with
  | nil => exact List.forall_mem_nil _
  | literal text rest => exact List.forall_mem_cons.2 ⟨text.property, rest.isPlain_tokens⟩
  | reference name rest => exact List.forall_mem_cons.2 ⟨trivial, rest.isPlain_tokens⟩
  | expression selection rest =>
    exact List.forall_mem_cons.2 ⟨selection.property, rest.isPlain_tokens⟩
  | conditional test holds rest =>
    exact List.forall_mem_cons.2 ⟨test.property, List.forall_mem_append.2
      ⟨holds.isPlain_tokens, List.forall_mem_cons.2 ⟨trivial, rest.isPlain_tokens⟩⟩⟩
  | choice test holds arms rest =>
    exact List.forall_mem_cons.2 ⟨test.property, List.forall_mem_append.2
      ⟨holds.isPlain_tokens, List.forall_mem_append.2 ⟨arms.isPlain_tokens, rest.isPlain_tokens⟩⟩⟩

theorem Arms.isPlain_tokens (arms : Arms) : ∀ token ∈ arms.branches.tokens, token.IsPlain := by
  cases arms with
  | done => exact List.forall_mem_singleton.2 trivial
  | otherwise body =>
    exact List.forall_mem_cons.2 ⟨trivial, List.forall_mem_append.2
      ⟨body.isPlain_tokens, List.forall_mem_singleton.2 trivial⟩⟩
  | «when» test holds arms =>
    exact List.forall_mem_cons.2 ⟨test.property, List.forall_mem_append.2 ⟨holds.isPlain_tokens,
      arms.isPlain_tokens⟩⟩

end

/-! ### Further tests -/

mutual

/-- If no choice of the content has a further test, no piece of it is the tag of one. -/
theorem Body.hasSingleTests_of_pieces {free : Bool} (body : Body free)
    (h : ∀ test, Piece.further test ∉ body.forest.tokens.map Token.piece) :
    body.HasSingleTests := by
  cases body with
  | nil => trivial
  | literal | reference | expression =>
    rename_i rest
    exact rest.hasSingleTests_of_pieces fun test hmem => h test (List.mem_cons_of_mem _ hmem)
  | conditional test holds rest =>
    simp only [Body.forest, Forest.tokens, List.map_cons, List.map_append, List.mem_cons,
      List.mem_append, not_or] at h
    exact ⟨holds.hasSingleTests_of_pieces fun test => (h test).2.1,
      rest.hasSingleTests_of_pieces fun test => (h test).2.2.2⟩
  | choice test holds arms rest =>
    simp only [Body.forest, Forest.tokens, List.map_cons, List.map_append, List.mem_cons,
      List.mem_append, not_or] at h
    exact ⟨holds.hasSingleTests_of_pieces fun test => (h test).2.1, arms.hasSingleTests_of_pieces
      fun test => (h test).2.2.1, rest.hasSingleTests_of_pieces fun test => (h test).2.2.2⟩

theorem Arms.hasSingleTests_of_pieces (arms : Arms)
    (h : ∀ test, Piece.further test ∉ arms.branches.tokens.map Token.piece) :
    arms.HasSingleTests := by
  cases arms with
  | done => trivial
  | otherwise body =>
    simp only [Arms.branches, Branches.tokens, List.map_cons, List.map_append, List.mem_cons,
      List.mem_append, not_or] at h
    exact body.hasSingleTests_of_pieces fun test => (h test).2.1
  | «when» test holds arms => exact h test.val.expression List.mem_cons_self

end

theorem Token.piece_source_ne_nil {token : Token} (h : token.text ≠ []) :
    token.piece.source ≠ [] := by
  cases token with
  | chunk literal =>
    rw [text_chunk] at h
    exact h
  | value | selection | expression => exact List.cons_ne_nil _ _
  | opening tag test | resolved tag test => cases tag <;> exact List.cons_ne_nil _ _
  | mark tag => cases tag <;> decide

theorem text_piece_ne_nil {tokens : List Token} (h : texts tokens ≠ []) :
    Piece.text (tokens.map Token.piece) ≠ [] := by
  induction tokens with
  | nil => exact absurd rfl h
  | cons token tokens ih =>
    rw [List.map_cons, Piece.text_cons]
    intro hnil
    obtain ⟨htoken, htokens⟩ := List.append_eq_nil_iff.1 hnil
    by_cases htext : token.text = []
    · exact ih (fun hrest => h (by rw [texts_cons, htext, hrest]; rfl)) htokens
    · exact Token.piece_source_ne_nil htext htoken

/-- The content in the forum dialect is one whose conditionals have at most one other branch. -/
structure Body.Matches {free : Bool} (body : Body free) (content : Content) : Prop where
  source_eq : Piece.text (body.forest.tokens.map Token.piece) = content.source
  wellFormed : content.WellFormed
  value_eq : ∀ environment, content.value environment = body.value environment

namespace Body.Matches

theorem branch {free : Bool} {body : Body free} {content : Content} (h : body.Matches content)
    (hne : body.source ≠ []) : content.source ≠ [] ∧ content.WellFormed := by
  rw [← body.source_forest, ← body.forest.texts_tokens] at hne
  exact ⟨h.source_eq ▸ text_piece_ne_nil hne, h.wellFormed⟩

variable {free : Bool} {holds other rest : Body true}
    {holdsContent otherContent restContent : Content}

theorem conditional {body : Body free} (test : PlainTest)
    (hpieces : body.forest.tokens.map Token.piece = .condition test.val.expression ::
      (holds.forest.tokens.map Token.piece ++ .close :: rest.forest.tokens.map Token.piece))
    (hvalue : ∀ environment, body.value environment =
      (if environment.conditions test.val.expression then holds.value environment else []) ++
        rest.value environment)
    (hholds : holds.Matches holdsContent) (hne : holds.source ≠ [])
      (hrest : rest.Matches restContent) :
    body.Matches (.conditional test.val.expression holdsContent restContent) where
  source_eq := by
    rw [hpieces, Piece.text_cons, Piece.text_append, Piece.text_cons, hholds.source_eq,
      hrest.source_eq, Content.source, List.append_assoc, List.append_assoc]
    rfl
  wellFormed := ⟨test.property.isSimple, hholds.branch hne, hrest.wellFormed⟩
  value_eq environment := by rw [Content.value, hholds.value_eq, hrest.value_eq, hvalue]

theorem choice_otherwise (test : PlainTest) (hholds : holds.Matches holdsContent)
    (hne : holds.source ≠ []) (hother : other.Matches otherContent) (hotherNe : other.source ≠ [])
    (hrest : rest.Matches restContent) :
    (Body.choice test holds (.otherwise other) rest : Body free).Matches
      (.choice test.val.expression holdsContent otherContent restContent) where
  source_eq := by
    have hpieces :
        (Body.choice test holds (.otherwise other) rest : Body free).forest.tokens.map Token.piece =
        .condition test.val.expression ::
        (holds.forest.tokens.map Token.piece ++ .alternative ::
          (other.forest.tokens.map Token.piece ++
            .close :: rest.forest.tokens.map Token.piece)) := by
      simp [Body.forest, Arms.branches, Forest.tokens, Branches.tokens, Token.piece]
    rw [hpieces, Piece.text_cons, Piece.text_append, Piece.text_cons, Piece.text_append,
      Piece.text_cons, hholds.source_eq, hother.source_eq, hrest.source_eq, Content.source,
      List.append_assoc, List.append_assoc, List.append_assoc, List.append_assoc]
    rfl
  wellFormed := ⟨test.property.isSimple, hholds.branch hne, hother.branch hotherNe,
    hrest.wellFormed⟩
  value_eq environment := by
    rw [Content.value, hholds.value_eq, hother.value_eq, hrest.value_eq, Body.value, Arms.value]

end Body.Matches

/-- A filled body with single tests matches the content it means. -/
theorem Body.exists_matches {free : Bool} (body : Body free) (hsingle : body.HasSingleTests)
    (hfilled : body.IsFilled) : ∃ content, body.Matches content := by
  cases body with
  | nil => exact ⟨.nil, rfl, trivial, fun _ => rfl⟩
  | literal text rest =>
    obtain ⟨content, hcontent⟩ := rest.exists_matches hsingle hfilled
    refine ⟨.literal text.val content, ?_, ⟨text.property.isFolded, hcontent.wellFormed⟩,
      fun environment => ?_⟩
    · rw [Body.forest, Forest.tokens, List.map_cons, Piece.text_cons, hcontent.source_eq]
      rfl
    · rw [Content.value, hcontent.value_eq, Body.value]
  | reference name rest =>
    obtain ⟨content, hcontent⟩ := rest.exists_matches hsingle hfilled
    refine ⟨.reference name.val content, ?_, ⟨name.property, hcontent.wellFormed⟩,
      fun environment => ?_⟩
    · rw [Body.forest, Forest.tokens, List.map_cons, Piece.text_cons, hcontent.source_eq]
      rfl
    · rw [Content.value, hcontent.value_eq, Body.value]
  | expression selection rest =>
    obtain ⟨content, hcontent⟩ := rest.exists_matches hsingle hfilled
    refine ⟨.expression selection.val.expression content, ?_,
      ⟨selection.property.isSimple, hcontent.wellFormed⟩, fun environment => ?_⟩
    · rw [Body.forest, Forest.tokens, List.map_cons, Piece.text_cons, hcontent.source_eq]
      rfl
    · rw [Content.value, hcontent.value_eq, Body.value]
  | conditional test holds rest =>
    obtain ⟨holdsContent, hholds⟩ := holds.exists_matches hsingle.1 hfilled.1.2
    obtain ⟨restContent, hrest⟩ := rest.exists_matches hsingle.2 hfilled.2
    exact ⟨_,
      .conditional test (by simp [Body.forest, Forest.tokens, Token.piece]) (fun _ => rfl) hholds
      hfilled.1.1 hrest⟩
  | choice test holds arms rest =>
    obtain ⟨holdsContent, hholds⟩ := holds.exists_matches hsingle.1 hfilled.1.2
    obtain ⟨restContent, hrest⟩ := rest.exists_matches hsingle.2.2 hfilled.2.2
    cases arms with
    | done =>
      exact ⟨_,
        .conditional test
          (by simp [Body.forest, Arms.branches, Forest.tokens, Branches.tokens, Token.piece])
          (fun _ => rfl) hholds
        hfilled.1.1 hrest⟩
    | otherwise other =>
      obtain ⟨otherContent, hother⟩ := other.exists_matches hsingle.2.1 hfilled.2.1.2
      exact ⟨_, .choice_otherwise test hholds hfilled.1.1 hother hfilled.2.1.1 hrest⟩
    | «when» => exact hsingle.2.1.elim

/-! ### What is left of conditionals -/

def conditionTags : List Text := ["<xf:if", "<xf:elseif", "<xf:else", "</xf:if"]

/-- The value that an attribute gets. If all choices have single tests, it has no tag. -/
theorem exists_value_of_body (host : Host) (name : Name) (body : Body true) (h : body.IsFilled) :
    ∃ value, convert (host.text [] [(name, body.source)]) = .ok (host.text [(name, value)] []) ∧
      (body.HasSingleTests → '<' ∉ value ∧
      ∀ environment, evaluate environment value = body.value environment) ∧
      (¬body.HasSingleTests → ("<xf:elseif" : Text) <:+: value) := by
  have hstage : Stage sourceShapes (body.forest.tokens ++ []) :=
    body.forest.stage ⟨trivial, List.forall_mem_nil _⟩ (by simp [StartsApart])
  rw [List.append_nil] at hstage
  obtain ⟨pieces, hfold, hfurther, hconvert⟩ :=
    convert_attributeElement host name hstage body.isPlain_tokens
  rw [body.forest.texts_tokens, body.source_forest] at hconvert
  refine ⟨Piece.text pieces, hconvert, fun hsingle => ?_, fun hseveral => ?_⟩
  · obtain ⟨content, hcontent⟩ := body.exists_matches hsingle h
    obtain ⟨value, hvalue, hopen, hevaluate⟩ :=
      evaluate_foldConditionals content hcontent.wellFormed
    rw [← hcontent.source_eq, hfold] at hvalue
    obtain rfl := Except.ok.inj hvalue
    exact ⟨hopen, fun environment => (hevaluate environment).trans (hcontent.value_eq environment)⟩
  · by_contra hnot
    refine hseveral (body.hasSingleTests_of_pieces fun test hmem => hnot ?_)
    have htag : ("<xf:elseif" : Text) <+: Piece.furtherTag test :=
      (show ("<xf:elseif" : Text) <+: "<xf:elseif is=\"" by decide).trans (List.prefix_append _ _)
    exact htag.isInfix.trans (Piece.source_infix_text (hfurther test hmem))

/-- Every content of an attribute element is converted. The value has no tag of a conditional
exactly if no choice has more than one test, and then it means what the content means. -/
theorem convert_body (host : Host) (name : Name) (body : Body true) (h : body.IsFilled) :
    ∃ value, convert (host.text [] [(name, body.source)]) = .ok (host.text [(name, value)] []) ∧
      ((∀ tag ∈ conditionTags, ¬tag <:+: value) ↔ body.HasSingleTests) ∧
      (body.HasSingleTests → '<' ∉ value ∧
        ∀ environment, evaluate environment value = body.value environment) := by
  obtain ⟨value, hconvert, hsingle, hseveral⟩ := exists_value_of_body host name body h
  refine ⟨value, hconvert, ⟨fun htags => ?_, fun hbody tag htag hwithin => ?_⟩, hsingle⟩
  · by_contra hnot
    exact htags "<xf:elseif" (by decide) (hseveral hnot)
  · have hopen : ∀ tag ∈ conditionTags, '<' ∈ tag := by decide
    exact (hsingle hbody).1 (hwithin.subset (hopen tag htag))

def presence (name : Name) : PlainTest where
  val := .ofExpression (.value name.val) name.property
  property := ⟨name.property, fun _ _ heq => Expression.noConfusion heq⟩

def letterBody (c : Char) (h : IsPlainText [c]) : Body true := .literal ⟨[c], h⟩ .nil

theorem isName_letter {c : Char} (hc : c ∈ ['a', 'b', 'x']) : IsName [c] := by
  have hword : ∀ c ∈ ['a', 'b', 'x'], Text.isWord c = true := by decide
  exact ⟨List.cons_ne_nil _ _, by simpa using hword c hc⟩

theorem isPlainText_letter {c : Char} (hc : c ∈ ['p', 'q', 'r']) : IsPlainText [c] := by
  have hmeaning : ∀ c ∈ ['p', 'q', 'r'],
      (∀ d ∈ ['<', '&', '\'', '"', '\x7b', '\x7d', mark, '\n'], d ∉ [c]) ∧ ' ' ∉ [c] := by decide
  exact ⟨(hmeaning c hc).1, fun hwithin => (hmeaning c hc).2 (hwithin.subset (by decide))⟩

def boldHost : Host := ⟨['b'], [], ⟨'b', [], rfl, by decide, by simp⟩, by simp⟩

def xName : Name := ⟨['x'], isName_letter (by decide)⟩

def nestedBody : Body true :=
  .conditional (presence ⟨['a'], isName_letter (by decide)⟩)
    (.choice (presence ⟨['b'], isName_letter (by decide)⟩)
    (letterBody 'p' (isPlainText_letter (by decide)))
      (.otherwise (letterBody 'q' (isPlainText_letter (by decide)))) .nil) .nil

def furtherBody : Body true :=
  .choice (presence ⟨['a'], isName_letter (by decide)⟩)
    (letterBody 'p' (isPlainText_letter (by decide)))
    (.when (presence ⟨['b'], isName_letter (by decide)⟩)
    (letterBody 'q' (isPlainText_letter (by decide)))
      (.otherwise (letterBody 'r' (isPlainText_letter (by decide))))) .nil

theorem boldHost_text (value : Text) :
    boldHost.text [(xName, value)] [] = "<b x=\"" ++ (value ++ "\"></b>") := by
  simp [boldHost, xName, Host.text, Host.tagWith, Host.tag, Host.last, attributeText]

theorem convert_body_nested : nestedBody.IsFilled ∧ nestedBody.HasSingleTests ∧
    boldHost.text [] [(xName, nestedBody.source)] =
      "<b><xsl:attribute name=\"x\"><xsl:if test=\"@a\"><xsl:choose>" ++
        "<xsl:when test=\"@b\">p</xsl:when><xsl:otherwise>q</xsl:otherwise>" ++
        "</xsl:choose></xsl:if></xsl:attribute></b>" ∧
      ∃ value, convert (boldHost.text [] [(xName, nestedBody.source)]) =
        .ok ("<b x=\"" ++ (value ++ "\"></b>")) ∧
        '<' ∉ value ∧ ∀ environment, evaluate environment value =
          if environment.conditions (.value ['a']) then
            if environment.conditions (.value ['b']) then ['p'] else ['q']
          else [] := by
  have hfilled : nestedBody.IsFilled :=
    ⟨⟨List.cons_ne_nil _ _, ⟨List.cons_ne_nil _ _, trivial⟩, ⟨List.cons_ne_nil _ _, trivial⟩,
      trivial⟩, trivial⟩
  have hsingle : nestedBody.HasSingleTests := ⟨⟨trivial, trivial, trivial⟩, trivial⟩
  obtain ⟨value, hconvert, -, hvalue⟩ := convert_body boldHost xName nestedBody hfilled
  rw [boldHost_text] at hconvert
  have htext : boldHost.text [] [(xName, nestedBody.source)] =
      "<b><xsl:attribute name=\"x\"><xsl:if test=\"@a\"><xsl:choose>" ++
        "<xsl:when test=\"@b\">p</xsl:when><xsl:otherwise>q</xsl:otherwise>" ++
        "</xsl:choose></xsl:if></xsl:attribute></b>" := by
    rw [String.toList_ofList, String.toList_ofList, String.toList_ofList]
    decide +kernel
  refine ⟨hfilled, hsingle, htext, value, hconvert, (hvalue hsingle).1, fun environment => ?_⟩
  rw [(hvalue hsingle).2 environment]
  simp [nestedBody, letterBody, presence, Spelling.ofExpression, Body.value, Arms.value]

/-- A choice with two tests keeps its tags. -/
theorem not_folded_furtherTest : furtherBody.IsFilled ∧
    boldHost.text [] [(xName, furtherBody.source)] =
      "<b><xsl:attribute name=\"x\"><xsl:choose><xsl:when test=\"@a\">p</xsl:when>" ++
        "<xsl:when test=\"@b\">q</xsl:when><xsl:otherwise>r</xsl:otherwise>" ++
        "</xsl:choose></xsl:attribute></b>" ∧
      ¬∃ value, convert (boldHost.text [] [(xName, furtherBody.source)]) =
          .ok (boldHost.text [(xName, value)] []) ∧
        ∀ tag ∈ conditionTags, ¬tag <:+: value := by
  have hfilled : furtherBody.IsFilled :=
    ⟨⟨List.cons_ne_nil _ _, trivial⟩,
      ⟨⟨List.cons_ne_nil _ _, trivial⟩, ⟨List.cons_ne_nil _ _, trivial⟩⟩, trivial⟩
  refine ⟨hfilled, ?_, ?_⟩
  · rw [String.toList_ofList, String.toList_ofList, String.toList_ofList]
    decide +kernel
  · rintro ⟨value, hvalue, htags⟩
    obtain ⟨other, hother, -, hseveral⟩ := exists_value_of_body boldHost xName furtherBody hfilled
    rw [hvalue, boldHost_text, boldHost_text] at hother
    obtain rfl : value = other :=
      List.append_cancel_right (List.append_cancel_left (Except.ok.inj hother))
    exact htags "<xf:elseif" (by decide) (hseveral fun hsingle => hsingle.2.1)

end LazyEmbed.Template
