import LazyEmbed.Proofs.Template.Convert

/-!
# Conversion is a translation of the tree

A template that is written from a tree of conditionals, choices and values is converted to what the
tree reads as in the forum dialect, node by node and to any depth. The two readings are defined on
the tree alone. Between them stand the tokens, which are not those of a parser: a choice gives one
token for two tags that touch, so the tokens of a branch are cut in the middle of its element.
-/

namespace LazyEmbed.Template

/-- Literal text of a tree: whatever else is known of it, nothing that a pass looks for begins in
it. -/
class IsStretch (Literal : Type) where
  stretch : Literal → Stretch

instance : IsStretch Chunk := ⟨Chunk.toStretch⟩

instance : IsStretch Stretch := ⟨id⟩

mutual

/-- A template as a tree, the first node and the rest. No literal stands directly behind a literal;
the index tells whether one may come first. -/
inductive Forest (Literal : Type) : Bool → Type
  | nil {free : Bool} : Forest Literal free
  | chunk (literal : Literal) (rest : Forest Literal false) : Forest Literal true
  | braced {free : Bool} (name : Name) (rest : Forest Literal true) : Forest Literal free
  | selected {free : Bool} (name : Name) (rest : Forest Literal true) : Forest Literal free
  | computed {free : Bool} (selection : Computed) (rest : Forest Literal true) :
      Forest Literal free
  | conditional {free : Bool} (test : Spelling) (body rest : Forest Literal true) :
      Forest Literal free
  | choice {free : Bool} (test : Spelling) (body : Forest Literal true)
      (branches : Branches Literal) (rest : Forest Literal true) : Forest Literal free

inductive Branches (Literal : Type) : Type
  | done
  | otherwise (body : Forest Literal true)
  | when (test : Spelling) (body : Forest Literal true) (others : Branches Literal)

end

section

variable {Literal : Type} [IsStretch Literal]

mutual

def Forest.source {free : Bool} : Forest Literal free → Text
  | .nil => []
  | .chunk literal rest => (IsStretch.stretch literal).text ++ rest.source
  | .braced name rest => "\x7b@" ++ name.val ++ "\x7d" ++ rest.source
  | .selected name rest => "<xsl:value-of select=\"@" ++ name.val ++ "\"/>" ++ rest.source
  | .computed selection rest =>
    "<xsl:value-of select=\"" ++ selection.text ++ "\"/>" ++ rest.source
  | .conditional test body rest =>
    "<xsl:if test=\"" ++ test.text ++ "\">" ++ body.source ++ "</xsl:if>" ++ rest.source
  | .choice test body branches rest =>
    "<xsl:choose>" ++ ("<xsl:when test=\"" ++ test.text ++ "\">" ++ body.source ++ "</xsl:when>") ++
      branches.source ++ "</xsl:choose>" ++ rest.source

def Branches.source : Branches Literal → Text
  | .done => []
  | .otherwise body => "<xsl:otherwise>" ++ body.source ++ "</xsl:otherwise>"
  | .when test body others =>
    "<xsl:when test=\"" ++ test.text ++ "\">" ++ body.source ++ "</xsl:when>" ++ others.source

end

mutual

def Forest.translation {free : Bool} : Forest Literal free → Text
  | .nil => []
  | .chunk literal rest => (IsStretch.stretch literal).text ++ rest.translation
  | .braced name rest => "\x7b$" ++ name.val ++ "\x7d" ++ rest.translation
  | .selected name rest => "\x7b$" ++ name.val ++ "\x7d" ++ rest.translation
  | .computed selection rest =>
    "\x7b\x7b " ++ selection.expression.render ++ " \x7d\x7d" ++ rest.translation
  | .conditional test body rest =>
    "<xf:if is=\"" ++ test.expression.render ++ "\">" ++ body.translation ++ "</xf:if>" ++
      rest.translation
  | .choice test body branches rest =>
    "<xf:if is=\"" ++ test.expression.render ++ "\">" ++ body.translation ++
      branches.translation ++ "</xf:if>" ++ rest.translation

def Branches.translation : Branches Literal → Text
  | .done => []
  | .otherwise body => "<xf:else/>" ++ body.translation
  | .when test body others =>
    "<xf:elseif is=\"" ++ test.expression.render ++ "\">" ++ body.translation ++
      others.translation

end

mutual

def Forest.tokens {free : Bool} : Forest Literal free → List Token
  | .nil => []
  | .chunk literal rest => .chunk (IsStretch.stretch literal) :: rest.tokens
  | .braced name rest => .value .braced name :: rest.tokens
  | .selected name rest => .value .selected name :: rest.tokens
  | .computed selection rest => .selection selection :: rest.tokens
  | .conditional test body rest =>
    .opening .sourceIf test :: (body.tokens ++ .mark .sourceEnd :: rest.tokens)
  | .choice test body branches rest =>
    .opening .firstWhen test :: (body.tokens ++ (branches.tokens ++ rest.tokens))

/-- From the end of the branch before them to the end of the choice. -/
def Branches.tokens : Branches Literal → List Token
  | .done => [.mark .whenEnd]
  | .otherwise body => .mark .otherwise :: (body.tokens ++ [.mark .otherwiseEnd])
  | .when test body others => .opening .nextWhen test :: (body.tokens ++ others.tokens)

end

/-! ### The tokens are those of a source template -/

theorem Stage.cons {shapes : List Shape} {tokens : List Token} {token : Token}
    (h : Stage shapes tokens) (hshape : token.shape ∈ shapes)
    (hchunk : token.isChunk = true → StartsApart tokens) : Stage shapes (token :: tokens) :=
  ⟨⟨hchunk, h.spaced⟩, List.forall_mem_cons.2 ⟨hshape, h.shape_mem⟩⟩

theorem Stage.cons_tag {shapes : List Shape} {tokens : List Token} {token : Token}
    (h : Stage shapes tokens) (hshape : token.shape ∈ shapes) (hchunk : token.isChunk = false) :
    Stage shapes (token :: tokens) :=
  h.cons hshape fun htrue => absurd (hchunk.symm.trans htrue) Bool.false_ne_true

theorem startsApart_cons {token : Token} (h : token.isChunk = false) (tokens : List Token) :
    StartsApart (token :: tokens) := by
  intro other hother
  obtain rfl : token = other := Option.some.inj hother
  exact h

theorem Forest.startsApart (forest : Forest Literal false) {behind : List Token}
    (h : StartsApart behind) : StartsApart (forest.tokens ++ behind) := by
  cases forest with
  | nil => exact h
  | braced | selected | computed | conditional | choice => exact startsApart_cons rfl _

theorem Branches.startsApart (branches : Branches Literal) (behind : List Token) :
    StartsApart (branches.tokens ++ behind) := by
  cases branches with
  | done | otherwise | «when» => exact startsApart_cons rfl _

mutual

/-- The tokens of a forest are in the first stage, whatever tokens in that stage follow. -/
theorem Forest.stage {free : Bool} (forest : Forest Literal free) {behind : List Token}
    (h : Stage sourceShapes behind) (hapart : StartsApart behind) :
    Stage sourceShapes (forest.tokens ++ behind) := by
  cases forest with
  | nil => exact h
  | chunk literal rest =>
    refine (rest.stage h hapart).cons ?_ fun _ => rest.startsApart hapart
    simp [Token.shape, sourceShapes]
  | braced | selected | computed =>
    rename_i rest
    refine (rest.stage h hapart).cons_tag ?_ rfl
    simp [Token.shape, sourceShapes]
  | conditional test body rest =>
    have hend : Stage sourceShapes (.mark .sourceEnd :: (rest.tokens ++ behind)) :=
      (rest.stage h hapart).cons_tag (by decide) rfl
    rw [Forest.tokens, List.cons_append, List.append_assoc]
    refine (body.stage hend (startsApart_cons rfl _)).cons_tag ?_ rfl
    simp [Token.shape, sourceShapes]
  | choice test body branches rest =>
    have hbranches := branches.stage (rest.stage h hapart)
    rw [Forest.tokens, List.cons_append, List.append_assoc, List.append_assoc]
    refine (body.stage hbranches (branches.startsApart _)).cons_tag ?_ rfl
    simp [Token.shape, sourceShapes]

theorem Branches.stage (branches : Branches Literal) {behind : List Token}
    (h : Stage sourceShapes behind) : Stage sourceShapes (branches.tokens ++ behind) := by
  cases branches with
  | done => exact h.cons_tag (by decide) rfl
  | otherwise body =>
    have hend : Stage sourceShapes (.mark .otherwiseEnd :: behind) := h.cons_tag (by decide) rfl
    rw [Branches.tokens, List.cons_append, List.append_assoc]
    exact (body.stage hend (startsApart_cons rfl _)).cons_tag (by decide) rfl
  | «when» test body others =>
    rw [Branches.tokens, List.cons_append, List.append_assoc]
    refine (body.stage (others.stage h) (others.startsApart _)).cons_tag ?_ rfl
    simp [Token.shape, sourceShapes]

end

/-! ### The tokens are the two readings -/

theorem texts_opening (tag : Opening) (test : Spelling) (tokens : List Token) :
    texts (.opening tag test :: tokens) = tag.before ++ test.text ++ "\">" ++ texts tokens := rfl

theorem texts_resolved (tag : Opening) (test : Spelling) (tokens : List Token) :
    texts (.resolved tag test :: tokens) =
      tag.before ++ test.expression.render ++ "\">" ++ texts tokens := rfl

theorem texts_mark (tag : Mark) (tokens : List Token) :
    texts (.mark tag :: tokens) = tag.text ++ texts tokens := by
  rw [texts_cons, Token.text_mark]

theorem texts_chunk (literal : Stretch) (tokens : List Token) :
    texts (.chunk literal :: tokens) = literal.text ++ texts tokens := by
  rw [texts_cons, Token.text_chunk]

theorem before_firstWhen : Opening.before .firstWhen = "<xsl:choose>" ++ "<xsl:when test=\"" := by
  decide

theorem before_nextWhen : Opening.before .nextWhen = "</xsl:when>" ++ "<xsl:when test=\"" := by
  decide

theorem text_otherwise : Mark.text .otherwise = "</xsl:when>" ++ "<xsl:otherwise>" := by
  decide

theorem text_otherwiseEnd : Mark.text .otherwiseEnd = "</xsl:otherwise>" ++ "</xsl:choose>" := by
  decide

theorem text_whenEnd : Mark.text .whenEnd = "</xsl:when>" ++ "</xsl:choose>" := by
  decide

mutual

/-- The tokens of a forest spell its source. -/
theorem Forest.texts_tokens {free : Bool} (forest : Forest Literal free) :
    texts forest.tokens = forest.source := by
  cases forest with
  | nil => rfl
  | chunk literal rest =>
    rw [Forest.tokens, texts_chunk, rest.texts_tokens]
    rfl
  | braced | selected | computed =>
    rename_i rest
    rw [Forest.tokens, texts_cons, rest.texts_tokens]
    rfl
  | conditional test body rest =>
    rw [Forest.tokens, texts_opening, texts_append, texts_mark, body.texts_tokens,
      rest.texts_tokens]
    change _ = "<xsl:if test=\"" ++ test.text ++ "\">" ++ body.source ++ "</xsl:if>" ++ rest.source
    simp only [List.append_assoc]
    rfl
  | choice test body branches rest =>
    rw [Forest.tokens, texts_opening, texts_append, texts_append, body.texts_tokens,
      branches.texts_tokens, rest.texts_tokens, before_firstWhen]
    change _ = "<xsl:choose>" ++ ("<xsl:when test=\"" ++ test.text ++ "\">" ++ body.source ++
      "</xsl:when>") ++ branches.source ++ "</xsl:choose>" ++ rest.source
    simp only [List.append_assoc]

theorem Branches.texts_tokens (branches : Branches Literal) :
    texts branches.tokens = "</xsl:when>" ++ branches.source ++ "</xsl:choose>" := by
  cases branches with
  | done =>
    rw [Branches.tokens, texts_mark, text_whenEnd]
    simp only [texts_nil, List.append_nil]
    rfl
  | otherwise body =>
    rw [Branches.tokens, texts_mark, texts_append, texts_mark, text_otherwise, text_otherwiseEnd,
      body.texts_tokens]
    change _ = "</xsl:when>" ++ ("<xsl:otherwise>" ++ body.source ++ "</xsl:otherwise>") ++
      "</xsl:choose>"
    simp only [texts_nil, List.append_nil, List.append_assoc]
  | «when» test body others =>
    rw [Branches.tokens, texts_opening, texts_append, before_nextWhen, body.texts_tokens,
      others.texts_tokens]
    change _ = "</xsl:when>" ++ ("<xsl:when test=\"" ++ test.text ++ "\">" ++ body.source ++
      "</xsl:when>" ++ others.source) ++ "</xsl:choose>"
    simp only [List.append_assoc]

end

mutual

/-- The rewritten tokens of a forest spell its translation. -/
theorem Forest.texts_toFinal {free : Bool} (forest : Forest Literal free) :
    texts (forest.tokens.map Token.toFinal) = forest.translation := by
  cases forest with
  | nil => rfl
  | chunk literal rest =>
    have htoken : (Token.chunk (IsStretch.stretch literal)).toFinal =
        .chunk (IsStretch.stretch literal) := rfl
    rw [Forest.tokens, List.map_cons, htoken, texts_chunk, rest.texts_toFinal]
    rfl
  | braced | selected | computed =>
    rename_i rest
    rw [Forest.tokens, List.map_cons, texts_cons, rest.texts_toFinal]
    rfl
  | conditional test body rest =>
    have hif : (Token.opening .sourceIf test).toFinal = .resolved .forumIf test := rfl
    have hend : (Token.mark .sourceEnd).toFinal = .mark .forumEnd := rfl
    rw [Forest.tokens, List.map_cons, List.map_append, List.map_cons, hif, hend, texts_resolved,
      texts_append, texts_mark, body.texts_toFinal, rest.texts_toFinal]
    change _ = "<xf:if is=\"" ++ test.expression.render ++ "\">" ++ body.translation ++
      "</xf:if>" ++ rest.translation
    simp only [List.append_assoc]
    rfl
  | choice test body branches rest =>
    have hwhen : (Token.opening .firstWhen test).toFinal = .resolved .forumIf test := rfl
    rw [Forest.tokens, List.map_cons, List.map_append, List.map_append, hwhen, texts_resolved,
      texts_append, texts_append, body.texts_toFinal, branches.texts_toFinal, rest.texts_toFinal]
    change _ = "<xf:if is=\"" ++ test.expression.render ++ "\">" ++ body.translation ++
      branches.translation ++ "</xf:if>" ++ rest.translation
    simp only [List.append_assoc]
    rfl

theorem Branches.texts_toFinal (branches : Branches Literal) :
    texts (branches.tokens.map Token.toFinal) = branches.translation ++ "</xf:if>" := by
  cases branches with
  | done => exact texts_mark _ _
  | otherwise body =>
    have helse : (Token.mark .otherwise).toFinal = .mark .forumElse := rfl
    have hend : (Token.mark .otherwiseEnd).toFinal = .mark .forumEnd := rfl
    rw [Branches.tokens, List.map_cons, List.map_append, List.map_singleton, helse, hend,
      texts_mark, texts_append, texts_mark, body.texts_toFinal]
    change _ = "<xf:else/>" ++ body.translation ++ "</xf:if>"
    rw [texts_nil, List.append_nil, List.append_assoc]
    rfl
  | «when» test body others =>
    have hnext : (Token.opening .nextWhen test).toFinal = .resolved .forumElseif test := rfl
    rw [Branches.tokens, List.map_cons, List.map_append, hnext, texts_resolved, texts_append,
      body.texts_toFinal, others.texts_toFinal]
    change _ = "<xf:elseif is=\"" ++ test.expression.render ++ "\">" ++ body.translation ++
      others.translation ++ "</xf:if>"
    simp only [List.append_assoc]
    rfl

end

end

/-- The conversion of a template is the translation of its tree, whatever the tree. -/
theorem convert_source {free : Bool} (forest : Forest Chunk free) :
    convert forest.source = .ok forest.translation := by
  have hstage : Stage sourceShapes (forest.tokens ++ []) :=
    forest.stage ⟨trivial, by simp⟩ (by simp [StartsApart])
  rw [List.append_nil] at hstage
  rw [← forest.texts_tokens, convert_texts hstage, forest.texts_toFinal]

end LazyEmbed.Template
