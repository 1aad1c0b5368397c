import LazyEmbed.Proofs.Template.Expression
import LazyEmbed.Template.Dialect

/-!
# Templates as lists of tokens

Conversion never parses: it goes over the flat text again and again, and pairs tags only where they
touch. Below, the text of a template is cut so that tags which are changed together make one token.
Then every pass changes tokens one by one: each token is a hit of the pass, or no hit begins in it.

That no hit begins in a token is a matter of its shape, the fixed text around its content: the
content has no character that a hit begins with. Chunks of literal text have no shape, but they are
free of all texts that tags begin with, and no two of them touch.
-/

namespace LazyEmbed.Template

/-- Every tag, and everything else that is looked for, begins with one of these. -/
def roots : List Text :=
  ["\x7b", "\x7d", "<xsl:", "</xsl:", "<xf:", "<iframe", hintStart, "&#123;", "&#125;"]

/-- A stretch of literal text in a template. -/
structure Chunk where
  text : Text
  no_open : '\x7b' ∉ text
  no_close : '\x7d' ∉ text
  no_openReference : ¬("&#123;" : Text) <:+: text
  no_closeReference : ¬("&#125;" : Text) <:+: text
  no_element : ¬("xsl:" : Text) <:+: text
  no_forum : ¬("<xf:" : Text) <:+: text
  no_frame : ¬("<iframe" : Text) <:+: text
  no_hint : ¬hintStart <:+: text

structure Stretch where
  text : Text
  no_root : ∀ root ∈ roots, ¬root <:+: text

abbrev Name := { name : Text // IsName name }

structure Computed extends Spelling where
  not_value : ∀ name, expression ≠ .value name

inductive Access where
  | braced
  | selected
  | forum
  deriving DecidableEq

inductive Opening where
  | sourceIf
  | firstWhen
  | nextWhen
  | forumIf
  | forumElseif
  deriving DecidableEq

inductive Mark where
  | sourceEnd
  | otherwise
  | otherwiseEnd
  | whenEnd
  | forumElse
  | forumEnd
  deriving DecidableEq

namespace Access

def before : Access → Text
  | braced => "\x7b@"
  | selected => "<xsl:value-of select=\"@"
  | forum => "\x7b$"

def after : Access → Text
  | braced => "\x7d"
  | selected => "\"/>"
  | forum => "\x7d"

end Access

def Opening.before : Opening → Text
  | sourceIf => "<xsl:if test=\""
  | firstWhen => "<xsl:choose><xsl:when test=\""
  | nextWhen => "</xsl:when><xsl:when test=\""
  | forumIf => "<xf:if is=\""
  | forumElseif => "<xf:elseif is=\""

def Mark.text : Mark → Text
  | sourceEnd => "</xsl:if>"
  | otherwise => "</xsl:when><xsl:otherwise>"
  | otherwiseEnd => "</xsl:otherwise></xsl:choose>"
  | whenEnd => "</xsl:when></xsl:choose>"
  | forumElse => "<xf:else/>"
  | forumEnd => "</xf:if>"

inductive Shape where
  | chunk
  | value (access : Access)
  | selection
  | expression
  | opening (tag : Opening)
  | resolved (tag : Opening)
  | mark (tag : Mark)
  deriving DecidableEq

namespace Shape

def before : Shape → Text
  | chunk => []
  | value access => access.before
  | selection => "<xsl:value-of select=\""
  | expression => "\x7b\x7b "
  | opening tag => tag.before
  | resolved tag => tag.before
  | mark tag => tag.text

def after : Shape → Text
  | chunk => []
  | value access => access.after
  | selection => "\"/>"
  | expression => " \x7d\x7d"
  | opening _ => "\">"
  | resolved _ => "\">"
  | mark _ => []

theorem head?_before {shape : Shape} (h : shape ≠ .chunk) :
    shape.before.head? = some '<' ∨ shape.before.head? = some '\x7b' := by
  cases shape with
  | chunk => exact absurd rfl h
  | value access =>
    cases access <;> (dsimp only [before, Access.before]; rw [String.toList_ofList]; decide)
  | selection | expression => dsimp only [before]; rw [String.toList_ofList]; decide
  | opening tag | resolved tag =>
    cases tag <;> (dsimp only [before, Opening.before]; rw [String.toList_ofList]; decide)
  | mark tag => cases tag <;> (dsimp only [before, Mark.text]; rw [String.toList_ofList]; decide)

def avoids (shape : Shape) (start : Text) : Bool :=
  Text.apart start shape.before && Text.apart start shape.after

end Shape

inductive Token where
  | chunk (literal : Stretch)
  | value (access : Access) (name : Name)
  | selection (computed : Computed)
  | expression (computed : Computed)
  | opening (tag : Opening) (test : Spelling)
  /-- A tag whose test is converted. -/
  | resolved (tag : Opening) (test : Spelling)
  | mark (tag : Mark)

namespace Token

def shape : Token → Shape
  | chunk _ => .chunk
  | value access _ => .value access
  | selection _ => .selection
  | expression _ => .expression
  | opening tag _ => .opening tag
  | resolved tag _ => .resolved tag
  | mark tag => .mark tag

def content : Token → Text
  | chunk literal => literal.text
  | value _ name => name.val
  | selection computed => computed.text
  | expression computed => computed.expression.render
  | opening _ test => test.text
  | resolved _ test => test.expression.render
  | mark _ => []

def text (token : Token) : Text := token.shape.before ++ token.content ++ token.shape.after

theorem text_chunk (literal : Stretch) : (chunk literal).text = literal.text :=
  List.append_nil literal.text

theorem text_mark (tag : Mark) : (mark tag).text = tag.text :=
  (List.append_nil (tag.text ++ [])).trans (List.append_nil tag.text)

theorem text_append (token : Token) (rest : Text) :
    token.text ++ rest = token.shape.before ++ (token.content ++ (token.shape.after ++ rest)) := by
  rw [text, List.append_assoc, List.append_assoc]

end Token

theorem Chunk.not_isInfix_of_mem_roots (literal : Chunk) :
    ∀ root ∈ roots, ¬root <:+: literal.text := by
  have helement : ∀ before : Text, ¬before ++ ("xsl:" : Text) <:+: literal.text :=
    fun before hinside =>
    literal.no_element ((List.suffix_append before _).isInfix.trans hinside)
  intro root hroot
  simp only [roots, List.mem_cons, List.not_mem_nil, or_false] at hroot
  rcases hroot with rfl | rfl | rfl | rfl | rfl | rfl | rfl | rfl | rfl
  · exact fun hinside => literal.no_open (hinside.subset (by decide))
  · exact fun hinside => literal.no_close (hinside.subset (by decide))
  · exact helement ['<']
  · exact helement ['<', '/']
  · exact literal.no_forum
  · exact literal.no_frame
  · exact literal.no_hint
  · exact literal.no_openReference
  · exact literal.no_closeReference

def Chunk.toStretch (literal : Chunk) : Stretch := ⟨literal.text, literal.not_isInfix_of_mem_roots⟩

namespace Stretch

theorem not_mem_of_mem_roots (literal : Stretch) {c : Char} (hc : [c] ∈ roots) :
    c ∉ literal.text := by
  intro hmem
  obtain ⟨before, after, heq⟩ := List.append_of_mem hmem
  exact literal.no_root [c] hc ⟨before, after, by simp [heq]⟩

theorem not_mem_tail_of_mem_roots :
    ∀ root ∈ roots, '<' ∉ root.tail ∧ '\x7b' ∉ root.tail := by decide

/-- Nothing that begins with a root begins in a chunk, if no chunk follows it. -/
theorem misses (literal : Stretch) {start rest : Text} (hstart : ∃ root ∈ roots, root <+: start)
    (hrest : ∀ c ∈ rest.head?, c = '<' ∨ c = '\x7b') : Text.Misses start literal.text rest := by
  obtain ⟨root, hroot, hbegins⟩ := hstart
  have hmisses : Text.Misses root literal.text rest := by
    refine Text.misses_of_not_isInfix (literal.no_root root hroot) fun c hc => ?_
    obtain ⟨htag, hbrace⟩ := not_mem_tail_of_mem_roots root hroot
    rcases hrest c hc with rfl | rfl
    · exact htag
    · exact hbrace
  exact hmisses.of_isPrefix hbegins

end Stretch

namespace Token

def isChunk : Token → Bool
  | chunk _ => true
  | _ => false

def initials : List Char := ['<', '\x7b', '\x7d']

theorem not_mem_content {token : Token} (h : token.isChunk = false) :
    ∀ c ∈ initials, c ∉ token.content := by
  have hbarrier : ∀ c ∈ initials, c ∈ foreign ∧ Html.IsBarrier c := by decide
  intro c hc
  obtain ⟨hforeign, hbarrier⟩ := hbarrier c hc
  cases token with
  | chunk literal => exact Bool.noConfusion h
  | value access name => exact name.property.isClean c hforeign
  | selection computed => exact computed.not_mem_text hforeign hbarrier
  | expression computed => exact (Expression.isClean computed.wellFormed).2 c hforeign
  | opening tag test => exact test.not_mem_text hforeign hbarrier
  | resolved tag test => exact (Expression.isClean test.wellFormed).2 c hforeign
  | mark tag => exact List.not_mem_nil

theorem misses_of_content {token : Token} {start rest : Text}
    (havoids : token.shape.avoids start = true)
    (hcontent : Text.Misses start token.content (token.shape.after ++ rest)) :
    Text.Misses start token.text rest := by
  obtain ⟨hbefore, hafter⟩ := Bool.and_eq_true_iff.1 havoids
  have hopen :
      Text.Misses start (token.shape.before ++ token.content) (token.shape.after ++ rest) :=
    (Text.misses_of_apart hbefore _).append hcontent
  exact hopen.append (Text.misses_of_apart hafter rest)

/-- What the text behind a token has to be like: no closing brace comes next, and behind a chunk a
token of another kind. -/
def Follows (token : Token) (rest : Text) : Prop :=
  rest.head? ≠ some '\x7d' ∧
    (token.isChunk = true → ∀ c ∈ rest.head?, c = '<' ∨ c = '\x7b')

def IsStart (start : Text) : Prop :=
  (∃ root ∈ roots, root <+: start) ∧ ∃ initial ∈ initials, start.head? = some initial

instance (start : Text) : Decidable (IsStart start) := inferInstanceAs (Decidable (_ ∧ _))

/-- A token whose shape avoids a start holds no occurrence of it, not even into what follows. -/
theorem misses_of_avoids {token : Token} {start rest : Text} (hstart : IsStart start)
    (havoids : token.shape.avoids start = true) (hfollows : token.Follows rest) :
    Text.Misses start token.text rest := by
  obtain ⟨hroot, initial, hinitial, hhead⟩ := hstart
  obtain ⟨tail, rfl⟩ := List.head?_eq_some_iff.1 hhead
  refine misses_of_content havoids ?_
  by_cases hchunk : token.isChunk = true
  · cases token with
    | chunk literal => exact literal.misses hroot (hfollows.2 rfl)
    | _ => exact Bool.noConfusion hchunk
  · have hcontent := not_mem_content (Bool.not_eq_true _ ▸ hchunk) initial hinitial
    exact Text.misses_of_not_mem hcontent

end Token

def texts (tokens : List Token) : Text := tokens.flatMap Token.text

@[simp]
theorem texts_nil : texts [] = [] := rfl

@[simp]
theorem texts_cons (token : Token) (tokens : List Token) :
    texts (token :: tokens) = token.text ++ texts tokens := rfl

theorem texts_append (first second : List Token) :
    texts (first ++ second) = texts first ++ texts second := List.flatMap_append

def StartsApart (tokens : List Token) : Prop := ∀ token ∈ tokens.head?, token.isChunk = false

def Spaced : List Token → Prop
  | [] => True
  | token :: tokens => (token.isChunk = true → StartsApart tokens) ∧ Spaced tokens

theorem head?_text {token : Token} (h : token.isChunk = false) :
    token.text.head? = some '<' ∨ token.text.head? = some '\x7b' := by
  have hshape : token.shape ≠ .chunk := by
    cases token with
    | chunk literal => exact Bool.noConfusion h
    | _ => exact Shape.noConfusion
  rw [Token.text, List.append_assoc, List.head?_append]
  rcases Shape.head?_before hshape with hhead | hhead
  · exact .inl (by rw [hhead, Option.some_or])
  · exact .inr (by rw [hhead, Option.some_or])

theorem head?_texts_of_startsApart {tokens : List Token} (h : StartsApart tokens) :
    ∀ c ∈ (texts tokens).head?, c = '<' ∨ c = '\x7b' := by
  cases tokens with
  | nil => simp
  | cons token tokens =>
    intro c hc
    rw [texts_cons, List.head?_append] at hc
    rcases head?_text (h token rfl) with hhead | hhead
    · rw [hhead] at hc
      exact .inl (Option.some.inj hc).symm
    · rw [hhead] at hc
      exact .inr (Option.some.inj hc).symm

theorem head?_texts_ne (tokens : List Token) : (texts tokens).head? ≠ some '\x7d' := by
  induction tokens with
  | nil => simp
  | cons token tokens ih =>
    rw [texts_cons, List.head?_append]
    cases hchunk : token.isChunk with
    | false =>
      rcases head?_text hchunk with hhead | hhead
      · simp [hhead]
      · simp [hhead]
    | true =>
      cases token with
      | chunk literal =>
        rw [Token.text_chunk]
        cases hliteral : literal.text with
        | nil => exact ih
        | cons c behind =>
          intro hhead
          have hmem : '\x7d' ∈ literal.text := by
            rw [hliteral, ← Option.some.inj hhead]
            exact List.mem_cons_self
          exact literal.not_mem_of_mem_roots (by decide) hmem
      | _ => exact Bool.noConfusion hchunk

/-- What is behind tokens is markup, if it is anything. -/
theorem Spaced.follows {token : Token} {tokens : List Token} (h : Spaced (token :: tokens))
    {behind : Text} (hbehind : ∀ c ∈ behind.head?, c = '<') :
    token.Follows (texts tokens ++ behind) := by
  rw [Token.Follows, List.head?_append]
  constructor
  · cases hhead : (texts tokens).head? with
    | none => exact fun heq => absurd (hbehind '\x7d' heq) (by decide)
    | some c => exact fun heq => head?_texts_ne tokens (hhead.trans heq)
  · intro hchunk c hc
    cases hhead : (texts tokens).head? with
    | none =>
      rw [hhead] at hc
      exact .inl (hbehind c hc)
    | some d =>
      rw [hhead] at hc
      exact head?_texts_of_startsApart (h.1 hchunk) c (hhead.trans hc)

end LazyEmbed.Template
