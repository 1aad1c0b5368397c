import LazyEmbed.Proofs.Template.Token

/-!
# What each pass makes of the tokens

A pass that has a hit exactly where a token of some kind stands changes these tokens and no others.
For each pass, what has to be shown is that the other tokens avoid the text that its hits begin
with, which is a look at the shapes, and what its reader makes of a token of the right kind. Three
readers need more, since a token that is no hit begins as their hits do.
-/

namespace LazyEmbed.Template

variable {α ε : Type}

/-- What the pass does where the token stands: no hit begins in the token, or one begins with the
token and goes on to its end, or to a rest of it in which no other hit begins. -/
def Changes (pattern : Pattern α) (write : α → Except ε Text) (change : Token → Token)
    (token : Token) : Prop :=
  ∀ rest, token.Follows rest →
    (pattern.Passes token.text rest ∧ change token = token) ∨
      ∃ value written left,
        pattern.reader.run (token.text ++ rest) = some (value, left ++ rest) ∧
          write value = .ok written ∧ pattern.Passes left rest ∧
            (change token).text = written ++ left

/-- A pass that changes tokens one by one changes the whole row, and stops at its end. -/
theorem replaceM_texts_append {pattern : Pattern α} {write : α → Except ε Text}
    {change : Token → Token} {tokens : List Token} (hspaced : Spaced tokens)
    (h : ∀ token ∈ tokens, Changes pattern write change token) {behind : Text}
    (hbehind : ∀ c ∈ behind.head?, c = '<') :
    pattern.replaceM write (texts tokens ++ behind) =
      (pattern.replaceM write behind).map (texts (tokens.map change) ++ ·) := by
  induction tokens with
  | nil =>
    simp only [texts_nil, List.map_nil, List.nil_append]
    cases pattern.replaceM write behind <;> rfl
  | cons token tokens ih =>
    obtain ⟨hchange, hothers⟩ := List.forall_mem_cons.1 h
    have hrest := ih hspaced.2 hothers
    rw [texts_cons, List.map_cons, texts_cons, List.append_assoc]
    rcases hchange (texts tokens ++ behind) (hspaced.follows hbehind) with
      ⟨hpasses, hsame⟩ | ⟨value, written, left, hrun, hwrite, hpasses, htext⟩
    · rw [Pattern.replaceM_append _ hpasses, hrest, hsame]
      cases pattern.replaceM write behind <;> simp [Except.map]
    · rw [Pattern.replaceM_of_run_eq_some _ hrun, hwrite, Pattern.replaceM_append _ hpasses, hrest,
        htext]
      cases pattern.replaceM write behind <;>
        simp [Except.map, bind, Except.bind, pure, Except.pure]

/-! ### Stages -/

def sourceShapes : List Shape :=
  [.chunk, .value .braced, .value .selected, .selection, .opening .sourceIf, .opening .firstWhen,
    .opening .nextWhen, .mark .sourceEnd, .mark .otherwise, .mark .otherwiseEnd, .mark .whenEnd]

def openShapes : List Shape :=
  sourceShapes ++ [.value .forum, .opening .forumIf, .opening .forumElseif, .mark .forumElse,
    .mark .forumEnd]

def forumShapes : List Shape :=
  [.chunk, .value .forum, .selection, .opening .forumIf, .opening .forumElseif, .mark .forumElse,
    .mark .forumEnd]

def resolvedShapes : List Shape :=
  [.chunk, .value .forum, .selection, .resolved .forumIf, .resolved .forumElseif, .mark .forumElse,
    .mark .forumEnd]

def finalShapes : List Shape :=
  [.chunk, .value .forum, .expression, .resolved .forumIf, .resolved .forumElseif,
    .mark .forumElse, .mark .forumEnd]

/-! ### What tells the shapes apart -/

/-- The shapes that a pass finds by nothing but the text before their content. -/
def tagShapes : List Shape :=
  [.value .braced, .opening .sourceIf, .opening .firstWhen, .opening .nextWhen, .mark .sourceEnd,
    .mark .otherwise, .mark .otherwiseEnd, .mark .whenEnd]

theorem isStart_before : ∀ hit ∈ tagShapes, Token.IsStart hit.before := by
  simp only [tagShapes, List.forall_mem_cons]
  dsimp only [Shape.before, Access.before, Opening.before, Mark.text, Token.IsStart,
    roots, hintStart]
  -- The kernel takes long to decode a literal, so it is given the characters, here and below.
  repeat rw [String.toList_ofList]
  decide +kernel

/-- What such a shape begins with begins in no other shape. -/
theorem avoids_before {hit shape : Shape} (hhit : hit ∈ tagShapes) (hshape : shape ∈ openShapes)
    (hne : shape ≠ hit) : shape.avoids hit.before = true := by
  have hall : (tagShapes.all fun hit => openShapes.all fun shape =>
      shape == hit || shape.avoids hit.before) = true := by
    dsimp only [tagShapes, openShapes, sourceShapes, List.cons_append, List.nil_append, List.all,
      Shape.avoids, Shape.before, Shape.after, Access.before, Access.after,
      Opening.before, Mark.text]
    repeat rw [String.toList_ofList]
    decide +kernel
  have hpair := List.all_eq_true.1 (List.all_eq_true.1 hall hit hhit) shape hshape
  simpa [hne] using hpair

/-- A bare value that is selected begins as everything does that is selected. -/
theorem avoids_before_selected {shape : Shape} (hshape : shape ∈ openShapes)
    (hselection : shape ≠ .selection) (hne : shape ≠ .value .selected) :
    shape.avoids (Access.before .selected) = true := by
  have hall : (openShapes.all fun shape => shape == .selection || shape == .value .selected ||
      shape.avoids (Access.before .selected)) = true := by
    dsimp only [openShapes, sourceShapes, List.cons_append, List.nil_append, List.all, Shape.avoids,
      Shape.before, Shape.after, Access.before, Access.after, Opening.before, Mark.text]
    repeat rw [String.toList_ofList]
    decide +kernel
  have hshape := List.all_eq_true.1 hall shape hshape
  simpa [hselection, hne] using hshape

/-- No shape has an empty frame or a hint in it. -/
theorem avoids_frame_hint : ∀ shape ∈ openShapes,
    shape.avoids "<iframe" = true ∧ shape.avoids hintStart = true := by
  simp only [openShapes, sourceShapes, List.cons_append, List.nil_append, List.forall_mem_cons]
  dsimp only [Shape.avoids, Shape.before, Shape.after, Access.before, Access.after, Opening.before,
    Mark.text, hintStart]
  repeat rw [String.toList_ofList]
  decide +kernel

/-- The braces of a template as it is given stand alone. -/
theorem avoids_braces : ∀ shape ∈ sourceShapes, shape.avoids "\x7b\x7b" = true ∧
    (shape ≠ .value .braced → shape.avoids "\x7d\x7d" = true) := by
  simp only [sourceShapes, List.forall_mem_cons]
  dsimp only [Shape.avoids, Shape.before, Shape.after, Access.before, Access.after, Opening.before,
    Mark.text]
  repeat rw [String.toList_ofList]
  decide +kernel

/-! ### One kind of token -/

section

variable {pattern : Pattern α} {write : α → Except ε Text} {change : Token → Token} {start : Text}
  {token : Token}

theorem changes_of_avoids (hbegins : pattern.BeginsWith start) (hstart : Token.IsStart start)
    (havoids : token.shape.avoids start = true) (hsame : change token = token) :
    Changes pattern write change token :=
  fun _ hfollows => .inl ⟨hbegins.passes (Token.misses_of_avoids hstart havoids hfollows), hsame⟩

/-- A pass for one shape changes the tokens of that shape and no others. -/
theorem changes_of_hit {shapes : List Shape} (hit : Shape) (hbegins : pattern.BeginsWith start)
    (hstart : Token.IsStart start)
    (havoids : ∀ shape ∈ shapes, shape ≠ hit → shape.avoids start = true)
    (hsame : token.shape ≠ hit → change token = token)
    (hhit : token.shape = hit → ∀ rest, ∃ value,
      pattern.reader.run (token.text ++ rest) = some (value, rest) ∧
        write value = .ok (change token).text)
    (hshape : token.shape ∈ shapes) : Changes pattern write change token := by
  by_cases heq : token.shape = hit
  · intro rest _
    obtain ⟨value, hrun, hwrite⟩ := hhit heq rest
    exact .inr ⟨value, _, [], hrun, hwrite, pattern.passes_nil rest, (List.append_nil _).symm⟩
  · exact changes_of_avoids hbegins hstart (havoids _ hshape heq) (hsame heq)

end

namespace Token

def changeAccess (old new : Access) : Token → Token
  | value access name => value (if access = old then new else access) name
  | token => token

def changeOpening (old new : Opening) : Token → Token
  | opening tag test => opening (if tag = old then new else tag) test
  | token => token

def changeMark (old new : Mark) : Token → Token
  | mark tag => mark (if tag = old then new else tag)
  | token => token

theorem changeMark_of_ne {old new : Mark} {token : Token} (h : token.shape ≠ .mark old) :
    token.changeMark old new = token := by
  cases token with
  | mark tag =>
    have hne : tag ≠ old := fun heq => h (congrArg Shape.mark heq)
    rw [changeMark, if_neg hne]
  | _ => rfl

theorem changeOpening_of_ne {old new : Opening} {token : Token} (h : token.shape ≠ .opening old) :
    token.changeOpening old new = token := by
  cases token with
  | opening tag test =>
    have hne : tag ≠ old := fun heq => h (congrArg Shape.opening heq)
    rw [changeOpening, if_neg hne]
  | _ => rfl

theorem changeAccess_of_ne {old new : Access} {token : Token} (h : token.shape ≠ .value old) :
    token.changeAccess old new = token := by
  cases token with
  | value access name =>
    have hne : access ≠ old := fun heq => h (congrArg Shape.value heq)
    rw [changeAccess, if_neg hne]
  | _ => rfl

theorem eq_mark_of_shape {token : Token} {tag : Mark} (h : token.shape = .mark tag) :
    token = mark tag := by
  cases token with
  | mark other => exact congrArg mark (Shape.mark.inj h)
  | _ => exact Shape.noConfusion h

theorem exists_opening_of_shape {token : Token} {tag : Opening} (h : token.shape = .opening tag) :
    ∃ test, token = opening tag test := by
  cases token with
  | opening other test => exact ⟨test, by rw [Shape.opening.inj h]⟩
  | _ => exact Shape.noConfusion h

theorem exists_value_of_shape {token : Token} {access : Access} (h : token.shape = .value access) :
    ∃ name, token = value access name := by
  cases token with
  | value other name => exact ⟨name, by rw [Shape.value.inj h]⟩
  | _ => exact Shape.noConfusion h

end Token

/-! ### Tags -/

theorem run_fixed (text rest : Text) (h : text ≠ []) :
    (Pattern.fixed text h).reader.run (text ++ rest) = some ((), rest) :=
  Pattern.run_after_append text (pure ()) h rest

theorem changes_mark {old new : Mark} (hne : old.text ≠ []) (hold : .mark old ∈ tagShapes)
    {token : Token} (hshape : token.shape ∈ openShapes) :
    Changes (ε := ε) (Pattern.fixed old.text hne) (fun _ => .ok new.text) (Token.changeMark old new)
      token := by
  refine changes_of_hit (.mark old) (Pattern.after_beginsWith _ _ _) (isStart_before _ hold)
    (fun _ => avoids_before hold) Token.changeMark_of_ne (fun heq rest => ⟨(), ?_, ?_⟩) hshape
  · rw [Token.eq_mark_of_shape heq, Token.text_mark]
    exact run_fixed old.text rest hne
  · rw [Token.eq_mark_of_shape heq, Token.changeMark, if_pos rfl, Token.text_mark]

theorem run_opening {start : Text} (h : start ≠ []) {test : Text} (hne : test ≠ [])
    (hquote : '"' ∉ test) (rest : Text) :
    (Markup.opening start h).reader.run (start ++ (test ++ ("\">" ++ rest))) =
      some (test, rest) := by
  have hmany :
      (Reader.many1 (· ≠ '"')).run (test ++ ("\">" ++ rest)) = some (test, "\">" ++ rest) :=
    Reader.run_many1_ne hne hquote ('>' :: rest)
  rw [Markup.opening, Pattern.run_after_append]
  simp only [Reader.run_bind, hmany, Option.bind_some, Reader.run_literal_append, Reader.run_pure]

theorem changes_opening {old new : Opening} (hne : old.before ≠ [])
    (hold : .opening old ∈ tagShapes) {token : Token} (hshape : token.shape ∈ openShapes) :
    Changes (ε := ε) (Markup.opening old.before hne) (fun test => .ok (new.before ++ test ++ "\">"))
      (Token.changeOpening old new) token := by
  refine changes_of_hit (.opening old) (Pattern.after_beginsWith _ _ _) (isStart_before _ hold)
    (fun _ => avoids_before hold) Token.changeOpening_of_ne (fun heq rest => ?_) hshape
  obtain ⟨test, rfl⟩ := Token.exists_opening_of_shape heq
  refine ⟨test.text, ?_, ?_⟩
  · rw [Token.text_append]
    exact run_opening hne test.text_ne_nil test.no_quote rest
  · rw [Token.changeOpening, if_pos rfl]
    rfl

/-! ### Values -/

theorem run_name {start close : Text} (h : start ≠ []) {c : Char} (hclose : close.head? = some c)
    (hc : Text.isWord c = false) (name : Name) (rest : Text) :
    (Pattern.after start (do
      let name ← Reader.many1 Text.isWord
      Reader.literal close
      pure name) h).reader.run (start ++ (name.val ++ (close ++ rest))) =
        some (name.val, rest) := by
  obtain ⟨behind, rfl⟩ := List.head?_eq_some_iff.1 hclose
  have hmany : (Reader.many1 Text.isWord).run (name.val ++ (c :: behind ++ rest)) =
      some (name.val, c :: behind ++ rest) :=
    Reader.run_many1_of_all name.property.1 name.property.2 hc (behind ++ rest)
  rw [Pattern.run_after_append]
  simp only [Reader.run_bind, hmany, Option.bind_some, Reader.run_literal_append, Reader.run_pure]

theorem changes_braced {token : Token} (hshape : token.shape ∈ openShapes) :
    Changes (ε := ε) Markup.bracedAttribute (fun name => .ok (Markup.variableText name))
      (Token.changeAccess .braced .forum) token := by
  have hold : .value .braced ∈ tagShapes := List.mem_cons_self
  refine changes_of_hit (.value .braced) (Pattern.after_beginsWith _ _ _) (isStart_before _ hold)
    (fun _ => avoids_before hold) Token.changeAccess_of_ne (fun heq rest => ?_) hshape
  obtain ⟨name, rfl⟩ := Token.exists_value_of_shape heq
  refine ⟨name.val, ?_, ?_⟩
  · rw [Token.text_append]
    exact run_name (by decide) (c := '\x7d') rfl (by decide) name rest
  · rw [Token.changeAccess, if_pos rfl]
    rfl

theorem Computed.text_ne (computed : Computed) (name : Name) : computed.text ≠ '@' :: name.val := by
  intro htext
  have hsource : '@' :: name.val = (Expression.value name.val).source := by
    simp [Expression.source_value]
  have hamp : '&' ∉ '@' :: name.val := by
    have hname := name.property.isClean '&' (by decide)
    simpa using hname
  have hdecodes := computed.decodes
  rw [htext, Html.decodeReferences_of_not_mem hamp, hsource] at hdecodes
  have hread := Expression.read?_source computed.wellFormed.isReadable
  have hvalue := Expression.read?_source (show (Expression.value name.val).IsReadable from
    name.property)
  rw [← Except.ok.inj hdecodes, hvalue] at hread
  exact computed.not_value name.val (Option.some.inj hread).symm

theorem eq_of_append_quote {first second rest other : Text} (hfirst : '"' ∉ first)
    (hsecond : '"' ∉ second) (h : first ++ '"' :: rest = second ++ '"' :: other) :
    first = second := by
  have htake := congrArg (List.takeWhile fun c => decide (c ≠ '"')) h
  rwa [Text.takeWhile_of_all (Text.forall_ne_iff.2 hfirst) rfl,
    Text.takeWhile_of_all (Text.forall_ne_iff.2 hsecond) rfl] at htake

/-- What is selected, but no bare value, is not read as one. -/
theorem run_selectedAttribute (computed : Computed) (rest : Text) :
    Markup.selectedAttribute.reader.run ((Token.selection computed).text ++ rest) = none := by
  rw [Option.eq_none_iff_forall_ne_some]
  rintro ⟨name, left⟩ hrun
  obtain ⟨_, behind, hstart, hrun⟩ := Reader.run_bind_eq_some_iff.1 hrun
  obtain ⟨found, _, hname, hrun⟩ := Reader.run_bind_eq_some_iff.1 hrun
  obtain ⟨_, left', hclose, -⟩ := Reader.run_bind_eq_some_iff.1 hrun
  obtain ⟨rfl, hne, hall⟩ := Reader.eq_append_of_run_many1 hname
  obtain rfl : _ = "\"/>" ++ left' := Reader.run_literal_eq_some_iff.1 hclose
  have htext := Reader.run_literal_eq_some_iff.1 hstart
  have hsplit : ("<xsl:value-of select=\"@" : Text) = "<xsl:value-of select=\"" ++ ['@'] := by
    decide
  rw [Token.text_append, hsplit, List.append_assoc] at htext
  have hbehind := List.append_cancel_left htext
  have hquote : '"' ∉ '@' :: found := by
    intro hmem
    rcases List.mem_cons.1 hmem with heq | hmem
    · exact absurd heq (by decide)
    · exact absurd (hall '"' hmem) (by decide)
  exact computed.text_ne ⟨found, hne, hall⟩ (eq_of_append_quote computed.no_quote hquote hbehind)

theorem passes_selectedAttribute (computed : Computed) (rest : Text) :
    Markup.selectedAttribute.Passes (Token.selection computed).text rest := by
  have hstart : Markup.selectedAttribute.BeginsWith ('<' :: "xsl:value-of select=\"@") :=
    Pattern.after_beginsWith _ _ _
  have htext : (Token.selection computed).text =
      '<' :: ("xsl:value-of select=\"" ++ computed.text ++ "\"/>") := by
    have hopen : ("<xsl:value-of select=\"" : Text) = '<' :: "xsl:value-of select=\"" := by
      decide
    change "<xsl:value-of select=\"" ++ computed.text ++ "\"/>" = _
    rw [hopen]
    rfl
  have hrun := run_selectedAttribute computed rest
  have hcontent : '<' ∉ computed.text :=
    computed.not_mem_text (by decide) (by decide)
  rw [htext] at hrun ⊢
  refine Pattern.passes_cons hrun (hstart.passes (Text.misses_of_not_mem ?_))
  simpa using hcontent

theorem changes_selected {token : Token} (hshape : token.shape ∈ openShapes) :
    Changes (ε := ε) Markup.selectedAttribute (fun name => .ok (Markup.variableText name))
      (Token.changeAccess .selected .forum) token := by
  by_cases hselection : token.shape = .selection
  · cases token with
    | selection computed => exact fun rest _ => .inl ⟨passes_selectedAttribute computed rest, rfl⟩
    | _ => exact Shape.noConfusion hselection
  · have hothers : token.shape ∈ openShapes.filter (· ≠ .selection) :=
      List.mem_filter.2 ⟨hshape, decide_eq_true hselection⟩
    refine changes_of_hit (.value .selected) (Pattern.after_beginsWith _ _ _) (by decide)
      (fun shape hmem hne => ?_) Token.changeAccess_of_ne (fun heq rest => ?_) hothers
    · obtain ⟨hshape, hselection⟩ := List.mem_filter.1 hmem
      exact avoids_before_selected hshape (of_decide_eq_true hselection) hne
    obtain ⟨name, rfl⟩ := Token.exists_value_of_shape heq
    refine ⟨name.val, ?_, ?_⟩
    · rw [Token.text_append]
      exact run_name (by decide) (c := '"') rfl (by decide) name rest
    · rw [Token.changeAccess, if_pos rfl]
      rfl

/-! ### What a source template does not have -/

theorem changes_openBraces {token : Token} (hshape : token.shape ∈ sourceShapes) :
    Changes (ε := ε) (Pattern.fixed "\x7b\x7b") (fun _ => .ok "&#123;") id token := by
  exact changes_of_avoids (Pattern.after_beginsWith _ _ _) (by decide)
    (avoids_braces _ hshape).1 rfl

/-- The one brace that ends an access is not the first of two. -/
theorem misses_closeBraces_braced (name : Name) {rest : Text} (hrest : rest.head? ≠ some '\x7d') :
    Text.Misses ['\x7d', '\x7d'] (Token.value .braced name).text rest := by
  have hname : '\x7d' ∉ name.val := name.property.isClean '\x7d' (by decide)
  have hlast : Text.Misses ['\x7d', '\x7d'] ['\x7d'] rest := by
    refine Text.misses_of_not_isInfix (by decide) fun c hc hmem => ?_
    obtain rfl : c = '\x7d' := by simpa using hmem
    exact hrest hc
  have hopen : Text.Misses ['\x7d', '\x7d'] ("\x7b@" ++ name.val) (['\x7d'] ++ rest) :=
    (Text.misses_of_apart (by decide) _).append (Text.misses_of_not_mem hname)
  exact hopen.append hlast

theorem changes_closeBraces {token : Token} (hshape : token.shape ∈ sourceShapes) :
    Changes (ε := ε) (Pattern.fixed "\x7d\x7d") (fun _ => .ok "&#125;") id token := by
  by_cases hbraced : token.shape = .value .braced
  · obtain ⟨name, rfl⟩ := Token.exists_value_of_shape hbraced
    exact fun rest hfollows => .inl
      ⟨(Pattern.after_beginsWith _ _ _).passes (misses_closeBraces_braced name hfollows.1), rfl⟩
  · exact changes_of_avoids (Pattern.after_beginsWith _ _ _) (by decide)
      ((avoids_braces _ hshape).2 hbraced) rfl

theorem changes_emptyFrame {write : Text → Except ε Text} {token : Token}
    (hshape : token.shape ∈ openShapes) : Changes Markup.emptyFrame write id token := by
  exact changes_of_avoids (Pattern.after_beginsWith _ _ _) (by decide)
    (avoids_frame_hint _ hshape).1 rfl

theorem misses_hint_content {token : Token} (hshape : token.shape ∈ openShapes) {rest : Text}
    (hfollows : token.Follows rest) :
    Text.Misses hintStart token.content (token.shape.after ++ rest) := by
  have hspelling : ∀ (spelling : Spelling) (behind : Text),
      Text.Misses hintStart spelling.text ('"' :: behind) := by
    intro spelling behind
    refine Text.misses_of_not_isInfix spelling.no_hint_text fun c hc => ?_
    obtain rfl : '"' = c := by simpa using hc
    decide
  cases token with
  | chunk literal => exact literal.misses ⟨hintStart, by decide, List.prefix_rfl⟩ (hfollows.2 rfl)
  | value access name =>
    refine misses_hint_of_not_mem (fun hmem => ?_) _
    exact absurd (name.property.2 ' ' hmem) (by decide)
  | selection computed => exact hspelling computed.toSpelling _
  | opening tag test => exact hspelling test _
  | mark tag => exact Text.misses_nil _ _
  | expression computed =>
    have hnot : Shape.expression ∉ openShapes := by decide
    exact absurd hshape hnot
  | resolved tag test =>
    have hnot : Shape.resolved tag ∉ openShapes := by cases tag <;> decide
    exact absurd hshape hnot

theorem changes_livePreview {write : Unit → Except ε Text} {token : Token}
    (hshape : token.shape ∈ openShapes) : Changes Markup.livePreview write id token := by
  have hbegins : Markup.livePreview.BeginsWith hintStart := Pattern.after_beginsWith _ _ _
  exact fun rest hfollows => .inl ⟨hbegins.passes (Token.misses_of_content
    (avoids_frame_hint _ hshape).2 (misses_hint_content hshape hfollows)), rfl⟩

/-! ### Expressions -/

namespace Token

def resolve : Token → Token
  | opening tag test => resolved tag test
  | token => token

def compute : Token → Token
  | selection computed => expression computed
  | token => token

end Token

theorem run_testText (test : Spelling) (rest : Text) :
    (Reader.many1 (· ≠ '"')).run (test.text ++ ("\">" ++ rest)) =
      some (test.text, "\">" ++ rest) := by
  refine Reader.run_many1_of_all test.text_ne_nil (fun c hc => ?_) (d := '"') rfl ('>' :: rest)
  simpa using ne_of_mem_of_not_mem hc test.no_quote

theorem run_condition_if (test : Spelling) (rest : Text) :
    Dialect.condition.reader.run ((Token.opening .forumIf test).text ++ rest) =
      some (([], test.text), "\">" ++ rest) := by
  have hsplit : ("<xf:if is=\"" : Text) = "<xf:" ++ "if is=\"" := by decide
  have helse : ∀ behind : Text, (Reader.optional (.literal "else")).run ("if is=\"" ++ behind) =
      some (none, "if is=\"" ++ behind) := fun behind => Reader.run_optional_of_run_eq_none rfl
  rw [Token.text_append]
  change Dialect.condition.reader.run ("<xf:if is=\"" ++ (test.text ++ ("\">" ++ rest))) = _
  rw [hsplit, List.append_assoc, Dialect.condition, Pattern.run_after_append]
  simp only [Reader.run_bind, helse, Option.bind_some, Reader.run_literal_append, run_testText,
    Reader.run_pure]
  rfl

theorem run_else (behind : Text) :
    (Reader.optional (.literal "else")).run ("else" ++ behind) = some (some (), behind) :=
  Reader.run_optional_of_run_eq_some (Reader.run_literal_append _ _)

theorem run_condition_elseif (test : Spelling) (rest : Text) :
    Dialect.condition.reader.run ((Token.opening .forumElseif test).text ++ rest) =
      some (("else".toList, test.text), "\">" ++ rest) := by
  have hsplit : ("<xf:elseif is=\"" : Text) = "<xf:" ++ ("else" ++ "if is=\"") := by
    decide
  rw [Token.text_append]
  change Dialect.condition.reader.run ("<xf:elseif is=\"" ++ (test.text ++ ("\">" ++ rest))) = _
  rw [hsplit, List.append_assoc, Dialect.condition, Pattern.run_after_append, List.append_assoc]
  simp only [Reader.run_bind, run_else, Option.bind_some, Reader.run_literal_append, run_testText,
    Reader.run_pure]
  rfl

/-- The tag between two branches has no test, though it begins as if it had. -/
theorem passes_condition_else (rest : Text) :
    Dialect.condition.Passes (Token.mark .forumElse).text rest := by
  have hbegins : Dialect.condition.BeginsWith ('<' :: "xf:") := Pattern.after_beginsWith _ _ _
  have htext : (Token.mark .forumElse).text = '<' :: "xf:else/>" := by decide
  have hrun : Dialect.condition.reader.run ('<' :: ("xf:else/>" ++ rest)) = none := by
    have hsplit : '<' :: ("xf:else/>" : Text) = "<xf:" ++ ("else" ++ "/>") := by decide
    have hif : (Reader.literal "if is=\"").run ("/>" ++ rest) = none := rfl
    rw [← List.cons_append, hsplit, List.append_assoc, Dialect.condition, Pattern.run_after_append,
      List.append_assoc]
    simp only [Reader.run_bind, run_else, Option.bind_some, hif, Option.bind_none]
  rw [htext]
  exact Pattern.passes_cons hrun (hbegins.passes (Text.misses_of_not_mem (by decide)))

def writeCondition : Text × Text → Except Fault Text := fun (further, test) => do
  let converted ← convertExpression test
  pure ("<xf:" ++ further ++ "if is=\"" ++ converted)

theorem Token.resolve_of_ne {token : Token} (h : ∀ tag, token.shape ≠ .opening tag) :
    token.resolve = token := by
  cases token with
  | opening tag test => exact absurd rfl (h tag)
  | _ => rfl

theorem writeCondition_text (further : Text) (test : Spelling) :
    writeCondition (further, test.text) =
      .ok ("<xf:" ++ further ++ "if is=\"" ++ test.expression.render) := by
  simp only [writeCondition, test.convertExpression_text]
  rfl

theorem changes_condition {token : Token} (hshape : token.shape ∈ forumShapes) :
    Changes Dialect.condition writeCondition Token.resolve token := by
  have hbegins : Dialect.condition.BeginsWith "<xf:" := Pattern.after_beginsWith _ _ _
  have hquote : ∀ rest, Dialect.condition.Passes "\">" rest := fun rest =>
    hbegins.passes (Text.misses_of_apart (by decide) rest)
  have havoids : ∀ shape ∈ [Shape.chunk, .value .forum, .selection, .mark .forumEnd],
      shape.avoids "<xf:" = true := by decide +kernel
  have hother : token.shape ∈ [Shape.chunk, .value .forum, .selection, .mark .forumEnd] →
      (∀ tag, token.shape ≠ .opening tag) →
        Changes Dialect.condition writeCondition Token.resolve token := fun hmem hne =>
    changes_of_avoids hbegins (by decide) (havoids _ hmem) (Token.resolve_of_ne hne)
  simp only [forumShapes, List.mem_cons, List.not_mem_nil, or_false] at hshape
  rcases hshape with heq | heq | heq | heq | heq | heq | heq
  · exact hother (by simp [heq]) (by simp [heq])
  · exact hother (by simp [heq]) (by simp [heq])
  · exact hother (by simp [heq]) (by simp [heq])
  · obtain ⟨test, rfl⟩ := Token.exists_opening_of_shape heq
    intro rest _
    refine .inr ⟨_, _, _, run_condition_if test rest, writeCondition_text [] test, hquote rest, ?_⟩
    have hsplit : ("<xf:if is=\"" : Text) = ("<xf:" : Text) ++ [] ++ ("if is=\"" : Text) := by
      decide
    rw [← hsplit]
    rfl
  · obtain ⟨test, rfl⟩ := Token.exists_opening_of_shape heq
    intro rest _
    refine .inr ⟨_, _, _, run_condition_elseif test rest, writeCondition_text "else" test,
      hquote rest, ?_⟩
    have hsplit : ("<xf:elseif is=\"" : Text) = ("<xf:" : Text) ++ "else" ++ "if is=\"" := by
      decide
    rw [← hsplit]
    rfl
  · rw [Token.eq_mark_of_shape heq]
    exact fun rest _ => .inl ⟨passes_condition_else rest, rfl⟩
  · exact hother (by simp [heq]) (by simp [heq])

def writeSelection (selected : Text) : Except Fault Text := do
  let converted ← convertExpression selected
  pure ("\x7b\x7b " ++ converted ++ " \x7d\x7d")

theorem run_selection (computed : Computed) (rest : Text) :
    Dialect.selection.reader.run ((Token.selection computed).text ++ rest) =
      some (computed.text, rest) := by
  have hshortest : (Reader.shortest (· ≠ '\n') (.literal "\"/>")).run
      (computed.text ++ ("\"/>" ++ rest)) = some ((computed.text, ()), rest) := by
    have hline : '\n' ∉ computed.text := computed.not_mem_text (by decide) (by decide)
    refine Reader.run_shortest_append (Text.forall_ne_iff.2 hline) (fun first second heq hne => ?_)
      (Reader.run_literal_append _ _)
    obtain ⟨c, second, rfl⟩ := List.exists_cons_of_ne_nil hne
    have hc : c ≠ '"' :=
      ne_of_mem_of_not_mem (show c ∈ computed.text by simp [heq]) computed.no_quote
    simp [Reader.literal, Text.afterStart?, Ne.symm hc]
  rw [Token.text_append]
  change Dialect.selection.reader.run
    ("<xsl:value-of select=\"" ++ (computed.text ++ ("\"/>" ++ rest))) = _
  rw [Dialect.selection, Pattern.run_after_append, Reader.upTo]
  simp only [Reader.run_bind, hshortest, Option.bind_some, Reader.run_pure]

theorem Token.compute_of_ne {token : Token} (h : token.shape ≠ .selection) :
    token.compute = token := by
  cases token with
  | selection computed => exact absurd rfl h
  | _ => rfl

theorem changes_selection {token : Token} (hshape : token.shape ∈ resolvedShapes) :
    Changes Dialect.selection writeSelection Token.compute token := by
  refine changes_of_hit .selection (Pattern.after_beginsWith _ _ _) (by decide)
    (by decide +kernel) Token.compute_of_ne (fun heq rest => ?_) hshape
  cases token with
  | selection computed =>
    refine ⟨computed.text, run_selection computed rest, ?_⟩
    simp only [writeSelection, computed.convertExpression_text]
    rfl
  | _ => exact Shape.noConfusion heq

end LazyEmbed.Template
