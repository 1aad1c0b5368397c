import LazyEmbed.Proofs.Template.Pass

/-!
# What a conversion makes of the tokens

The passes one after the other, each on the tokens that the one before it leaves. At the end nothing
is left that the source dialect knows, and no brace that is not part of a variable or of an
expression; so the template is not refused.
-/

namespace LazyEmbed.Template

/-- No two chunks touch, and every token has one of the shapes. -/
structure Stage (shapes : List Shape) (tokens : List Token) : Prop where
  spaced : Spaced tokens
  shape_mem : ∀ token ∈ tokens, token.shape ∈ shapes

namespace Stage

variable {shapes others : List Shape} {tokens : List Token}

theorem spaced_map {change : Token → Token}
    (hchunk : ∀ token, (change token).isChunk = token.isChunk) (h : Spaced tokens) :
    Spaced (tokens.map change) := by
  induction tokens with
  | nil => exact h
  | cons token tokens ih =>
    refine ⟨fun htoken => ?_, ih h.2⟩
    rw [hchunk] at htoken
    have hnext := h.1 htoken
    intro next hnext'
    rw [List.head?_map] at hnext'
    obtain ⟨next, hhead, rfl⟩ := Option.map_eq_some_iff.1 hnext'
    rw [hchunk]
    exact hnext next hhead

theorem map {change : Token → Token} (h : Stage shapes tokens)
    (hchunk : ∀ token, (change token).isChunk = token.isChunk)
    (hshape : ∀ token, token.shape ∈ shapes → (change token).shape ∈ others) :
    Stage others (tokens.map change) := by
  refine ⟨spaced_map hchunk h.spaced, fun token htoken => ?_⟩
  obtain ⟨token, hmem, rfl⟩ := List.mem_map.1 htoken
  exact hshape token (h.shape_mem token hmem)

theorem mono (h : Stage shapes tokens) (hsubset : shapes ⊆ others) : Stage others tokens :=
  ⟨h.spaced, fun token htoken => hsubset (h.shape_mem token htoken)⟩

theorem changeMark (h : Stage openShapes tokens) (old new : Mark)
    (hnew : .mark new ∈ openShapes) : Stage openShapes (tokens.map (Token.changeMark old new)) := by
  refine h.map (fun token => by cases token <;> rfl) fun token hshape => ?_
  by_cases heq : token.shape = .mark old
  · rw [Token.eq_mark_of_shape heq, Token.changeMark, if_pos rfl]
    exact hnew
  · rw [Token.changeMark_of_ne heq]
    exact hshape

theorem changeOpening (h : Stage openShapes tokens) (old new : Opening)
    (hnew : .opening new ∈ openShapes) :
    Stage openShapes (tokens.map (Token.changeOpening old new)) := by
  refine h.map (fun token => by cases token <;> rfl) fun token hshape => ?_
  by_cases heq : token.shape = .opening old
  · obtain ⟨test, rfl⟩ := Token.exists_opening_of_shape heq
    rw [Token.changeOpening, if_pos rfl]
    exact hnew
  · rw [Token.changeOpening_of_ne heq]
    exact hshape

theorem changeAccess (h : Stage openShapes tokens) (old new : Access)
    (hnew : .value new ∈ openShapes) :
    Stage openShapes (tokens.map (Token.changeAccess old new)) := by
  refine h.map (fun token => by cases token <;> rfl) fun token hshape => ?_
  by_cases heq : token.shape = .value old
  · obtain ⟨name, rfl⟩ := Token.exists_value_of_shape heq
    rw [Token.changeAccess, if_pos rfl]
    exact hnew
  · rw [Token.changeAccess_of_ne heq]
    exact hshape

end Stage

/-! ### Tokens between fixed texts -/

/-- What the passes look for, empty frames apart. -/
def starts : List Text :=
  ["\x7b\x7b", "\x7d\x7d", "\x7b@", "<xsl:value-of select=\"@", "<xsl:value-of select=\"",
    hintStart, "<xf:", Opening.before .sourceIf, Opening.before .firstWhen,
    Opening.before .nextWhen, Mark.text .sourceEnd, Mark.text .otherwise, Mark.text .otherwiseEnd,
    Mark.text .whenEnd]

/-- A tag, or several, in which no pass finds anything. -/
structure IsFixed (text : Text) : Prop where
  head : text.head? = some '<'
  misses : ∀ start ∈ starts, ∀ rest, Text.Misses start text rest
  passes_frame : ∀ rest, Markup.emptyFrame.Passes text rest

structure Segment where
  text : Text
  tokens : List Token
  isFixed : IsFixed text

/-- A template that is tokens, with fixed texts between some of them. -/
structure Layout where
  tokens : List Token
  segments : List Segment

theorem IsFixed.passes {α : Type} {pattern : Pattern α} {start text : Text} (h : IsFixed text)
    (hbegins : pattern.BeginsWith start) (hstart : start ∈ starts) (rest : Text) :
    pattern.Passes text rest :=
  hbegins.passes (h.misses start hstart rest)

namespace Layout

def text (layout : Layout) : Text :=
  texts layout.tokens ++ layout.segments.flatMap fun segment => segment.text ++ texts segment.tokens

def map (change : Token → Token) (layout : Layout) : Layout where
  tokens := layout.tokens.map change
  segments := layout.segments.map fun segment =>
    { segment with tokens := segment.tokens.map change }

def InStage (shapes : List Shape) (layout : Layout) : Prop :=
  Stage shapes layout.tokens ∧ ∀ segment ∈ layout.segments, Stage shapes segment.tokens

variable {α ε : Type} {layout : Layout} {shapes others : List Shape}

theorem map_id (layout : Layout) : layout.map id = layout := by
  simp [map]

theorem map_map (first second : Token → Token) (layout : Layout) :
    (layout.map first).map second = layout.map (second ∘ first) := by
  simp [map, Function.comp_def]

theorem InStage.map {change : Token → Token} (h : layout.InStage shapes)
    (hmap : ∀ tokens, Stage shapes tokens → Stage others (tokens.map change)) :
    (layout.map change).InStage others := by
  refine ⟨hmap _ h.1, fun segment hsegment => ?_⟩
  obtain ⟨segment, hmem, rfl⟩ := List.mem_map.1 hsegment
  exact hmap _ (h.2 segment hmem)

theorem head?_segments (segments : List Segment) :
    ∀ c ∈ (segments.flatMap fun segment => segment.text ++ texts segment.tokens).head?,
      c = '<' := by
  cases segments with
  | nil => simp
  | cons segment segments =>
    intro c hc
    simp only [List.flatMap_cons, List.head?_append, segment.isFixed.head, Option.some_or] at hc
    exact (Option.some.inj hc).symm

section

variable {pattern : Pattern α} {change : Token → Token}

/-- A pass that finds nothing in fixed texts changes the tokens, wherever they stand. -/
theorem InStage.replaceM_text {write : α → Except ε Text} (h : layout.InStage shapes)
    (hpasses : ∀ text, IsFixed text → ∀ rest, pattern.Passes text rest)
    (hchanges : ∀ token : Token, token.shape ∈ shapes → Changes pattern write change token) :
    pattern.replaceM write layout.text = .ok (layout.map change).text := by
  have hsegments : ∀ segments : List Segment, (∀ segment ∈ segments, Stage shapes segment.tokens) →
      pattern.replaceM write (segments.flatMap
        fun segment => segment.text ++ texts segment.tokens) =
        .ok (segments.flatMap fun segment => segment.text ++
        texts (segment.tokens.map change)) := by
    intro segments hstage
    induction segments with
    | nil => exact Pattern.replaceM_nil write
    | cons segment segments ih =>
      obtain ⟨hsegment, hsegments⟩ := List.forall_mem_cons.1 hstage
      rw [List.flatMap_cons, List.append_assoc,
        Pattern.replaceM_append write (hpasses segment.text segment.isFixed _),
        replaceM_texts_append hsegment.spaced
        (fun token htoken => hchanges token (hsegment.shape_mem token htoken))
          (head?_segments segments), ih hsegments, List.flatMap_cons, List.append_assoc]
      rfl
  rw [text,
    replaceM_texts_append h.1.spaced
    (fun token htoken => hchanges token (h.1.shape_mem token htoken))
    (head?_segments layout.segments), hsegments layout.segments h.2, text, Layout.map,
    List.flatMap_map]
  rfl

theorem InStage.replace_text {write : α → Text} (h : layout.InStage shapes)
    (hpasses : ∀ text, IsFixed text → ∀ rest, pattern.Passes text rest)
    (hchanges : ∀ token : Token, token.shape ∈ shapes →
      Changes (ε := Empty) pattern (fun value => .ok (write value)) change token) :
    pattern.replace write layout.text = (layout.map change).text := by
  have hreplaceM := h.replaceM_text hpasses hchanges
  rw [Pattern.replaceM_ok] at hreplaceM
  exact Except.ok.inj hreplaceM

end

/-! ### The fixed changes -/

theorem InStage.swap_openBraces (h : layout.InStage sourceShapes) :
    Markup.swap "\x7b\x7b" "&#123;" (by decide) layout.text = layout.text := by
  have hsame :=
    replace_text h (fun _ hfixed => hfixed.passes (Pattern.after_beginsWith _ _ _) (by decide))
    fun _ => changes_openBraces
  rwa [map_id] at hsame

theorem InStage.swap_closeBraces (h : layout.InStage sourceShapes) :
    Markup.swap "\x7d\x7d" "&#125;" (by decide) layout.text = layout.text := by
  have hsame :=
    replace_text h (fun _ hfixed => hfixed.passes (Pattern.after_beginsWith _ _ _) (by decide))
    fun _ => changes_closeBraces
  rwa [map_id] at hsame

theorem InStage.replace_braced (h : layout.InStage openShapes) :
    Markup.bracedAttribute.replace Markup.variableText layout.text =
      (layout.map (Token.changeAccess .braced .forum)).text :=
  replace_text h (fun _ hfixed => hfixed.passes (Pattern.after_beginsWith _ _ _) (by decide))
    fun _ => changes_braced

theorem InStage.replace_selected (h : layout.InStage openShapes) :
    Markup.selectedAttribute.replace Markup.variableText layout.text =
      (layout.map (Token.changeAccess .selected .forum)).text :=
  replace_text h (fun _ hfixed => hfixed.passes (Pattern.after_beginsWith _ _ _) (by decide))
    fun _ => changes_selected

theorem InStage.replace_emptyFrame (h : layout.InStage openShapes) (write : Text → Text) :
    Markup.emptyFrame.replace write layout.text = layout.text := by
  have hsame : Markup.emptyFrame.replace write layout.text = (layout.map id).text :=
    replace_text h (fun _ hfixed => hfixed.passes_frame) fun _ => changes_emptyFrame
  rwa [map_id] at hsame

theorem InStage.remove_livePreview (h : layout.InStage openShapes) :
    Markup.livePreview.remove layout.text = layout.text := by
  have hsame : Markup.livePreview.remove layout.text = (layout.map id).text :=
    replace_text h (fun _ hfixed => hfixed.passes (Pattern.after_beginsWith _ _ _) (by decide))
      fun _ => changes_livePreview
  rwa [map_id] at hsame

theorem before_mem_starts : ∀ hit ∈ tagShapes, hit.before ∈ starts := by
  simp only [tagShapes, List.forall_mem_cons]
  dsimp only [starts, Shape.before, Access.before, Opening.before, Mark.text, hintStart]
  repeat rw [String.toList_ofList]
  decide +kernel

theorem InStage.swap_mark (h : layout.InStage openShapes) (old new : Mark) (hne : old.text ≠ [])
    (hold : .mark old ∈ tagShapes) :
    Markup.swap old.text new.text hne layout.text = (layout.map (Token.changeMark old new)).text :=
  replace_text h
    (fun _ hfixed => hfixed.passes (Pattern.after_beginsWith _ _ _) (before_mem_starts _ hold))
    fun _ => changes_mark hne hold

theorem InStage.replace_opening (h : layout.InStage openShapes) (old new : Opening)
    (hne : old.before ≠ []) (hold : .opening old ∈ tagShapes) :
    (Markup.opening old.before hne).replace (fun test => new.before ++ test ++ "\">") layout.text =
      (layout.map (Token.changeOpening old new)).text :=
  replace_text h
    (fun _ hfixed => hfixed.passes (Pattern.after_beginsWith _ _ _) (before_mem_starts _ hold))
    fun _ => changes_opening hne hold

end Layout

namespace Token

def toForum (token : Token) : Token :=
  token |>.changeAccess .braced .forum |>.changeAccess .selected .forum
    |>.changeOpening .sourceIf .forumIf |>.changeMark .sourceEnd .forumEnd
    |>.changeOpening .firstWhen .forumIf |>.changeOpening .nextWhen .forumElseif
    |>.changeMark .otherwise .forumElse |>.changeMark .otherwiseEnd .forumEnd
    |>.changeMark .whenEnd .forumEnd

def toFinal (token : Token) : Token := token.toForum.resolve.compute

end Token

theorem foldl_changes_cons {change : Change} {others : List Change} {text changed result : Text}
    (hchange : change text = changed)
    (hothers : others.foldl (fun text change => change text) changed = result) :
    (change :: others).foldl (fun text change => change text) text = result := by
  rw [List.foldl_cons, hchange, hothers]

/-- On a row of tokens the passes over the markup rewrite each token by itself. -/
theorem changeMarkup_text {layout : Layout} (h : layout.InStage sourceShapes) :
    changeMarkup layout.text = (layout.map Token.toForum).text := by
  have hopen : layout.InStage openShapes :=
    ⟨h.1.mono (List.subset_append_left _ _),
      fun segment hmem => (h.2 segment hmem).mono (List.subset_append_left _ _)⟩
  have hbraced := hopen.map fun _ stage => stage.changeAccess .braced .forum (by decide)
  have hselected := hbraced.map fun _ stage => stage.changeAccess .selected .forum (by decide)
  have hif := hselected.map fun _ stage => stage.changeOpening .sourceIf .forumIf (by decide)
  have hend := hif.map fun _ stage => stage.changeMark .sourceEnd .forumEnd (by decide)
  have hwhen := hend.map fun _ stage => stage.changeOpening .firstWhen .forumIf (by decide)
  have hnext := hwhen.map fun _ stage => stage.changeOpening .nextWhen .forumElseif (by decide)
  have hotherwise := hnext.map fun _ stage => stage.changeMark .otherwise .forumElse (by decide)
  have hlast := hotherwise.map fun _ stage => stage.changeMark .otherwiseEnd .forumEnd (by decide)
  refine foldl_changes_cons h.swap_openBraces ?_
  refine foldl_changes_cons h.swap_closeBraces ?_
  refine foldl_changes_cons hopen.replace_braced ?_
  refine foldl_changes_cons hbraced.replace_selected ?_
  refine foldl_changes_cons (hselected.replace_emptyFrame _) ?_
  refine foldl_changes_cons hselected.remove_livePreview ?_
  refine foldl_changes_cons (hselected.replace_opening .sourceIf .forumIf _ (by decide)) ?_
  refine foldl_changes_cons (hif.swap_mark .sourceEnd .forumEnd _ (by decide)) ?_
  refine foldl_changes_cons (hend.replace_opening .firstWhen .forumIf _ (by decide)) ?_
  refine foldl_changes_cons (hwhen.replace_opening .nextWhen .forumElseif _ (by decide)) ?_
  refine foldl_changes_cons (hnext.swap_mark .otherwise .forumElse _ (by decide)) ?_
  refine foldl_changes_cons (hotherwise.swap_mark .otherwiseEnd .forumEnd _ (by decide)) ?_
  refine foldl_changes_cons (hlast.swap_mark .whenEnd .forumEnd _ (by decide)) ?_
  rw [List.foldl_nil]
  simp only [Layout.map_map]
  rfl

/-! ### Stages to the end -/

namespace Token

theorem isChunk_toForum (token : Token) : token.toForum.isChunk = token.isChunk := by
  cases token <;> rfl

theorem isChunk_resolve (token : Token) : token.resolve.isChunk = token.isChunk := by
  cases token <;> rfl

theorem isChunk_compute (token : Token) : token.compute.isChunk = token.isChunk := by
  cases token <;> rfl

theorem shape_toForum_mem {token : Token} (h : token.shape ∈ sourceShapes) :
    token.toForum.shape ∈ forumShapes := by
  cases token with
  | chunk literal => exact List.mem_cons_self
  | value access name =>
    cases access <;> simp [toForum, changeAccess, changeOpening, changeMark, shape, forumShapes]
  | selection computed =>
    simp [toForum, changeAccess, changeOpening, changeMark, shape, forumShapes]
  | expression computed => exact absurd h (show Shape.expression ∉ sourceShapes by decide)
  | opening tag test =>
    cases tag <;> simp [toForum, changeAccess, changeOpening, changeMark, shape, forumShapes]
  | resolved tag test =>
    exact absurd h (show Shape.resolved tag ∉ sourceShapes by cases tag <;> decide)
  | mark tag =>
    cases tag <;> simp [toForum, changeAccess, changeOpening, changeMark, shape, forumShapes]

theorem shape_resolve_mem {token : Token} (h : token.shape ∈ forumShapes) :
    token.resolve.shape ∈ resolvedShapes := by
  cases token <;> simp_all [forumShapes, resolvedShapes, resolve, shape]

theorem shape_compute_mem {token : Token} (h : token.shape ∈ resolvedShapes) :
    token.compute.shape ∈ finalShapes := by
  cases token <;> simp_all [resolvedShapes, finalShapes, compute, shape]

end Token

theorem convertConditions_text {layout : Layout} (h : layout.InStage forumShapes) :
    Dialect.convertConditions layout.text = .ok (layout.map Token.resolve).text :=
  h.replaceM_text (fun _ hfixed => hfixed.passes (Pattern.after_beginsWith _ _ _) (by decide))
    fun _ => changes_condition

theorem convertSelections_text {layout : Layout} (h : layout.InStage resolvedShapes) :
    Dialect.convertSelections layout.text = .ok (layout.map Token.compute).text :=
  h.replaceM_text (fun _ hfixed => hfixed.passes (Pattern.after_beginsWith _ _ _) (by decide))
    fun _ => changes_selection

/-- The template before attribute elements are looked at. -/
theorem convert_text {layout : Layout} (h : layout.InStage sourceShapes) :
    convert layout.text = (do
      let template ← Dialect.foldAttributeBodies (layout.map Token.toFinal).text
      Leftover.check (inlineAttributes template)
      pure (restoreBraces (inlineAttributes template))) := by
  have hforum : (layout.map Token.toForum).InStage forumShapes :=
    h.map fun _ stage => stage.map Token.isChunk_toForum fun _ => Token.shape_toForum_mem
  have hresolved : ((layout.map Token.toForum).map Token.resolve).InStage resolvedShapes :=
    hforum.map fun _ stage => stage.map Token.isChunk_resolve fun _ => Token.shape_resolve_mem
  have hfinal : (layout.map Token.toForum |>.map Token.resolve |>.map Token.compute) =
      layout.map Token.toFinal := by
    simp only [Layout.map_map]
    rfl
  simp only [convert, changeMarkup_text h, convertConditions_text hforum,
    convertSelections_text hresolved, hfinal, bind, Except.bind]

theorem Stage.toFinal {tokens : List Token} (h : Stage sourceShapes tokens) :
    Stage finalShapes (tokens.map Token.toFinal) := by
  have hfinal := ((h.map Token.isChunk_toForum fun _ => Token.shape_toForum_mem).map
    Token.isChunk_resolve fun _ => Token.shape_resolve_mem).map
      Token.isChunk_compute fun _ => Token.shape_compute_mem
  rw [List.map_map, List.map_map] at hfinal
  exact hfinal

/-! ### Nothing is left over -/

section

variable {tokens : List Token}

theorem Stage.tail {shapes : List Shape} {token : Token} (h : Stage shapes (token :: tokens)) :
    Stage shapes tokens :=
  ⟨h.spaced.2, fun other hother => h.shape_mem other (List.mem_cons_of_mem token hother)⟩

theorem Stage.misses {shapes : List Shape} {start : Text} (h : Stage shapes tokens)
    (hstart : ∀ (token : Token) (rest : Text), token.shape ∈ shapes → token.Follows rest →
      Text.Misses start token.text rest) {behind : Text} (hbehind : ∀ c ∈ behind.head?, c = '<') :
    Text.Misses start (texts tokens) behind := by
  induction tokens with
  | nil => exact Text.misses_nil start behind
  | cons token tokens ih =>
    refine Text.Misses.append ?_ (ih h.tail)
    exact hstart token _ (h.shape_mem token List.mem_cons_self) (h.spaced.follows hbehind)

def elementStarts : List Text := ["<xsl:", "</xsl:"]

theorem avoids_element : ∀ start ∈ elementStarts,
    Token.IsStart start ∧ ∀ shape ∈ finalShapes, shape.avoids start = true := by
  simp only [elementStarts, finalShapes, List.forall_mem_cons]
  dsimp only [Token.IsStart, roots, hintStart, Shape.avoids, Shape.before, Shape.after,
    Access.before, Access.after, Opening.before, Mark.text]
  repeat rw [String.toList_ofList]
  decide +kernel

/-- No tag of the source dialect begins in a token. -/
theorem Token.misses_element {start : Text} (hstart : start ∈ elementStarts) {token : Token}
    {rest : Text} (hshape : token.shape ∈ finalShapes) (hfollows : token.Follows rest) :
    Text.Misses start token.text rest :=
  Token.misses_of_avoids (avoids_element start hstart).1
    ((avoids_element start hstart).2 _ hshape) hfollows

theorem misses_element (h : Stage finalShapes tokens) : Text.Misses "<xsl:" (texts tokens) [] :=
  h.misses (fun _ _ => Token.misses_element List.mem_cons_self) (by simp)

theorem misses_closing (h : Stage finalShapes tokens) : Text.Misses "</xsl:" (texts tokens) [] :=
  h.misses (fun _ _ => Token.misses_element (List.mem_cons_of_mem _ List.mem_cons_self)) (by simp)

theorem foldAttributeBodies_texts (h : Stage finalShapes tokens) :
    Dialect.foldAttributeBodies (texts tokens) = .ok (texts tokens) := by
  have hbegins : Dialect.attributeBody.BeginsWith "<xsl:attribute" := Pattern.after_beginsWith _ _ _
  have hlonger : ("<xsl:" : Text) <+: "<xsl:attribute" := by decide
  exact Pattern.replaceM_eq_self _ (hbegins.passes ((misses_element h).of_isPrefix hlonger))

/-- The tag of a hit stands in brackets, and an element of the stylesheet behind it. -/
theorem Inlinable.exists_of_run {text rest : Text} {found : Inlinable}
    (h : pattern.reader.run text = some (found, rest)) :
    ∃ behind, text = '<' :: (found.tag ++ '>' :: ("<xsl:" ++ behind)) := by
  have hopen : ("><xsl:attribute name=\"" : Text) = '>' :: ("<xsl:" ++ "attribute name=\"") := by
    decide
  have hbracket : ("<" : Text) = ['<'] := by decide
  have htext := eq_append_of_run h
  rw [hopen, hbracket] at htext
  simp only [List.append_assoc, List.cons_append, List.nil_append] at htext
  exact ⟨_, htext⟩

theorem infix_of_inlinable {text rest : Text} {found : Inlinable}
    (h : Inlinable.pattern.reader.run text = some (found, rest)) : ("<xsl:" : Text) <:+: text := by
  obtain ⟨behind, rfl⟩ := Inlinable.exists_of_run h
  exact ⟨'<' :: (found.tag ++ ['>']), behind, by simp⟩

/-- Without an element of the stylesheet there is no attribute to move. -/
theorem inlineAttributes_eq_self {text : Text} (h : ¬("<xsl:" : Text) <:+: text) :
    inlineAttributes text = text := by
  have hfirst : inlineFirst? text = none := by
    rw [inlineFirst?, Option.map_eq_none_iff, Option.eq_none_iff_forall_ne_some]
    rintro ⟨before, found, rest⟩ hsplit
    obtain ⟨tail, rfl, hrun⟩ := Pattern.splitFirst?_eq_some hsplit
    exact h ((infix_of_inlinable hrun).trans (List.suffix_append before tail).isInfix)
  rw [inlineAttributes]
  split
  · next shorter hshorter => exact absurd (hfirst.symm.trans hshorter) (by simp)
  · rfl

theorem element?_texts (h : Stage finalShapes tokens) :
    Leftover.element? (texts tokens) = none := by
  have hbegins : Leftover.element.BeginsWith "<xsl:" := Pattern.after_beginsWith _ _ _
  rw [Leftover.element?, Pattern.hits_eq_nil (hbegins.passes (misses_element h))]
  rfl

/-! ### Braces -/

theorem run_braces_variable (behind : Text) :
    Leftover.braces.reader.run ("\x7b$" ++ behind) = some (none, "$" ++ behind) := rfl

theorem run_braces_expression (behind : Text) :
    Leftover.braces.reader.run ("\x7b\x7b " ++ behind) = some (none, " " ++ behind) := rfl

theorem braces_beginsWith : Leftover.braces.BeginsWith ['\x7b'] := by
  intro text value rest hrun
  obtain ⟨run, left, hmany, -⟩ := Reader.run_bind_eq_some_iff.1 hrun
  obtain ⟨rfl, hne, hall⟩ := Reader.eq_append_of_run_many1 hmany
  obtain ⟨c, run, rfl⟩ := List.exists_cons_of_ne_nil hne
  obtain rfl : c = '\x7b' := by simpa using hall c List.mem_cons_self
  exact ⟨run ++ left, rfl⟩

theorem Token.no_openBrace_content (token : Token) : '\x7b' ∉ token.content := by
  cases hchunk : token.isChunk with
  | false => exact Token.not_mem_content hchunk '\x7b' (by decide)
  | true =>
    cases token with
    | chunk literal => exact literal.not_mem_of_mem_roots (by decide)
    | _ => exact Bool.noConfusion hchunk

theorem passes_braces {text : Text} (h : '\x7b' ∉ text) (rest : Text) :
    Leftover.braces.Passes text rest :=
  braces_beginsWith.passes (Text.misses_of_not_mem h)

theorem forall_hits_braces_of_run {text rest : Text} (left : Text)
    (hrun : Leftover.braces.reader.run (text ++ rest) = some (none, left ++ rest))
    (hleft : '\x7b' ∉ left) (h : ∀ value ∈ Leftover.braces.hits rest, value = none) :
    ∀ value ∈ Leftover.braces.hits (text ++ rest), value = none := by
  rw [Pattern.hits_of_run_eq_some hrun, Pattern.hits_append (passes_braces hleft rest)]
  exact List.forall_mem_cons.2 ⟨rfl, h⟩

/-- A brace of a token is one that the forum dialect has. -/
theorem forall_hits_braces_text {token : Token} (hshape : token.shape ∈ finalShapes) {rest : Text}
    (h : ∀ value ∈ Leftover.braces.hits rest, value = none) :
    ∀ value ∈ Leftover.braces.hits (token.text ++ rest), value = none := by
  have hcontent := token.no_openBrace_content
  have havoids : ∀ shape ∈ finalShapes, shape ≠ .value .forum → shape ≠ .expression →
      shape.avoids "\x7b" = true := by decide
  by_cases hvalue : token.shape = .value .forum
  · obtain ⟨name, rfl⟩ := Token.exists_value_of_shape hvalue
    refine forall_hits_braces_of_run ("$" ++ (name.val ++ "\x7d")) ?_ ?_ h
    · rw [Token.text_append, List.append_assoc, List.append_assoc]
      exact run_braces_variable _
    · have hname : '\x7b' ∉ name.val := hcontent
      simp [hname]
  · by_cases hexpression : token.shape = .expression
    · refine forall_hits_braces_of_run (" " ++ (token.content ++ " \x7d\x7d")) ?_ ?_ h
      · rw [Token.text_append, hexpression, List.append_assoc, List.append_assoc]
        exact run_braces_expression _
      · simp [hcontent]
    · have hmisses : Text.Misses ['\x7b'] token.text rest :=
        Token.misses_of_content (havoids _ hshape hvalue hexpression)
          (Text.misses_of_not_mem hcontent)
      rw [Pattern.hits_append (braces_beginsWith.passes hmisses)]
      exact h

theorem forall_hits_braces_texts (h : Stage finalShapes tokens) {behind : Text}
    (hbehind : ∀ value ∈ Leftover.braces.hits behind, value = none) :
    ∀ value ∈ Leftover.braces.hits (texts tokens ++ behind), value = none := by
  induction tokens with
  | nil => exact hbehind
  | cons token tokens ih =>
    rw [texts_cons, List.append_assoc]
    exact forall_hits_braces_text (h.shape_mem token List.mem_cons_self) (ih h.tail)

theorem brace?_eq_none {text : Text} (h : ∀ value ∈ Leftover.braces.hits text, value = none) :
    Leftover.brace? text = none := by
  rw [Leftover.brace?, List.findSome?_eq_none_iff]
  exact h

theorem brace?_texts (h : Stage finalShapes tokens) : Leftover.brace? (texts tokens) = none := by
  have hnil : ∀ value ∈ Leftover.braces.hits [], value = none := by simp
  have hhits := forall_hits_braces_texts h hnil
  rw [List.append_nil] at hhits
  exact brace?_eq_none hhits

def braceReferences : List Text := ["#123;", "#125;"]

theorem avoids_reference : ∀ reference ∈ braceReferences, '&' :: reference ∈ roots ∧
    ∀ shape ∈ finalShapes, shape.avoids ('&' :: reference) = true := by
  simp only [braceReferences, finalShapes, List.forall_mem_cons]
  dsimp only [roots, hintStart, Shape.avoids, Shape.before, Shape.after, Access.before,
    Access.after, Opening.before, Mark.text]
  repeat rw [String.toList_ofList]
  decide +kernel

/-- No reference to a brace begins in a token. -/
theorem Token.misses_reference {reference : Text} (href : reference ∈ braceReferences)
    {token : Token} {rest : Text} (hshape : token.shape ∈ finalShapes)
    (hfollows : token.Follows rest) : Text.Misses ('&' :: reference) token.text rest := by
  obtain ⟨hmem, havoids⟩ := avoids_reference reference href
  refine Token.misses_of_content (havoids _ hshape) ?_
  cases token with
  | chunk literal => exact literal.misses ⟨_, hmem, List.prefix_rfl⟩ (hfollows.2 rfl)
  | value access name => exact Text.misses_of_not_mem (name.property.isClean '&' (by decide))
  | expression computed =>
    exact Text.misses_of_not_mem ((Expression.isClean computed.wellFormed).2 '&' (by decide))
  | resolved tag test =>
    exact Text.misses_of_not_mem ((Expression.isClean test.wellFormed).2 '&' (by decide))
  | mark tag => exact Text.misses_nil _ _
  | selection computed => exact absurd hshape (show Shape.selection ∉ finalShapes by decide)
  | opening tag test =>
    exact absurd hshape (show Shape.opening tag ∉ finalShapes by cases tag <;> decide)

/-- No brace is brought back that was never set aside. -/
theorem swap_reference (h : Stage finalShapes tokens) {reference : Text} (new : Text)
    (href : reference ∈ braceReferences) :
    Markup.swap ('&' :: reference) new (List.cons_ne_nil _ _) (texts tokens) = texts tokens := by
  have hbegins :
      (Pattern.fixed ('&' :: reference) (List.cons_ne_nil _ _)).BeginsWith ('&' :: reference) :=
    Pattern.after_beginsWith _ _ _
  exact Pattern.replace_eq_self _ (hbegins.passes
    (h.misses (fun _ _ => Token.misses_reference href) (by simp)))

theorem restoreBraces_texts (h : Stage finalShapes tokens) :
    restoreBraces (texts tokens) = texts tokens := by
  have hopen := swap_reference h "\x7b" (List.mem_cons_self : "#123;".toList ∈ braceReferences)
  have hclose := swap_reference h "\x7d" (List.mem_cons_of_mem _ List.mem_cons_self :
    "#125;".toList ∈ braceReferences)
  exact (congrArg _ hopen).trans hclose

theorem check_texts (h : Stage finalShapes tokens) : Leftover.check (texts tokens) = .ok () := by
  rw [Leftover.check, element?_texts h, brace?_texts h]

/-- A conversion changes the tokens, one by one. -/
theorem convert_texts (h : Stage sourceShapes tokens) :
    convert (texts tokens) = .ok (texts (tokens.map Token.toFinal)) := by
  let layout : Layout := ⟨tokens, []⟩
  have htext : layout.text = texts tokens := List.append_nil _
  have hfinal : (layout.map Token.toFinal).text = texts (tokens.map Token.toFinal) :=
    List.append_nil _
  have hinline := inlineAttributes_eq_self ((misses_element h.toFinal).not_isInfix (by decide))
  rw [← htext, convert_text ⟨h, by simp [layout]⟩, hfinal, foldAttributeBodies_texts h.toFinal]
  simp only [bind, Except.bind, hinline, check_texts h.toFinal, restoreBraces_texts h.toFinal]
  rfl

end

end LazyEmbed.Template
