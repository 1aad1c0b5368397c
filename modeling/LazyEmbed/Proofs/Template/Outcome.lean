import LazyEmbed.Proofs.Html.NullCharacter
import LazyEmbed.Proofs.Template.ClosingTag
import LazyEmbed.Proofs.Template.Hiding

/-!
# How a conversion ends

A template without NUL stays without it through all passes, and so the marks around hidden
expressions are the only ones. As long as no expression is empty, every pass then comes to an end of
its own or finds fault with the template: with an expression it does not know, an element or a brace
that is left. The one other fault is a number that is too long to be read.
-/

namespace LazyEmbed.Template

open MixedContent

def IsExpected (fault : Fault) : Prop :=
  fault.isAboutTemplate = true ∨ ∃ oversized, fault = .oversizedReference oversized

/-- A text without a mark, or a fault that is to be expected. -/
def EndsWell : Except Fault Text → Prop := Lands (mark ∉ ·) IsExpected

variable {text : Text}

/-! ### The fixed changes -/

theorem mark_not_mem_variableText {name : Text} (h : mark ∉ name) :
    mark ∉ Markup.variableText name := by
  have hfixed : mark ∉ ("\x7b$" : Text) ∧ mark ∉ ("\x7d" : Text) := by decide
  unfold Markup.variableText
  simp only [List.mem_append, not_or]
  exact ⟨⟨hfixed.1, h⟩, hfixed.2⟩

theorem mark_not_mem_around {before after inside : Text} (hbefore : mark ∉ before)
    (hafter : mark ∉ after) (h : mark ∉ inside) : mark ∉ before ++ inside ++ after := by
  simp only [List.mem_append, not_or]
  exact ⟨⟨hbefore, h⟩, hafter⟩

/-- What stands between a fixed beginning and a fixed end. -/
theorem yields_between (test : Char → Bool) (stop : Text) :
    (do
      let found ← Reader.many1 test
      Reader.literal stop
      pure found).Yields mark (mark ∉ ·) :=
  (Reader.yields_many1 test).bind fun _ hfound => Reader.Yields.after fun _ =>
    Reader.yields_pure hfound

theorem yields_emptyFrame : Markup.emptyFrame.reader.Yields mark (mark ∉ ·) :=
  Pattern.yields_after ((Reader.yields_many _).bind fun _ hinside => Reader.Yields.after fun _ =>
    Reader.Yields.after fun _ => Reader.yields_pure fun hmem =>
      hinside (List.dropLast_subset _ hmem))

theorem mark_not_mem_swap {old new : Text} {hne : old ≠ []} (hnew : mark ∉ new) (h : mark ∉ text) :
    mark ∉ Markup.swap old new hne text :=
  Pattern.not_mem_replace h fun _ _ => hnew

theorem mark_not_mem_opening {start before : Text} {hne : start ≠ []} (hbefore : mark ∉ before)
    (h : mark ∉ text) :
    mark ∉ (Markup.opening start hne).replace (fun test => before ++ test ++ "\">") text :=
  Pattern.not_mem_replace_of_yields (Pattern.yields_after (yields_between _ _))
    (fun _ htest => mark_not_mem_around hbefore (by decide) htest) h

theorem mark_not_mem_change {change : Change} (hchange : change ∈ changes) (h : mark ∉ text) :
    mark ∉ change text := by
  simp only [changes, List.mem_cons, List.not_mem_nil, or_false] at hchange
  obtain rfl | rfl | rfl | rfl | rfl | rfl | rfl | rfl | rfl | rfl | rfl | rfl | rfl := hchange
  · exact mark_not_mem_swap (by decide) h
  · exact mark_not_mem_swap (by decide) h
  · exact Pattern.not_mem_replace_of_yields (Pattern.yields_after (yields_between _ _))
      (fun _ => mark_not_mem_variableText) h
  · exact Pattern.not_mem_replace_of_yields (Pattern.yields_after (yields_between _ _))
      (fun _ => mark_not_mem_variableText) h
  · exact Pattern.not_mem_replace_of_yields yields_emptyFrame
      (fun _ hinside => mark_not_mem_around (by decide) (by decide) hinside) h
  · exact Pattern.not_mem_remove h
  · exact mark_not_mem_opening (by decide) h
  · exact mark_not_mem_swap (by decide) h
  · exact mark_not_mem_opening (by decide) h
  · exact mark_not_mem_opening (by decide) h
  · exact mark_not_mem_swap (by decide) h
  · exact mark_not_mem_swap (by decide) h
  · exact mark_not_mem_swap (by decide) h

theorem mark_not_mem_changeMarkup (h : mark ∉ text) : mark ∉ changeMarkup text := by
  have hall : ∀ others : List Change, others ⊆ changes → ∀ text : Text, mark ∉ text →
      mark ∉ others.foldl (fun text change => change text) text := by
    intro others hothers
    induction others with
    | nil => exact fun text htext => htext
    | cons change others ih =>
      obtain ⟨hchange, hrest⟩ := List.cons_subset.1 hothers
      exact fun text htext => ih hrest _ (mark_not_mem_change hchange htext)
  exact hall changes (List.Subset.refl _) text h

/-! ### Expressions -/

theorem mark_not_mem_render {found : Expression} (hsource : mark ∉ found.source) :
    mark ∉ found.render := by
  have hfixed : ∀ fixed ∈ (["$", "=='", "'", ">", "100*($height+", ")/$width"] : List Text),
      mark ∉ fixed := by
    decide
  have hnames : ∀ {before after name : Text}, mark ∉ before ++ name ++ after → mark ∉ name :=
    fun h hmem => h (List.mem_append_left _ (List.mem_append_right _ hmem))
  cases found with
  | value name =>
    have hname : mark ∉ name := fun hmem => hsource (List.mem_append_right _ hmem)
    simp only [Expression.render_value, List.mem_append, not_or]
    exact ⟨hfixed _ (by simp), hname⟩
  | equals name literal =>
    simp only [Expression.source_equals, List.mem_append, not_or] at hsource
    simp only [Expression.render_equals, List.mem_append, not_or]
    exact ⟨⟨⟨⟨hfixed "$" (by simp), hsource.1.1.1.2⟩, hfixed "=='" (by simp)⟩, hsource.1.2⟩,
      hfixed "'" (by simp)⟩
  | exceeds name number =>
    simp only [Expression.source_exceeds, List.mem_append, not_or] at hsource
    simp only [Expression.render_exceeds, List.mem_append, not_or]
    exact ⟨⟨⟨hfixed "$" (by simp), hsource.1.1.2⟩, hfixed ">" (by simp)⟩, hsource.2⟩
  | ratio => decide
  | paddedRatio extra =>
    rw [Expression.source_paddedRatio] at hsource
    rw [Expression.render_paddedRatio]
    exact mark_not_mem_around (hfixed _ (by simp)) (hfixed _ (by simp)) (hnames hsource)

theorem endsWell_convertExpression (h : mark ∉ text) : EndsWell (convertExpression text) := by
  refine Lands.bind (Lands.mapError (Html.lands_decodeReferences h) fun oversized _ =>
    .inr ⟨oversized, rfl⟩) fun decoded hdecoded => ?_
  cases hread : Expression.read? decoded with
  | none => exact .inl rfl
  | some found =>
    obtain ⟨-, rfl⟩ := Expression.read?_eq_some_iff.1 hread
    exact mark_not_mem_render hdecoded

theorem yields_condition :
    Dialect.condition.reader.Yields mark fun found => mark ∉ found.1 ∧ mark ∉ found.2 := by
  refine Pattern.yields_after (Reader.Yields.after fun further => Reader.Yields.after fun _ =>
    (Reader.yields_many1 _).bind fun test htest => Reader.yields_pure ⟨?_, htest⟩)
  have helse : mark ∉ "else".toList := by decide
  cases further with
  | none => exact List.not_mem_nil
  | some _ => exact helse

theorem endsWell_convertConditions (h : mark ∉ text) :
    EndsWell (Dialect.convertConditions text) := by
  refine Pattern.lands_replaceM_of_yields yields_condition (fun found hfound => ?_) h
  refine (endsWell_convertExpression hfound.2).bind fun converted hconverted => ?_
  have hfixed : mark ∉ ("<xf:" : Text) ∧ mark ∉ ("if is=\"" : Text) := by decide
  change mark ∉ "<xf:" ++ found.1 ++ "if is=\"" ++ converted
  simp only [List.mem_append, not_or]
  exact ⟨⟨⟨hfixed.1, hfound.1⟩, hfixed.2⟩, hconverted⟩

theorem endsWell_convertSelections (h : mark ∉ text) :
    EndsWell (Dialect.convertSelections text) := by
  refine Pattern.lands_replaceM_of_yields (Pattern.yields_after (Reader.yields_upTo _ _))
    (fun found hfound => ?_) h
  exact (endsWell_convertExpression hfound).bind fun converted hconverted =>
    mark_not_mem_around (by decide) (by decide) hconverted

/-! ### Folding -/

namespace Conditional

/-- The mixed content that is converted when the conditionals of a text are folded. -/
def foldedTexts (text : Text) : List Text :=
  (pattern.hits text).flatMap fun found => found.holds :: found.otherwise?.toList

def NoneEmptyWithin : (rounds : Nat) → Text → Prop
  | 0, _ => True
  | rounds + 1, text =>
    (∀ branch ∈ foldedTexts text, ∀ found ∈ expression.hits branch, found ≠ []) ∧
      ∀ folded, foldOnce text = .ok folded → folded ≠ text → NoneEmptyWithin rounds folded

theorem yields_pattern : pattern.reader.Yields mark fun found =>
    mark ∉ found.condition ∧ mark ∉ found.holds ∧ ∀ otherwise, found.otherwise? = some otherwise →
      mark ∉ otherwise := by
  refine Pattern.yields_after ((Reader.yields_many1 _).bind fun condition hcondition =>
    Reader.Yields.after fun _ => (Reader.yields_many1 _).bind fun holds hholds => ?_)
  refine (Reader.Yields.optional (Reader.Yields.after fun _ => Reader.yields_many1 _)).bind
    fun otherwise hotherwise =>
    Reader.Yields.after fun _ => Reader.yields_pure ⟨hcondition, hholds, hotherwise⟩

/-- Without an empty expression in its branches a ternary cannot fail, and it is free of the mark.
-/
theorem lands_ternary {found : Conditional} (hcondition : mark ∉ found.condition)
    (hholds : mark ∉ found.holds)
    (hotherwise : ∀ otherwise, found.otherwise? = some otherwise → mark ∉ otherwise)
    (h : ∀ branch ∈ found.holds :: found.otherwise?.toList, ∀ hit ∈ expression.hits branch,
      hit ≠ []) : Lands (mark ∉ ·) (fun _ => False) found.ternary := by
  obtain ⟨hfirst, hsecond⟩ := List.forall_mem_cons.1 h
  refine (lands_stringOfMixed hholds hfirst).bind fun holds hholds => ?_
  have hfixed : ∀ fixed ∈ (["\x7b\x7b ", " ? ", " : ", " \x7d\x7d"] : List Text),
      mark ∉ fixed := by decide
  have hwhole : ∀ otherwise, mark ∉ otherwise →
      mark ∉ "\x7b\x7b " ++ found.condition ++ " ? " ++ holds ++ " : " ++ otherwise ++
        (" \x7d\x7d" : Text) := by
    intro otherwise hotherwise
    simp only [List.mem_append, not_or]
    exact ⟨⟨⟨⟨⟨⟨hfixed "\x7b\x7b " (by simp), hcondition⟩, hfixed " ? " (by simp)⟩, hholds⟩,
      hfixed " : " (by simp)⟩, hotherwise⟩, hfixed " \x7d\x7d" (by simp)⟩
  cases hcase : found.otherwise? with
  | none => exact hwhole "''" (by decide)
  | some otherwise =>
    exact (lands_stringOfMixed (hotherwise otherwise hcase)
      (hsecond otherwise (by simp [hcase]))).bind hwhole

theorem lands_foldOnce (htext : mark ∉ text)
    (h : ∀ branch ∈ foldedTexts text, ∀ found ∈ expression.hits branch, found ≠ []) :
    Lands (mark ∉ ·) (fun _ => False) (foldOnce text) := by
  refine Pattern.lands_replaceM htext fun found hfound => ?_
  obtain ⟨hcondition, hholds, hotherwise⟩ :=
    Pattern.forall_hits_of_yields yields_pattern htext found hfound
  exact lands_ternary hcondition hholds hotherwise fun branch hbranch =>
    h branch (List.mem_flatMap.2 ⟨found, hfound, hbranch⟩)

/-- Without empty expressions no round of folding fails, and the result is free of the mark. -/
theorem lands_foldWithin {rounds : Nat} (htext : mark ∉ text) (h : NoneEmptyWithin rounds text) :
    Lands (mark ∉ ·) (fun _ => False) (foldWithin rounds text) := by
  induction rounds generalizing text with
  | zero => exact htext
  | succ rounds ih =>
    have hfold := lands_foldOnce htext h.1
    rw [foldWithin]
    cases hfolded : foldOnce text with
    | error fault =>
      rw [hfolded] at hfold
      exact absurd hfold not_false
    | ok folded =>
      rw [hfolded] at hfold
      change Lands _ _ (if folded = text then pure folded else foldWithin rounds folded)
      split
      · exact hfold
      · next hne => exact ih hfold (h.2 folded hfolded hne)

end Conditional

/-- While the conditionals of a text are folded, no expression is empty. -/
def NoneEmpty (text : Text) : Prop := Conditional.NoneEmptyWithin (text.length + 1) text

theorem lands_foldConditionals (htext : mark ∉ text) (h : NoneEmpty text) :
    Lands (mark ∉ ·) (fun _ => False) (foldConditionals text) :=
  Conditional.lands_foldWithin htext h

theorem yields_attributeBody :
    Dialect.attributeBody.reader.Yields mark fun found => mark ∉ found.1 ∧ mark ∉ found.2 := by
  refine Pattern.yields_after ((Reader.yields_many1 _).bind fun inside hinside =>
    Reader.Yields.after fun _ =>
    (Reader.yields_shortest _ _).bind fun found hfound => Reader.yields_pure ⟨?_, hfound⟩)
  exact mark_not_mem_around (by decide) (by decide) hinside

theorem endsWell_foldAttributeBodies (htext : mark ∉ text)
    (h : ∀ found ∈ Dialect.attributeBody.hits text, NoneEmpty found.2) :
    EndsWell (Dialect.foldAttributeBodies text) := by
  refine Pattern.lands_replaceM htext fun found hfound => ?_
  obtain ⟨htag, hcontent⟩ := Pattern.forall_hits_of_yields yields_attributeBody htext found hfound
  refine Lands.bind (Lands.mapError (lands_foldConditionals hcontent (h found hfound)) fun _ =>
    False.elim) fun folded hfolded => ?_
  exact fun hmem => (List.mem_append.1 hmem).elim htag hfolded

/-! ### Attributes, and what is left over -/

theorem mark_not_mem_inlineAttributes (h : mark ∉ text) : mark ∉ inlineAttributes text := by
  fun_induction inlineAttributes text with
  | case1 text shorter hshorter ih =>
    refine ih ?_
    obtain ⟨⟨before, found, rest⟩, hsplit, rfl⟩ := Option.map_eq_some_iff.1 hshorter
    obtain ⟨tail, rfl, hrun⟩ := Pattern.splitFirst?_eq_some hsplit
    rw [Inlinable.eq_append_of_run hrun] at h
    have hfixed : ∀ fixed ∈ (["<", " ", "=\"", "\">"] : List Text), mark ∉ fixed := by decide
    simp only [List.mem_append, not_or] at h
    obtain ⟨hbefore, ⟨⟨⟨⟨⟨⟨-, htag⟩, -⟩, hname⟩, -⟩, hvalue⟩, -⟩, hrest⟩ := h
    unfold Inlinable.inlined
    simp only [List.mem_append, not_or]
    exact ⟨⟨hbefore, ⟨⟨⟨⟨⟨hfixed "<" (by simp), htag⟩, hfixed " " (by simp)⟩, hname⟩,
      hfixed "=\"" (by simp)⟩, hvalue⟩, hfixed "\">" (by simp)⟩, hrest⟩
  | case2 text hnone => exact h

theorem endsWell_check (h : mark ∉ text) :
    EndsWell ((Leftover.check text).map fun _ => restoreBraces text) := by
  unfold Leftover.check
  cases Leftover.element? text with
  | some fragment => exact .inl rfl
  | none =>
    cases Leftover.brace? text with
    | some fragment => exact .inl rfl
    | none => exact mark_not_mem_swap (by decide) (mark_not_mem_swap (by decide) h)

/-- In the bodies of the attribute elements of the template, once all expressions in it are
converted, no expression is empty, neither there nor in what becomes of them. -/
def HasNoneEmpty (template : Text) : Prop :=
  ∀ conditions selections, Dialect.convertConditions (changeMarkup template) = .ok conditions →
    Dialect.convertSelections conditions = .ok selections →
      ∀ found ∈ Dialect.attributeBody.hits selections, NoneEmpty found.2

/-- All passes before the check end well together. -/
theorem lands_beforeCheck {template : Text} (htemplate : mark ∉ template)
    (h : HasNoneEmpty template) : EndsWell (beforeCheck template) := by
  have hconditions := endsWell_convertConditions (mark_not_mem_changeMarkup htemplate)
  rw [beforeCheck]
  cases hfirst : Dialect.convertConditions (changeMarkup template) with
  | error fault =>
    rw [hfirst] at hconditions
    exact hconditions
  | ok conditions =>
    rw [hfirst] at hconditions
    have hselections := endsWell_convertSelections hconditions
    cases hsecond : Dialect.convertSelections conditions with
    | error fault =>
      rw [hsecond] at hselections
      simpa only [bind, Except.bind, hsecond] using hselections
    | ok selections =>
      rw [hsecond] at hselections
      simp only [bind, Except.bind, hsecond]
      exact (endsWell_foldAttributeBodies hselections (h conditions selections hfirst hsecond)).bind
        fun folded hfolded => mark_not_mem_inlineAttributes hfolded

theorem endsWell_convert {template : Text} (htemplate : mark ∉ template)
    (h : HasNoneEmpty template) : EndsWell (convert template) := by
  have hleft := lands_beforeCheck htemplate h
  cases hbefore : beforeCheck template with
  | error fault =>
    rw [hbefore] at hleft
    rw [convert_eq, hbefore]
    exact hleft
  | ok left =>
    rw [hbefore] at hleft
    rw [convert_of_beforeCheck hbefore]
    exact endsWell_check hleft

/-- Mixed content becomes a string expression without NUL exactly if no expression in it is empty;
and a template in which none is empty is converted to a text without NUL, or refused for what is in
it. -/
theorem convert_endsWell (template : Text) :
    (mark ∉ template → ((∃ out, stringOfMixed template = .ok out ∧ mark ∉ out) ↔
      ∀ found ∈ expression.hits template, found ≠ [])) ∧
    (mark ∉ template → HasNoneEmpty template →
      (∃ out, convert template = .ok out ∧ mark ∉ out) ∨
        ∃ fault, convert template = .error fault ∧
          (fault.isAboutTemplate = true ∨ ∃ oversized, fault = .oversizedReference oversized)) := by
  refine ⟨fun htext => exists_stringOfMixed_iff htext, fun htemplate hnone => ?_⟩
  have hends := endsWell_convert htemplate hnone
  cases hconvert : convert template with
  | ok out =>
    rw [hconvert] at hends
    exact .inl ⟨out, rfl, hends⟩
  | error fault =>
    rw [hconvert] at hends
    exact .inr ⟨fault, rfl, hends⟩

def hintsInBraces : Text :=
  "<xsl:attribute name=\"x\"><xsl:if test=\"@b\">\x7b data-s9e-livepreview=\"\"\x7b\x7d" ++
    " data-s9e-livepreview=\"\"\x7dx\x7b<xsl:value-of select=\"@a\"/>\x7d</xsl:if></xsl:attribute>"

theorem convert_eq_error {template : Text} {fault : Fault}
    (h : (match convert template with
      | .error found => some found
      | .ok _ => none) = some fault) : convert template = .error fault := by
  cases hconvert : convert template with
  | ok out => simp [hconvert] at h
  | error found =>
    rw [hconvert] at h
    rw [Option.some.inj h]

set_option maxRecDepth 4000 in
/-- Once the hints are removed the pair is empty, and the letter behind it is taken for a hidden
expression. -/
theorem convert_hintsInBraces :
    mark ∉ hintsInBraces ∧ convert hintsInBraces = .error (.token .notBase64) ∧
    ¬EndsWell (convert hintsInBraces) := by
  have htext : hintsInBraces = _ ++ _ :=
    congrArg₂ (fun front rest : Text => front ++ rest) String.toList_ofList String.toList_ofList
  have hconvert : convert hintsInBraces = .error (.token .notBase64) := by
    rw [htext]
    exact convert_eq_error (by decide +kernel)
  refine ⟨?_, hconvert, ?_⟩
  · rw [htext]
    decide +kernel
  · rw [hconvert]
    rintro (habout | ⟨oversized, htoken⟩)
    · cases habout
    · cases htoken

end LazyEmbed.Template
