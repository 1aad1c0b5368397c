import LazyEmbed.Proofs.Template.Expression

/-!
# Which expressions are converted

Five shapes are described, and everything else is to be refused. What is read is a little more. A
literal goes on to the last apostrophe of the text, whatever stands before it, so that a whole
condition can pass for one comparison; and a number may have digits of any script. On every other
text the conversion keeps to the description.
-/

namespace LazyEmbed.Template

def IsPlainNumber (number : Text) : Prop := number ≠ [] ∧ ∀ c ∈ number, c.isDigit = true

theorem IsPlainNumber.isNumber {number : Text} (h : IsPlainNumber number) : IsNumber number :=
  ⟨h.1, fun c hc => Text.isDecimal_of_isDigit (h.2 c hc)⟩

/-- The characters of a text in the target dialect that belong to no literal. An apostrophe begins a
literal, and the next one ends it. -/
def outsideLiterals (text : Text) (inside : Bool := false) : Text :=
  match text with
  | [] => []
  | c :: text =>
    if c = '\'' then outsideLiterals text !inside
    else if inside then outsideLiterals text inside
    else c :: outsideLiterals text inside

section

variable {text rest : Text}

theorem outsideLiterals_append (h : '\'' ∉ text) (rest : Text) :
    outsideLiterals (text ++ rest) = text ++ outsideLiterals rest := by
  induction text with
  | nil => rfl
  | cons c text ih =>
    obtain ⟨hc, htext⟩ := not_or.1 (mt List.mem_cons.2 h)
    simp [outsideLiterals, Ne.symm hc, ih htext]

theorem outsideLiterals_inside (h : '\'' ∉ text) (rest : Text) :
    outsideLiterals (text ++ '\'' :: rest) true = outsideLiterals rest := by
  induction text with
  | nil => simp [outsideLiterals]
  | cons c text ih =>
    obtain ⟨hc, htext⟩ := not_or.1 (mt List.mem_cons.2 h)
    simp [outsideLiterals, Ne.symm hc, ih htext]

theorem outsideLiterals_of_not_mem (h : '\'' ∉ text) : outsideLiterals text = text := by
  simpa [outsideLiterals] using outsideLiterals_append h []

end

namespace Expression

/-- The expression has one of the described shapes. -/
def IsDescribed : Expression → Prop
  | value name => IsName name
  | equals name literal => IsName name ∧ '\'' ∉ literal ∧ '\n' ∉ literal
  | exceeds name number => IsName name ∧ IsPlainNumber number
  | ratio => True
  | paddedRatio extra => IsPlainNumber extra

theorem IsDescribed.isReadable {expression : Expression} (h : expression.IsDescribed) :
    expression.IsReadable := by
  cases expression with
  | value name => exact h
  | equals name literal => exact ⟨h.1, h.2.2⟩
  | exceeds name number => exact ⟨h.1, h.2.isNumber⟩
  | ratio => trivial
  | paddedRatio extra => exact IsPlainNumber.isNumber h

theorem not_mem_outsideLiterals_render {expression : Expression} (h : expression.IsDescribed) :
    '@' ∉ outsideLiterals expression.render := by
  have hname : ∀ {name : Text}, IsName name → '\'' ∉ name ∧ '@' ∉ name := fun hname =>
    ⟨fun hmem => absurd (hname.2 _ hmem) (by decide),
      fun hmem => absurd (hname.2 _ hmem) (by decide)⟩
  have hnumber : ∀ {number : Text}, IsPlainNumber number → '\'' ∉ number ∧ '@' ∉ number :=
    fun hnumber => ⟨fun hmem => absurd (hnumber.2 _ hmem) (by decide),
      fun hmem => absurd (hnumber.2 _ hmem) (by decide)⟩
  cases expression with
  | value name =>
    obtain ⟨hapostrophe, hsign⟩ := hname h
    rw [render_value, outsideLiterals_of_not_mem (by simpa using hapostrophe)]
    simpa using hsign
  | equals name literal =>
    obtain ⟨hapostrophe, hsign⟩ := hname h.1
    have hbefore : '\'' ∉ ("$" ++ name ++ "==" : Text) := by simpa using hapostrophe
    have htext :
        render (equals name literal) = ("$" ++ name ++ "==") ++ '\'' :: (literal ++ ['\'']) := by
      simp [render_equals]
    have hliteral : outsideLiterals ('\'' :: (literal ++ ['\''])) = [] :=
      outsideLiterals_inside h.2.1 []
    rw [htext, outsideLiterals_append hbefore, hliteral]
    simpa using hsign
  | exceeds name number =>
    obtain ⟨⟨hapostrophe, hsign⟩, hapostrophe', hsign'⟩ := And.intro (hname h.1) (hnumber h.2)
    rw [render_exceeds, outsideLiterals_of_not_mem (by simpa using ⟨hapostrophe, hapostrophe'⟩)]
    simpa using ⟨hsign, hsign'⟩
  | ratio => decide
  | paddedRatio extra =>
    obtain ⟨hapostrophe, hsign⟩ := hnumber h
    rw [render_paddedRatio, outsideLiterals_of_not_mem (by simpa using hapostrophe)]
    simpa using hsign

end Expression

section

variable {text decoded : Text}

theorem convertExpression_source {found : Expression}
    (hdecodes : Html.decodeReferences text = .ok decoded) (h : found.IsReadable)
    (hsource : decoded = found.source) : convertExpression text = .ok found.render := by
  have hread := Expression.read?_eq_some_iff.2 ⟨h, hsource⟩
  simp only [convertExpression, hdecodes, Except.mapError, bind, Except.bind, hread]
  rfl

theorem convertExpression_of_forall_ne (hdecodes : Html.decodeReferences text = .ok decoded)
    (h : ∀ found : Expression, found.IsReadable → decoded ≠ found.source) :
    convertExpression text = .error (.unknownExpression decoded) := by
  have hread : Expression.read? decoded = none := by
    refine Option.eq_none_iff_forall_ne_some.2 fun found hfound => ?_
    obtain ⟨hreadable, hsource⟩ := Expression.read?_eq_some_iff.1 hfound
    exact h found hreadable hsource
  simp only [convertExpression, hdecodes, Except.mapError, bind, Except.bind, hread]
  rfl

/-- What is described of a text that stands for `decoded`: it is converted if it has one of the
shapes, then no attribute keeps the sign of the source dialect, and otherwise it is refused as a
whole. -/
structure KeepsToShapes (text decoded : Text) : Prop where
  converts : ∀ found : Expression, found.IsDescribed → decoded = found.source →
    convertExpression text = .ok found.render ∧ '@' ∉ outsideLiterals found.render
  refuses : (∀ found : Expression, found.IsDescribed → decoded ≠ found.source) →
    convertExpression text = .error (.unknownExpression decoded)

/-- Conversion keeps to the shapes exactly when no other expression reads as the same text. -/
theorem keepsToShapes_iff (hdecodes : Html.decodeReferences text = .ok decoded) :
    KeepsToShapes text decoded ↔
      ∀ found : Expression, found.IsReadable → decoded = found.source → found.IsDescribed := by
  constructor
  · intro hkeeps found hreadable hsource
    have hconverts := convertExpression_source hdecodes hreadable hsource
    by_contra hnot
    have hrefuses := hkeeps.refuses fun other hdescribed hother => by
      have hsame : Expression.read? decoded = some other :=
        Expression.read?_eq_some_iff.2 ⟨hdescribed.isReadable, hother⟩
      rw [Expression.read?_eq_some_iff.2 ⟨hreadable, hsource⟩] at hsame
      exact hnot (Option.some.inj hsame ▸ hdescribed)
    rw [hconverts] at hrefuses
    cases hrefuses
  · intro h
    refine ⟨fun found hdescribed hsource => ?_, fun hnot => ?_⟩
    · exact ⟨convertExpression_source hdecodes hdescribed.isReadable hsource,
        Expression.not_mem_outsideLiterals_render hdescribed⟩
    · exact convertExpression_of_forall_ne hdecodes fun found hreadable hsource =>
        hnot found (h found hreadable hsource) hsource

/-- Conversion succeeds on the sources of readable expressions and renders them. -/
theorem convertExpression_eq_ok_iff (hdecodes : Html.decodeReferences text = .ok decoded)
    (out : Text) :
    convertExpression text = .ok out ↔
      ∃ found : Expression, found.IsReadable ∧ decoded = found.source ∧ out = found.render := by
  constructor
  · intro hout
    by_cases h : ∃ found : Expression, found.IsReadable ∧ decoded = found.source
    · obtain ⟨found, hreadable, hsource⟩ := h
      rw [convertExpression_source hdecodes hreadable hsource] at hout
      exact ⟨found, hreadable, hsource, (Except.ok.inj hout).symm⟩
    · rw [convertExpression_of_forall_ne hdecodes fun found hreadable hsource =>
        h ⟨found, hreadable, hsource⟩] at hout
      cases hout
  · rintro ⟨found, hreadable, hsource, rfl⟩
    exact convertExpression_source hdecodes hreadable hsource

end

/-- The conversion of every text. It succeeds on the readable expressions and on nothing else, and
it keeps to the described shapes unless a literal has an apostrophe in it or a number has a digit
that is not one from 0 to 9. -/
theorem convertExpression_shapes (text : Text) :
    (∀ oversized, Html.decodeReferences text = .error oversized →
      convertExpression text = .error (.oversizedReference oversized)) ∧
    ∀ decoded, Html.decodeReferences text = .ok decoded →
      (∀ out, convertExpression text = .ok out ↔
        ∃ found : Expression, found.IsReadable ∧ decoded = found.source ∧ out = found.render) ∧
      ((∀ found : Expression, found.IsReadable → decoded ≠ found.source) →
        convertExpression text = .error (.unknownExpression decoded)) ∧
      (KeepsToShapes text decoded ↔
        ∀ found : Expression, found.IsReadable → decoded = found.source → found.IsDescribed) := by
  refine ⟨fun oversized hdecodes => ?_, fun decoded hdecodes => ⟨?_, ?_, ?_⟩⟩
  · simp only [convertExpression, hdecodes, Except.mapError, bind, Except.bind]
  · exact convertExpression_eq_ok_iff hdecodes
  · exact convertExpression_of_forall_ne hdecodes
  · exact keepsToShapes_iff hdecodes

/-- Two comparisons pass for one whose literal has apostrophes, and the second keeps its sign. -/
theorem not_keepsToShapes_apostrophe :
    Html.decodeReferences "@a='x' or @b='y'" = .ok "@a='x' or @b='y'" ∧
      convertExpression "@a='x' or @b='y'" = .ok "$a=='x' or @b='y'" ∧
      '@' ∈ outsideLiterals "$a=='x' or @b='y'" ∧
      ¬KeepsToShapes "@a='x' or @b='y'" "@a='x' or @b='y'" := by
  have hdecodes : Html.decodeReferences "@a='x' or @b='y'" = .ok "@a='x' or @b='y'" :=
    Html.decodeReferences_of_not_mem (by decide)
  have hreadable : (Expression.equals "a" "x' or @b='y").IsReadable := by
    refine ⟨⟨by decide, by decide⟩, by decide⟩
  have hsource : ("@a='x' or @b='y'" : Text) = (Expression.equals "a" "x' or @b='y").source := by
    decide
  refine ⟨hdecodes, ?_, by decide, fun hkeeps => ?_⟩
  · rw [convertExpression_source hdecodes hreadable hsource]
    decide
  · have hdescribed := (keepsToShapes_iff hdecodes).1 hkeeps _ hreadable hsource
    exact hdescribed.2.1 (by decide)

end LazyEmbed.Template
