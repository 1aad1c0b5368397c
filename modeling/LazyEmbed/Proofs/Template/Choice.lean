import LazyEmbed.Proofs.Template.Evaluation
import LazyEmbed.Proofs.Text.Blank

/-!
# A choice is an expression

A conditional that is folded becomes a choice between braces, which is a part like any other for the
conditional around it: it begins and ends with a character that is not blank, no brace is in it, and
no two apostrophes next to a dot. So its terms survive when the empty literals of the outer text are
dropped.
-/

namespace LazyEmbed.Template

open MixedContent

/-! ### Flat parts -/

/-- The characters that markup, braces and hidden expressions begin or end with, and the line
feed. -/
def structural : List Char := ['<', '\x7b', '\x7d', mark, '\n']

abbrev IsFlat (text : Text) : Prop := Text.Lacks structural text

def enclosed (text : Text) : Text := '\'' :: (text ++ ['\''])

theorem quote_eq_enclosed (text : Text) : quote text = enclosed (escape text) := rfl

theorem isFlat_enclosed {text : Text} (h : IsFlat text) : IsFlat (enclosed text) := by
  have hapostrophe : IsFlat ['\''] := by decide
  exact hapostrophe.append (h.append hapostrophe)

theorem isFlat_escape {text : Text} (h : IsFlat text) : IsFlat (escape text) := by
  have hbackslash : ∀ c ∈ structural, c ≠ '\\' := by decide
  exact fun c hc hmem => (mem_escape hmem).elim (h c hc) (hbackslash c hc)

theorem isFlat_quote {text : Text} (h : IsFlat text) : IsFlat (quote text) :=
  isFlat_enclosed (isFlat_escape h)

/-- A part that is left when all conditionals in it are folded. -/
def Part.IsFolded : Part → Prop
  | literal text => '\'' ∉ text ∧ IsFlat text
  | reference name => IsName name
  | expression text => IsExpression text ∧ (expression text).IsTame ∧ IsFlat text

namespace Part.IsFolded

variable {part : Part} (h : part.IsFolded)
include h

theorem wellFormed : part.WellFormed := by
  cases part with
  | literal text => exact ⟨h.2 _ (by decide), h.2 _ (by decide), h.2 _ (by decide)⟩
  | reference name => exact h
  | expression text => exact h.1

theorem isTame : part.IsTame := by
  cases part with
  | literal text => trivial
  | reference name => trivial
  | expression text => exact h.2.1

theorem isFlat_term : IsFlat part.term := by
  cases part with
  | literal text => exact isFlat_quote h.2
  | reference name => exact Text.Lacks.append (by decide) (IsName.lacks h (by decide))
  | expression text => exact (Text.Lacks.append (by decide) h.2.2).append (by decide)

/-- Folded parts hold no markup. -/
theorem not_mem_source : '<' ∉ part.source := by
  cases part with
  | literal text => exact h.2 _ (by decide)
  | reference name =>
    have hname : '<' ∉ name := IsName.isClean h _ (by decide)
    simp [source, hname]
  | expression text =>
    have htext : '<' ∉ text := h.2.2 _ (by decide)
    simp [source, htext]

end Part.IsFolded

/-! ### Apostrophes next to a dot -/

section

variable {text rest : Text}

def Breaks (rest : Text) : Prop := rest.head? ≠ some '\'' ∧ ¬(" . " : Text) <+: rest

/-- Nothing that makes a literal next to a dot an empty one begins in the text. -/
structure Spares (text rest : Text) : Prop where
  before : Text.Misses "'' . " text rest
  after : Text.Misses " . ''" text rest

theorem Spares.append {second : Text} (hfirst : Spares text (second ++ rest))
    (hsecond : Spares second rest) : Spares (text ++ second) rest :=
  ⟨hfirst.before.append hsecond.before, hfirst.after.append hsecond.after⟩

theorem spares_nil (rest : Text) : Spares [] rest := ⟨Text.misses_nil _ _, Text.misses_nil _ _⟩

/-- Neither removal touches a text in apostrophes, unless it is empty and joined to what follows. -/
theorem spares_enclosed (h : '\'' ∉ text) (hhead : rest.head? ≠ some '\'')
    (hdot : text = [] → ¬(" . " : Text) <+: rest) : Spares (enclosed text) rest where
  before := by
    have hlast : Text.Misses "'' . " ['\''] rest := by
      refine Text.misses_cons (fun ⟨behind, heq⟩ => hhead ?_) (Text.misses_nil _ _)
      have hrest : rest = '\'' :: (" . " ++ behind) := (List.cons.inj heq).2.symm
      rw [hrest]
      rfl
    refine Text.misses_cons (fun ⟨behind, heq⟩ => ?_) ((Text.misses_of_not_mem h).append hlast)
    have hbehind : '\'' :: (" . " ++ behind) = text ++ ['\''] ++ rest := (List.cons.inj heq).2
    cases text with
    | nil => exact hdot rfl ⟨behind, (List.cons.inj hbehind).2⟩
    | cons c text =>
      rw [(List.cons.inj hbehind).1] at h
      exact h List.mem_cons_self
  after := by
    refine Text.misses_cons (not_begins_emptyAfter (by decide) _) (Text.Misses.append ?_ ?_)
    · rintro before after heq - ⟨behind, hbehind⟩
      have hafter : '\'' ∉ after := fun hmem => h (heq ▸ List.mem_append_right before hmem)
      have hsplit : (" . " : Text) ++ '\'' :: '\'' :: behind = after ++ '\'' :: rest := hbehind
      have hrest := (Text.append_cons_inj (by decide) hafter hsplit).2
      exact hhead (hrest ▸ rfl)
    · exact Text.misses_cons (not_begins_emptyAfter (by decide) _) (Text.misses_nil _ _)

theorem apostrophe_not_mem_escape (h : '\'' ∉ text) : '\'' ∉ escape text :=
  fun hmem => (mem_escape hmem).elim h (by decide)

theorem spares_quote (h : '\'' ∉ text) (hhead : rest.head? ≠ some '\'')
    (hdot : text = [] → ¬(" . " : Text) <+: rest) : Spares (quote text) rest := by
  rw [quote_eq_enclosed]
  refine spares_enclosed (apostrophe_not_mem_escape h) hhead fun hnil => hdot ?_
  cases text with
  | nil => rfl
  | cons c text =>
    rw [escape_cons] at hnil
    obtain ⟨-, -, hchar⟩ | ⟨-, hchar⟩ := escapeChar_cases c
    · simp only [hchar, List.cons_append, reduceCtorEq] at hnil
    · simp only [hchar, List.cons_append, reduceCtorEq] at hnil

/-- A term that may stand next to a dot: a folded part that is no empty literal. -/
def IsOperand (part : Part) : Prop := part.IsFolded ∧ part ≠ .literal []

theorem IsSplice.spares {term : Text} (h : IsSplice term) (rest : Text) : Spares term rest :=
  ⟨h.before rest, h.after rest⟩

theorem spares_term {part : Part} (h : IsOperand part) (hhead : rest.head? ≠ some '\'') :
    Spares part.term rest := by
  cases part with
  | literal text => exact spares_quote h.1.1 hhead fun hnil => absurd (hnil ▸ rfl) h.2
  | reference name => exact (isSplice_reference h.1).spares rest
  | expression text => exact (isSplice_expression h.1.isTame).spares rest

theorem spares_dot_term {part : Part} (h : IsOperand part) (rest : Text) :
    Spares " . " (part.term ++ rest) := by
  refine ⟨Text.misses_of_not_mem (by decide), ?_⟩
  cases part with
  | literal text =>
    have hterm : (Part.literal text).term ++ rest = '\'' :: (escape text ++ '\'' :: rest) := by
      simp [Part.term, quote_eq]
    rw [hterm]
    exact misses_after_dot_quote (head?_escape_append fun hnil => absurd (hnil ▸ rfl) h.2)
  | reference name =>
    refine misses_after_dot ?_ (by simp [Part.term])
    rintro ⟨behind, heq⟩
    exact absurd (List.cons.inj heq).1 (by decide)
  | expression text =>
    refine misses_after_dot ?_ (by simp [Part.term])
    rintro ⟨behind, heq⟩
    exact absurd (List.cons.inj heq).1 (by decide)

variable {terms : List Part}

theorem head?_dotted_append (hhead : rest.head? ≠ some '\'') (terms : List Part) :
    (Runs.dotted terms ++ rest).head? ≠ some '\'' := by
  cases terms with
  | nil => exact hhead
  | cons first terms => exact fun heq => absurd (Option.some.inj heq) (by decide)

/-- Neither removal touches a row of joined terms. -/
theorem spares_dotted (h : ∀ term ∈ terms, IsOperand term) (hhead : rest.head? ≠ some '\'') :
    Spares (Runs.dotted terms) rest := by
  induction terms with
  | nil => exact spares_nil rest
  | cons first terms ih =>
    obtain ⟨hfirst, hterms⟩ := List.forall_mem_cons.1 h
    rw [Runs.dotted, List.flatMap_cons, List.append_assoc, ← Runs.dotted]
    refine Spares.append ?_ (Spares.append ?_ (ih hterms))
    · rw [List.append_assoc]
      exact spares_dot_term hfirst _
    · exact spares_term hfirst (head?_dotted_append hhead terms)

/-- The terms of a string: a single empty literal, or operands. -/
def AreTerms (terms : List Part) : Prop :=
  terms ≠ [] ∧ (terms = [.literal []] ∨ ∀ term ∈ terms, IsOperand term)

theorem spares_joined (h : AreTerms terms) (hrest : Breaks rest) : Spares (joined terms) rest := by
  obtain ⟨hne, rfl | hterms⟩ := h
  · exact spares_quote List.not_mem_nil hrest.1 fun _ => hrest.2
  · obtain ⟨first, terms, rfl⟩ := List.exists_cons_of_ne_nil hne
    obtain ⟨hfirst, hterms⟩ := List.forall_mem_cons.1 hterms
    rw [Runs.joined_cons]
    exact (spares_term hfirst (head?_dotted_append hrest.1 terms)).append
      (spares_dotted hterms hrest.1)

theorem head?_joined_append (h : AreTerms terms) (rest : Text) :
    (joined terms ++ rest).head? ≠ some '.' := by
  obtain ⟨first, terms, rfl⟩ := List.exists_cons_of_ne_nil h.1
  rw [Runs.joined_cons]
  cases first with
  | literal text | reference name | expression text =>
    exact fun heq => absurd (Option.some.inj heq) (by decide)

/-- No empty literal begins at a sign between blanks with a string behind it. -/
theorem spares_sign {c : Char} (hc : c ≠ '.' ∧ c ≠ ' ' ∧ c ≠ '\'') (hhead : rest.head? ≠ some '.') :
    Spares [' ', c, ' '] rest where
  before := by
    have hquote : '\'' ∉ [' ', c, ' '] := by simpa using hc.2.2.symm
    exact Text.misses_of_not_mem hquote
  after := by
    refine Text.misses_cons (fun ⟨_, heq⟩ => ?_)
      (Text.misses_cons (not_begins_emptyAfter hc.2.1 _)
        (Text.misses_cons (fun ⟨behind, heq⟩ => hhead ?_) (Text.misses_nil _ _)))
    · exact hc.1 (List.cons.inj (List.cons.inj heq).2).1.symm
    · have hrest : rest = '.' :: ' ' :: '\'' :: '\'' :: behind := (List.cons.inj heq).2.symm
      rw [hrest]
      rfl

theorem isFlat_dotted (h : ∀ term ∈ terms, IsFlat term.term) : IsFlat (Runs.dotted terms) := by
  intro c hc hmem
  obtain ⟨term, hterm, hmem⟩ := List.mem_flatMap.1 hmem
  exact Text.Lacks.append (by decide) (h term hterm) c hc hmem

theorem isFlat_joined (h : AreTerms terms) : IsFlat (joined terms) := by
  have hflat : ∀ term ∈ terms, IsFlat term.term := by
    obtain ⟨-, rfl | hterms⟩ := h
    · intro term hterm
      rw [List.mem_singleton.1 hterm]
      decide
    · exact fun term hterm => (hterms term hterm).1.isFlat_term
  obtain ⟨first, terms, rfl⟩ := List.exists_cons_of_ne_nil h.1
  obtain ⟨hfirst, hterms⟩ := List.forall_mem_cons.1 hflat
  rw [Runs.joined_cons]
  exact hfirst.append (isFlat_dotted hterms)

end

/-! ### Expressions and choices between braces -/

abbrev IsBare (text : Text) : Prop := Text.Lacks ('\'' :: '"' :: ' ' :: structural) text

theorem IsBare.isFlat {text : Text} (h : IsBare text) : IsFlat text :=
  fun c hc => h c (List.mem_cons_of_mem _ (List.mem_cons_of_mem _ (List.mem_cons_of_mem _ hc)))

theorem IsBare.spares {text rest : Text} (h : IsBare text) : Spares text rest :=
  ⟨Text.misses_of_not_mem (h _ (by decide)), Text.misses_of_not_mem (h _ (by decide))⟩

def HasEnd (text : Text) : Prop := ∃ before c, text = before ++ [c] ∧ Text.isBlank c = false

theorem HasEnd.append {text : Text} (h : HasEnd text) (before : Text) :
    HasEnd (before ++ text) := by
  obtain ⟨more, c, rfl, hc⟩ := h
  exact ⟨before ++ more, c, (List.append_assoc _ _ _).symm, hc⟩

theorem hasEnd_of_forall {text : Text} (hne : text ≠ []) (h : ∀ c ∈ text, Text.isBlank c = false) :
    HasEnd text := by
  obtain ⟨before, c, rfl⟩ := (List.eq_nil_or_concat text).resolve_left hne
  rw [List.concat_eq_append] at h ⊢
  exact ⟨before, c, rfl, h c (by simp)⟩

namespace Expression

/-- An expression is a bare text, perhaps with a literal behind it. -/
theorem render_cases {found : Expression} (h : found.IsSimple) :
    IsBare found.render ∨ ∃ front literal, found.render = front ++ enclosed literal ∧ IsBare front ∧
      '\'' ∉ literal ∧ '"' ∉ literal ∧ IsFlat literal := by
  cases found with
  | value name => exact .inl (Text.Lacks.append (by decide) (IsName.lacks h (by decide)))
  | equals name literal =>
    refine .inr ⟨"$" ++ (name ++ "=="), literal, ?_, ?_, h.2 _ (by decide),
      h.2 _ (by decide), fun c hc => ?_⟩
    · rw [render_equals]
      simp [enclosed]
    · exact Text.Lacks.append (by decide) ((h.1.lacks (by decide)).append (by decide))
    · have hsimple : ∀ c ∈ structural, c ∈ meaningful := by decide
      exact h.2 c (hsimple c hc)
  | exceeds name number =>
    refine .inl ?_
    rw [render_exceeds, List.append_assoc, List.append_assoc]
    exact Text.Lacks.append (by decide) ((h.1.lacks (by decide)).append
      (Text.Lacks.append (by decide) (h.2.lacks (by decide))))
  | ratio => exact .inl (by decide)
  | paddedRatio extra =>
    refine .inl ?_
    rw [render_paddedRatio, List.append_assoc]
    exact Text.Lacks.append (by decide) ((IsNumber.lacks h (by decide)).append (by decide))

variable {found : Expression} {rest : Text}

theorem spares_render (h : found.IsSimple) (hrest : Breaks rest) : Spares found.render rest := by
  obtain hbare | ⟨front, literal, hrender, hfront, hliteral, -, -⟩ := render_cases h
  · exact hbare.spares
  · rw [hrender]
    exact hfront.spares.append (spares_enclosed hliteral hrest.1 fun _ => hrest.2)

theorem isFlat_render (h : found.IsSimple) : IsFlat found.render := by
  obtain hbare | ⟨front, literal, hrender, hfront, -, -, hliteral⟩ := render_cases h
  · exact hbare.isFlat
  · rw [hrender]
    exact hfront.isFlat.append (isFlat_enclosed hliteral)

theorem quote_not_mem_render (h : found.IsSimple) : '"' ∉ found.render := by
  obtain hbare | ⟨front, literal, hrender, hfront, -, hliteral, -⟩ := render_cases h
  · exact hbare _ (by decide)
  · rw [hrender]
    simp only [enclosed, List.mem_append, List.mem_cons, List.not_mem_nil, not_or]
    exact ⟨hfront _ (by decide), by decide, hliteral, by decide, not_false⟩

theorem first_render (found : Expression) :
    ∃ c rest, found.render = c :: rest ∧ Text.isBlank c = false := by
  cases found with
  | value name | equals name literal | exceeds name number => exact ⟨'$', _, rfl, by decide⟩
  | ratio | paddedRatio extra => exact ⟨'1', _, rfl, by decide⟩

theorem hasEnd_render (h : found.IsSimple) : HasEnd found.render := by
  cases found with
  | value name =>
    exact (hasEnd_of_forall h.1 fun c hc => Text.isBlank_eq_false_of_isWord (h.2 c hc)).append _
  | equals name literal => exact ⟨_, '\'', rfl, by decide⟩
  | exceeds name number =>
    exact (hasEnd_of_forall h.2.1 fun c hc =>
      Text.isBlank_eq_false_of_isDecimal (h.2.2 c hc)).append _
  | ratio => exact ⟨"100*$height/$widt", 'h', rfl, by decide⟩
  | paddedRatio extra => exact HasEnd.append ⟨")/$widt", 'h', rfl, by decide⟩ _

theorem isFolded_render (h : found.IsSimple) : (Part.expression found.render).IsFolded := by
  have hend : Breaks [] := ⟨by simp, by simp⟩
  refine ⟨⟨first_render found, hasEnd_render h, isFlat_render h _ (by decide), fun hclose => ?_⟩,
    ⟨(spares_render h hend).before.not_isInfix (by decide),
      (spares_render h hend).after.not_isInfix (by decide)⟩, isFlat_render h⟩
  exact isFlat_render h '\x7d' (by decide) (hclose.subset (by decide))

end Expression

section

variable {condition : Expression} {holds otherwise : List Part}

theorem hasEnd_term {part : Part} (h : part.IsFolded) : HasEnd part.term := by
  cases part with
  | literal text => exact ⟨'\'' :: escape text, '\'', rfl, by decide⟩
  | reference name =>
    exact (hasEnd_of_forall h.1 fun c hc => Text.isBlank_eq_false_of_isWord (h.2 c hc)).append _
  | expression text => exact ⟨"(" ++ text, ')', rfl, by decide⟩

theorem hasEnd_joined {terms : List Part} (hne : terms ≠ []) (h : ∀ term ∈ terms, term.IsFolded) :
    HasEnd (joined terms) := by
  induction terms with
  | nil => exact absurd rfl hne
  | cons first terms ih =>
    obtain ⟨hfirst, hterms⟩ := List.forall_mem_cons.1 h
    rw [Runs.joined_cons]
    cases terms with
    | nil =>
      rw [Runs.dotted, List.flatMap_nil, List.append_nil]
      exact hasEnd_term hfirst
    | cons second terms =>
      rw [Runs.dotted_eq (List.cons_ne_nil _ _)]
      exact ((ih (List.cons_ne_nil _ _) hterms).append _).append _

theorem AreTerms.isFolded {terms : List Part} (h : AreTerms terms) :
    ∀ term ∈ terms, term.IsFolded := by
  obtain ⟨-, rfl | hterms⟩ := h
  · intro term hterm
    rw [List.mem_singleton.1 hterm]
    exact ⟨List.not_mem_nil, by decide⟩
  · exact fun term hterm => (hterms term hterm).1

/-- A choice between strings is an expression that the strings around it leave alone. -/
theorem isFolded_choice (hcondition : condition.IsSimple) (hholds : AreTerms holds)
    (hotherwise : AreTerms otherwise) :
    (Part.expression (choice condition holds otherwise)).IsFolded := by
  have hend : Breaks [] := ⟨by simp, by simp⟩
  have hsign : ∀ {c : Char}, c ≠ '.' → ∀ text : Text, Breaks (' ' :: c :: text) := fun hc _ =>
    ⟨by simp, fun ⟨_, heq⟩ => hc (List.cons.inj (List.cons.inj heq).2).1.symm⟩
  have hflat : IsFlat (choice condition holds otherwise) :=
    (Expression.isFlat_render hcondition).append (Text.Lacks.append (by decide)
      ((isFlat_joined hholds).append (Text.Lacks.append (by decide) (isFlat_joined hotherwise))))
  have hspares : Spares (choice condition holds otherwise) [] := by
    have hhead : (joined holds ++ ((" : " : Text) ++ joined otherwise) ++ []).head? ≠ some '.' := by
      rw [List.append_assoc]
      exact head?_joined_append hholds _
    refine Spares.append (Expression.spares_render hcondition (hsign (by decide) _)) ?_
    refine Spares.append (spares_sign (by decide) hhead) ?_
    refine Spares.append (spares_joined hholds (hsign (by decide) _)) ?_
    exact (spares_sign (by decide) (head?_joined_append hotherwise _)).append
      (spares_joined hotherwise hend)
  refine ⟨⟨?_, ?_, hflat _ (by decide), fun hclose => ?_⟩,
    ⟨hspares.before.not_isInfix (by decide), hspares.after.not_isInfix (by decide)⟩, hflat⟩
  · obtain ⟨c, rest, hrender, hc⟩ := Expression.first_render condition
    exact ⟨c, _, by rw [choice, hrender, List.cons_append], hc⟩
  · have hotherEnd := hasEnd_joined hotherwise.1 hotherwise.isFolded
    exact (((hotherEnd.append _).append _).append _).append _
  · exact hflat '\x7d' (by decide) (hclose.subset (by decide))

end

namespace Runs

/-- Runs made of folded parts have folded literals, with an operand at every splice. -/
theorem isFolded_ofParts {text : Text} {parts : List Part} (htext : (Part.literal text).IsFolded)
    (h : ∀ part ∈ parts, part.IsFolded) :
    (∀ splice ∈ (ofParts text parts).splices, (Part.literal splice.1).IsFolded ∧
      IsOperand splice.2) ∧ (Part.literal (ofParts text parts).last).IsFolded := by
  have hnil : (Part.literal []).IsFolded := ⟨List.not_mem_nil, by decide⟩
  induction parts generalizing text with
  | nil => exact ⟨by simp [ofParts], htext⟩
  | cons part parts ih =>
    obtain ⟨hpart, hparts⟩ := List.forall_mem_cons.1 h
    cases part with
    | literal more =>
      refine ih ⟨fun hmem => ?_, htext.2.append hpart.2⟩ hparts
      exact (List.mem_append.1 hmem).elim htext.1 hpart.1
    | reference name =>
      obtain ⟨hsplices, hlast⟩ := ih hnil hparts
      exact ⟨List.forall_mem_cons.2 ⟨⟨htext, hpart, by simp⟩, hsplices⟩, hlast⟩
    | expression found =>
      obtain ⟨hsplices, hlast⟩ := ih hnil hparts
      exact ⟨List.forall_mem_cons.2 ⟨⟨htext, hpart, by simp⟩, hsplices⟩, hlast⟩

theorem isOperand_literals {text : Text} (h : (Part.literal text).IsFolded) :
    ∀ term ∈ literals text, IsOperand term := by
  intro term hterm
  by_cases hnil : text = []
  · simp [literals, hnil] at hterm
  · rw [literals, if_neg hnil, List.mem_singleton] at hterm
    exact hterm ▸ ⟨h, fun heq => hnil (Part.literal.inj heq)⟩

/-- The terms of folded parts, once literals that touch are joined. -/
theorem areTerms_ofParts {parts : List Part} (h : ∀ part ∈ parts, part.IsFolded) :
    AreTerms (ofParts [] parts).terms := by
  have hnil : (Part.literal []).IsFolded := ⟨List.not_mem_nil, by decide⟩
  obtain ⟨hsplices, hlast⟩ := isFolded_ofParts hnil h
  refine ⟨terms_ne_nil _, ?_⟩
  generalize ofParts [] parts = runs at hsplices hlast
  obtain ⟨splices, last⟩ := runs
  cases splices with
  | nil =>
    by_cases hempty : last = []
    · exact .inl (by rw [terms, hempty])
    · refine .inr fun term hterm => isOperand_literals hlast term ?_
      rwa [literals, if_neg hempty]
  | cons splice splices =>
    refine .inr fun term hterm => ?_
    obtain hterm | hterm := List.mem_append.1 hterm
    · obtain ⟨other, hother, hterm⟩ := List.mem_flatMap.1 hterm
      obtain ⟨htext, hsplice⟩ := hsplices other hother
      obtain hterm | hterm := List.mem_append.1 hterm
      · exact isOperand_literals htext term hterm
      · exact List.mem_singleton.1 hterm ▸ hsplice
    · exact isOperand_literals hlast term hterm

/-- The literals of folded parts end in no apostrophe. -/
theorem areWhole_ofParts {parts : List Part} (h : ∀ part ∈ parts, part.IsFolded) :
    AreWhole (ofParts [] parts).splices := by
  have hnil : (Part.literal []).IsFolded := ⟨List.not_mem_nil, by decide⟩
  intro splice hsplice hlast
  exact ((isFolded_ofParts hnil h).1 splice hsplice).1.1 (List.mem_of_getLast? hlast)

end Runs

/-- Folded parts become the string of their terms. -/
theorem stringOfMixed_folded {parts : List Part} (h : ∀ part ∈ parts, part.IsFolded) :
    stringOfMixed (parts.flatMap Part.source) = .ok (joined (Runs.ofParts [] parts).terms) := by
  rw [stringOfMixed_source fun part hpart => ⟨(h part hpart).wellFormed, (h part hpart).isTame⟩,
    Runs.written_eq (Runs.areWhole_ofParts h)]

end LazyEmbed.Template
