import LazyEmbed.Proofs.Template.Dropping

/-!
# What mixed content means

Mixed content and the string expression that it becomes are both lists of parts, and both mean the
values of their parts one after the other. Joining literals and dropping empty ones changes no
value. What can go wrong is a literal that ends in an apostrophe with a splice behind it: it loses
its closing quote, so that what is left is no string expression at all.
-/

namespace LazyEmbed.Template

open MixedContent

structure Assignment where
  references : Text → Text
  expressions : Text → Text

def Part.value (assignment : Assignment) : Part → Text
  | literal text => text
  | reference name => assignment.references name
  | expression text => assignment.expressions text

def valueOf (assignment : Assignment) (parts : List Part) : Text :=
  parts.flatMap (Part.value assignment)

def joined (terms : List Part) : Text := [' ', '.', ' '].intercalate (terms.map Part.term)

/-! ### Expressions that are left alone -/

def Part.IsTame : Part → Prop
  | expression text => ¬("'' . " : Text) <:+: text ∧ ¬(" . ''" : Text) <:+: text
  | _ => True

theorem isSplice_reference {name : Text} (h : IsName name) :
    IsSplice (Part.reference name).term where
  first := ⟨'$', name, rfl, .inl rfl⟩
  before _ := by
    have hname : '\'' ∉ '$' :: name := by
      simpa using fun hmem => absurd (h.2 '\'' hmem) (by decide)
    exact Text.misses_of_not_mem hname
  after _ := by
    have hname : ' ' ∉ '$' :: name := by
      simpa using fun hmem => absurd (h.2 ' ' hmem) (by decide)
    exact Text.misses_of_not_mem hname

theorem misses_expression {start text : Text} (h : ¬start <:+: text) (hopen : '(' ∉ start)
    (hclose : ')' ∉ start) (hstart : start ≠ []) (rest : Text) :
    Text.Misses start (Part.expression text).term rest := by
  obtain ⟨c, others, rfl⟩ := List.exists_cons_of_ne_nil hstart
  have hparen : ∀ d, d ∉ c :: others → ∀ rest : Text, Text.Misses (c :: others) [d] rest :=
    fun d hd rest => Text.misses_of_not_mem fun hmem =>
      hd (List.mem_singleton.1 hmem ▸ List.mem_cons_self)
  have htext : Text.Misses (c :: others) text (')' :: rest) := by
    refine Text.misses_of_not_isInfix h fun d hd => ?_
    obtain rfl : ')' = d := by simpa using hd
    exact fun hmem => hclose (List.mem_cons_of_mem c hmem)
  exact ((hparen '(' hopen _).append htext).append (hparen ')' hclose rest)

theorem isSplice_expression {text : Text} (h : (Part.expression text).IsTame) :
    IsSplice (Part.expression text).term where
  first := ⟨'(', text ++ [')'], rfl, .inr rfl⟩
  before := misses_expression h.1 (by decide) (by decide) (by decide)
  after := misses_expression h.2 (by decide) (by decide) (by decide)

namespace Runs

theorem isSplice_ofParts {parts : List Part} (h : ∀ part ∈ parts, part.WellFormed ∧ part.IsTame)
    (text : Text) : ∀ splice ∈ (ofParts text parts).splices, IsSplice splice.2.term := by
  induction parts generalizing text with
  | nil => simp [ofParts]
  | cons part parts ih =>
    obtain ⟨⟨hwell, htame⟩, hparts⟩ := List.forall_mem_cons.1 h
    cases part with
    | literal more => exact ih hparts _
    | reference name => exact List.forall_mem_cons.2 ⟨isSplice_reference hwell, ih hparts []⟩
    | expression found => exact List.forall_mem_cons.2 ⟨isSplice_expression htame, ih hparts []⟩

end Runs

/-- Mixed content becomes what is left of its runs. -/
theorem stringOfMixed_source {parts : List Part}
    (h : ∀ part ∈ parts, part.WellFormed ∧ part.IsTame) :
    stringOfMixed (parts.flatMap Part.source) = .ok (Runs.ofParts [] parts).written := by
  have hcovered := Runs.covered_ofParts [] parts
  rw [stringOfMixed_flatMap fun part hpart => (h part hpart).1,
    ← Runs.dropEmpty_covered (Runs.isSplice_ofParts h []), hcovered]
  rfl

/-! ### Terms -/

namespace Runs

def literals (text : Text) : List Part := if text = [] then [] else [.literal text]

def pieces (splices : List (Text × Part)) : List Part :=
  splices.flatMap fun splice => literals splice.1 ++ [splice.2]

/-- The terms that runs stand for. A text without splices is one literal, even if it is empty. -/
def terms : Runs → List Part
  | ⟨[], last⟩ => [.literal last]
  | ⟨splice :: splices, last⟩ => pieces (splice :: splices) ++ literals last

theorem terms_ne_nil (runs : Runs) : runs.terms ≠ [] := by
  obtain ⟨splices, last⟩ := runs
  cases splices with
  | nil => exact List.cons_ne_nil _ _
  | cons splice splices => simp [terms, pieces]

theorem mem_terms {runs : Runs} {term : Part} (h : term ∈ runs.terms) :
    term = .literal runs.last ∨ ∃ splice ∈ runs.splices, term = .literal splice.1 ∨
      term = splice.2 := by
  have hliterals : ∀ text, term ∈ literals text → term = .literal text := by
    intro text hterm
    unfold literals at hterm
    split at hterm
    · simp at hterm
    · exact List.mem_singleton.1 hterm
  obtain ⟨splices, last⟩ := runs
  cases splices with
  | nil => exact .inl (List.mem_singleton.1 h)
  | cons splice splices =>
    obtain hterm | hterm := List.mem_append.1 h
    · obtain ⟨other, hother, hterm⟩ := List.mem_flatMap.1 hterm
      obtain hterm | hterm := List.mem_append.1 hterm
      · exact .inr ⟨other, hother, .inl (hliterals _ hterm)⟩
      · exact .inr ⟨other, hother, .inr (List.mem_singleton.1 hterm)⟩
    · exact .inl (hliterals _ hterm)

/-- What is joined are parts and literals made of parts. -/
theorem forall_mem_terms_ofParts {holds : Part → Prop} (hnil : holds (.literal []))
    (happend : ∀ first second, holds (.literal first) → holds (.literal second) →
      holds (.literal (first ++ second)))
    {parts : List Part} (h : ∀ part ∈ parts, holds part) :
    ∀ term ∈ (ofParts [] parts).terms, holds term := by
  suffices hruns : ∀ text, holds (.literal text) → holds (.literal (ofParts text parts).last) ∧
      ∀ splice ∈ (ofParts text parts).splices, holds (.literal splice.1) ∧ holds splice.2 by
    obtain ⟨hlast, hsplices⟩ := hruns [] hnil
    intro term hterm
    obtain rfl | ⟨splice, hsplice, rfl | rfl⟩ := mem_terms hterm
    · exact hlast
    · exact (hsplices splice hsplice).1
    · exact (hsplices splice hsplice).2
  intro text htext
  induction parts generalizing text with
  | nil => exact ⟨htext, by simp [ofParts]⟩
  | cons part parts ih =>
    obtain ⟨hpart, hparts⟩ := List.forall_mem_cons.1 h
    cases part with
    | literal more => exact ih hparts _ (happend text more htext hpart)
    | reference name | expression found =>
      obtain ⟨hlast, hsplices⟩ := ih hparts [] hnil
      exact ⟨hlast, List.forall_mem_cons.2 ⟨⟨htext, hpart⟩, hsplices⟩⟩

def AreWhole (splices : List (Text × Part)) : Prop :=
  ∀ splice ∈ splices, splice.1.getLast? ≠ some '\''

def dotted (terms : List Part) : Text := terms.flatMap fun term => (" . " : Text) ++ term.term

theorem joined_cons (term : Part) (terms : List Part) :
    joined (term :: terms) = term.term ++ dotted terms := by
  rw [joined, List.map_cons, Text.intercalate_cons, List.flatMap_map]
  rfl

theorem opened_of_whole {text : Text} (h : text.getLast? ≠ some '\'') (hne : text ≠ []) :
    opened text = quote text ++ " . " := by
  rw [opened, if_neg hne, if_neg h]

theorem term_append_dotted {splice : Text × Part} (h : splice.1.getLast? ≠ some '\'')
    (terms : List Part) :
    joined (literals splice.1 ++ splice.2 :: terms) = openedSplice splice ++ dotted terms := by
  by_cases hnil : splice.1 = []
  · rw [literals, if_pos hnil, List.nil_append, joined_cons, openedSplice, hnil]
    rfl
  · rw [literals, if_neg hnil, List.singleton_append, joined_cons, openedSplice,
      opened_of_whole h hnil]
    simp only [dotted, List.flatMap_cons, List.append_assoc]
    rfl

theorem dotted_eq {terms : List Part} (h : terms ≠ []) : dotted terms = " . " ++ joined terms := by
  obtain ⟨term, terms, rfl⟩ := List.exists_cons_of_ne_nil h
  rw [joined_cons, dotted, List.flatMap_cons, List.append_assoc]
  rfl

theorem pieces_cons_append (splice : Text × Part) (splices : List (Text × Part))
    (terms : List Part) : pieces (splice :: splices) ++ terms =
      literals splice.1 ++ splice.2 :: (pieces splices ++ terms) := by
  simp [pieces]

/-- Where no literal loses its end, the splices are joined as terms. -/
theorem further_eq {splices : List (Text × Part)} (h : AreWhole splices) (last : Text) :
    further splices last = dotted (pieces splices ++ literals last) := by
  induction splices with
  | nil =>
    by_cases hlast : last = []
    · simp [further, pieces, literals, hlast, dotted]
    · simp [further, pieces, literals, hlast, dotted, Part.term]
  | cons splice splices ih =>
    obtain ⟨hsplice, hsplices⟩ := List.forall_mem_cons.1 h
    rw [pieces_cons_append, dotted_eq (by simp), term_append_dotted hsplice, ← ih hsplices]
    simp only [further, List.flatMap_cons, List.append_assoc]

/-- What is left of whole runs is a string expression. -/
theorem written_eq {runs : Runs} (h : AreWhole runs.splices) :
    runs.written = joined runs.terms := by
  obtain ⟨splices, last⟩ := runs
  cases splices with
  | nil => exact (List.append_nil _).symm
  | cons splice splices =>
    obtain ⟨hsplice, hsplices⟩ := List.forall_mem_cons.1 h
    rw [written, terms, pieces_cons_append, term_append_dotted hsplice, further_eq hsplices]

variable (assignment : Assignment)

theorem valueOf_literals (text : Text) : valueOf assignment (literals text) = text := by
  by_cases hnil : text = []
  · simp [literals, hnil, valueOf]
  · simp [literals, hnil, valueOf, Part.value]

theorem valueOf_append (first second : List Part) :
    valueOf assignment (first ++ second) = valueOf assignment first ++ valueOf assignment second :=
  List.flatMap_append

theorem valueOf_terms (runs : Runs) :
    valueOf assignment runs.terms = valueOf assignment (pieces runs.splices) ++ runs.last := by
  obtain ⟨splices, last⟩ := runs
  cases splices with
  | nil => simp [terms, valueOf, Part.value, pieces]
  | cons splice splices => rw [terms, valueOf_append, valueOf_literals]

/-- Joining literals changes no value. -/
theorem valueOf_terms_ofParts (text : Text) (parts : List Part) :
    valueOf assignment (ofParts text parts).terms = text ++ valueOf assignment parts := by
  rw [valueOf_terms]
  induction parts generalizing text with
  | nil => simp [ofParts, pieces, valueOf]
  | cons part parts ih =>
    have hcons : valueOf assignment (part :: parts) =
        part.value assignment ++ valueOf assignment parts := List.flatMap_cons
    have hpieces : ∀ part : Part,
        valueOf assignment (pieces ((text, part) :: (ofParts [] parts).splices)) =
          text ++
            (part.value assignment ++ valueOf assignment (pieces (ofParts [] parts).splices)) := by
      intro part
      rw [pieces, List.flatMap_cons, ← pieces, valueOf_append, valueOf_append, valueOf_literals,
        List.append_assoc]
      simp [valueOf]
    rw [hcons]
    cases part with
    | literal more =>
      rw [ofParts, ih, List.append_assoc]
      rfl
    | reference name | expression found =>
      rw [ofParts, cons, hpieces, List.append_assoc, List.append_assoc, ih]
      rfl

end Runs

end LazyEmbed.Template
