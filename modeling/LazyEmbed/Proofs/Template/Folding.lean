import LazyEmbed.Proofs.Template.Choice
import LazyEmbed.Template.Conditional

/-!
# Folding conditionals

A round folds the conditionals whose branches hold no markup, and these are the ones whose branches
were folded completely by the rounds before: after `k` rounds just the conditionals of height at
most `k` are choices. So the rounds end, no markup is left, and what the text evaluates to is read
off the tree of its conditionals, since at every height a choice is a part that quoting and dropping
leave alone.
-/

namespace LazyEmbed.Template

open MixedContent

/-- Mixed content with conditionals, as a list of nodes whose branches are such lists. -/
inductive Content where
  | nil
  | literal (text : Text) (rest : Content)
  | reference (name : Text) (rest : Content)
  | expression (found : Expression) (rest : Content)
  | conditional (condition : Expression) (holds rest : Content)
  | choice (condition : Expression) (holds otherwise rest : Content)

namespace Content

def opening (condition : Expression) : Text := "<xf:if is=\"" ++ (condition.render ++ "\">")

theorem opening_append (condition : Expression) (rest : Text) : opening condition ++ rest =
    "<xf:if is=\"" ++ (condition.render ++ ("\">" ++ rest)) := by
  have hopening : opening condition = "<xf:if is=\"" ++ (condition.render ++ "\">") := rfl
  rw [hopening, List.append_assoc, List.append_assoc]

def source : Content → Text
  | nil => []
  | literal text rest => text ++ rest.source
  | reference name rest => (Part.reference name).source ++ rest.source
  | expression found rest => (Part.expression found.render).source ++ rest.source
  | conditional condition holds rest =>
    opening condition ++ (holds.source ++ "</xf:if>") ++ rest.source
  | choice condition holds otherwise rest =>
    opening condition ++ (holds.source ++ ("<xf:else/>" ++ (otherwise.source ++ "</xf:if>"))) ++
      rest.source

def value (environment : Environment) : Content → Text
  | nil => []
  | literal text rest => text ++ rest.value environment
  | reference name rest => environment.references name ++ rest.value environment
  | expression found rest => environment.expressions found ++ rest.value environment
  | conditional condition holds rest =>
    (if environment.conditions condition then holds.value environment else []) ++
      rest.value environment
  | choice condition holds otherwise rest =>
    (if environment.conditions condition then holds.value environment
      else otherwise.value environment) ++ rest.value environment

/-- Texts hold nothing that means something else, and branches are not empty. -/
def WellFormed : Content → Prop
  | nil => True
  | literal text rest => ('\'' ∉ text ∧ IsFlat text) ∧ rest.WellFormed
  | reference name rest => IsName name ∧ rest.WellFormed
  | expression found rest => found.IsSimple ∧ rest.WellFormed
  | conditional condition holds rest =>
    condition.IsSimple ∧ (holds.source ≠ [] ∧ holds.WellFormed) ∧ rest.WellFormed
  | choice condition holds otherwise rest =>
    condition.IsSimple ∧ (holds.source ≠ [] ∧ holds.WellFormed) ∧
      (otherwise.source ≠ [] ∧ otherwise.WellFormed) ∧ rest.WellFormed

def height : Content → Nat
  | nil => 0
  | literal _ rest | reference _ rest | expression _ rest => rest.height
  | conditional _ holds rest => max (holds.height + 1) rest.height
  | choice _ holds otherwise rest => max (max holds.height otherwise.height + 1) rest.height

def folded (condition : Expression) (holds otherwise : List Part) : Part :=
  .expression (Template.choice condition (Runs.ofParts [] holds).terms
    (Runs.ofParts [] otherwise).terms)

def parts : Content → List Part
  | nil => []
  | literal text rest => .literal text :: rest.parts
  | reference name rest => .reference name :: rest.parts
  | expression found rest => .expression found.render :: rest.parts
  | conditional condition holds rest => folded condition holds.parts [] :: rest.parts
  | choice condition holds otherwise rest =>
    folded condition holds.parts otherwise.parts :: rest.parts

def stage (round : Nat) : Content → Text
  | nil => []
  | literal text rest => text ++ rest.stage round
  | reference name rest => (Part.reference name).source ++ rest.stage round
  | expression found rest => (Part.expression found.render).source ++ rest.stage round
  | conditional condition holds rest =>
    (if holds.height < round then (folded condition holds.parts []).source
      else opening condition ++ (holds.stage round ++ "</xf:if>")) ++ rest.stage round
  | choice condition holds otherwise rest =>
    (if max holds.height otherwise.height < round then
        (folded condition holds.parts otherwise.parts).source
      else opening condition ++
        (holds.stage round ++ ("<xf:else/>" ++ (otherwise.stage round ++ "</xf:if>")))) ++
      rest.stage round

theorem stage_zero (content : Content) : content.stage 0 = content.source := by
  induction content with
  | nil => rfl
  | literal text rest ih | reference name rest ih | expression found rest ih =>
    rw [stage, ih, source]
  | conditional condition holds rest ihholds ih =>
    rw [stage, if_neg (Nat.not_lt_zero _), ihholds, ih, source]
  | choice condition holds otherwise rest ihholds ihotherwise ih =>
    rw [stage, if_neg (Nat.not_lt_zero _), ihholds, ihotherwise, ih, source]

/-- All conditionals are folded after as many rounds as the content is high. -/
theorem stage_of_height_le {content : Content} {round : Nat} (h : content.height ≤ round) :
    content.stage round = content.parts.flatMap Part.source := by
  induction content with
  | nil => rfl
  | literal text rest ih =>
    rw [stage, ih h, parts, List.flatMap_cons]
    rfl
  | reference name rest ih | expression found rest ih =>
    rw [stage, ih h, parts, List.flatMap_cons]
  | conditional condition holds rest ihholds ih =>
    rw [height, Nat.max_le] at h
    rw [stage, if_pos (Nat.lt_of_succ_le h.1), ih h.2, parts, List.flatMap_cons]
  | choice condition holds otherwise rest ihholds ihotherwise ih =>
    rw [height, Nat.max_le] at h
    rw [stage, if_pos (Nat.lt_of_succ_le h.1), ih h.2, parts, List.flatMap_cons]

/-- Content is nested no deeper than it is long, so the rounds suffice. -/
theorem height_le_length_source (content : Content) : content.height ≤ content.source.length := by
  have hopening : ∀ condition, 0 < (opening condition).length := fun condition => Nat.succ_pos _
  induction content with
  | nil => exact Nat.le_refl 0
  | literal text rest ih | reference name rest ih | expression found rest ih =>
    simp only [height, source, List.length_append]
    omega
  | conditional condition holds rest ihholds ih =>
    have := hopening condition
    simp only [height, source, List.length_append]
    omega
  | choice condition holds otherwise rest ihholds ihotherwise ih =>
    have := hopening condition
    simp only [height, source, List.length_append]
    omega

theorem stage_ne_nil {content : Content} (h : content.source ≠ []) (round : Nat) :
    content.stage round ≠ [] := by
  induction content with
  | nil => exact absurd rfl h
  | literal text rest ih =>
    intro hnil
    obtain ⟨htext, hrest⟩ := List.append_eq_nil_iff.1 hnil
    exact ih (fun hsource => h (by rw [source, htext, hsource]; rfl)) hrest
  | reference name rest ih | expression found rest ih => exact List.cons_ne_nil _ _
  | conditional condition holds rest ihholds ih
  | choice condition holds otherwise rest ihholds ihotherwise ih =>
    rw [stage]
    split
    · exact List.cons_ne_nil _ _
    · exact List.cons_ne_nil _ _

/-! ### The parts that are left -/

section

variable {content : Content} (h : content.WellFormed)
include h

theorem isFolded_parts : ∀ part ∈ content.parts, part.IsFolded := by
  induction content with
  | nil => simp [parts]
  | literal text rest ih => exact List.forall_mem_cons.2 ⟨h.1, ih h.2⟩
  | reference name rest ih => exact List.forall_mem_cons.2 ⟨h.1, ih h.2⟩
  | expression found rest ih =>
    exact List.forall_mem_cons.2 ⟨Expression.isFolded_render h.1, ih h.2⟩
  | conditional condition holds rest ihholds ih =>
    obtain ⟨hcondition, ⟨-, hholds⟩, hrest⟩ := h
    refine List.forall_mem_cons.2 ⟨isFolded_choice hcondition ?_ ?_, ih hrest⟩
    · exact Runs.areTerms_ofParts (ihholds hholds)
    · exact Runs.areTerms_ofParts (by simp)
  | choice condition holds otherwise rest ihholds ihotherwise ih =>
    obtain ⟨hcondition, ⟨-, hholds⟩, ⟨-, hotherwise⟩, hrest⟩ := h
    refine List.forall_mem_cons.2 ⟨isFolded_choice hcondition ?_ ?_, ih hrest⟩
    · exact Runs.areTerms_ofParts (ihholds hholds)
    · exact Runs.areTerms_ofParts (ihotherwise hotherwise)

theorem not_mem_stage_of_height_le {round : Nat} (hheight : content.height ≤ round) :
    '<' ∉ content.stage round := by
  rw [stage_of_height_le hheight]
  intro hmem
  obtain ⟨part, hpart, hmem⟩ := List.mem_flatMap.1 hmem
  exact (isFolded_parts h part hpart).not_mem_source hmem

end

def ink : List Char := ['\'', '\\', ' ', '.', '$', '(', ')', '?', ':', '\x7b', '\x7d']

section

variable {c : Char} (hc : c ∉ ink)
include hc

theorem not_mem_of_subset {text : Text} (h : ∀ d ∈ text, d ∈ ink) : c ∉ text :=
  fun hmem => hc (h c hmem)

theorem not_mem_term {part : Part} (h : c ∉ part.source) : c ∉ part.term := by
  cases part with
  | literal text =>
    have hquote : c ∉ ['\''] := not_mem_of_subset hc (by decide)
    have hescape : c ∉ escape text :=
      fun hmem => (mem_escape hmem).elim h fun heq => hc (heq ▸ by decide)
    exact fun hmem => (List.mem_append.1 hmem).elim
      (fun hmem => (List.mem_append.1 hmem).elim hquote hescape) hquote
  | reference name =>
    have hname : c ∉ name := fun hmem => h (by simp [hmem])
    exact fun hmem => (List.mem_append.1 hmem).elim (not_mem_of_subset hc (by decide)) hname
  | expression text =>
    have htext : c ∉ text := fun hmem => h (by simp [hmem])
    exact fun hmem => (List.mem_append.1 hmem).elim
      (fun hmem => (List.mem_append.1 hmem).elim (not_mem_of_subset hc (by decide)) htext)
      (not_mem_of_subset hc (by decide))

theorem not_mem_joined {terms : List Part} (h : ∀ term ∈ terms, c ∉ term.source) :
    c ∉ joined terms := by
  have hdot : c ∉ (" . " : Text) := not_mem_of_subset hc (by decide)
  cases terms with
  | nil => exact List.not_mem_nil
  | cons first terms =>
    obtain ⟨hfirst, hterms⟩ := List.forall_mem_cons.1 h
    rw [Runs.joined_cons, List.mem_append, not_or]
    refine ⟨not_mem_term hc hfirst, fun hmem => ?_⟩
    obtain ⟨term, hterm, hmem⟩ := List.mem_flatMap.1 hmem
    exact (List.mem_append.1 hmem).elim hdot (not_mem_term hc (hterms term hterm))

theorem not_mem_folded {condition : Expression} {holds otherwise : List Part}
    (hcondition : c ∉ condition.render) (hholds : ∀ part ∈ holds, c ∉ part.source)
    (hotherwise : ∀ part ∈ otherwise, c ∉ part.source) :
    c ∉ (folded condition holds otherwise).source := by
  have hjoined : ∀ {parts : List Part}, (∀ part ∈ parts, c ∉ part.source) →
      c ∉ joined (Runs.ofParts [] parts).terms := fun hparts =>
    not_mem_joined hc (Runs.forall_mem_terms_ofParts List.not_mem_nil
      (fun _ _ hfirst hsecond hmem => (List.mem_append.1 hmem).elim hfirst hsecond) hparts)
  have hfixed : ∀ text ∈ (["\x7b\x7b ", " \x7d\x7d", " ? ", " : "] : List Text), c ∉ text := by
    have hink : ∀ text ∈ (["\x7b\x7b ", " \x7d\x7d", " ? ", " : "] : List Text), ∀ d ∈ text,
        d ∈ ink := by decide
    exact fun text htext => not_mem_of_subset hc (hink text htext)
  simp only [folded, Part.source_expression, Template.choice, List.mem_append, not_or]
  exact ⟨⟨hfixed _ (by decide), hcondition, hfixed _ (by decide), hjoined hholds,
    hfixed _ (by decide), hjoined hotherwise⟩, hfixed _ (by decide)⟩

/-- Folding makes up no characters but those. -/
theorem not_mem_parts {content : Content} (h : c ∉ content.source) :
    ∀ part ∈ content.parts, c ∉ part.source := by
  have hopening : ∀ {condition : Expression}, c ∉ opening condition → c ∉ condition.render :=
    fun hopening hmem =>
    hopening (List.mem_append_right _ (List.mem_append_left _ hmem))
  induction content with
  | nil => exact List.forall_mem_nil _
  | literal text rest ih | reference name rest ih | expression found rest ih =>
    rw [source, List.mem_append, not_or] at h
    exact List.forall_mem_cons.2 ⟨h.1, ih h.2⟩
  | conditional condition holds rest ihholds ih =>
    simp only [source, List.mem_append, not_or] at h
    obtain ⟨⟨hcondition, hholds, -⟩, hrest⟩ := h
    exact List.forall_mem_cons.2
      ⟨not_mem_folded hc (hopening hcondition) (ihholds hholds) (List.forall_mem_nil _), ih hrest⟩
  | choice condition holds otherwise rest ihholds ihotherwise ih =>
    simp only [source, List.mem_append, not_or] at h
    obtain ⟨⟨hcondition, hholds, -, hotherwise, -⟩, hrest⟩ := h
    exact List.forall_mem_cons.2
      ⟨not_mem_folded hc (hopening hcondition) (ihholds hholds) (ihotherwise hotherwise), ih hrest⟩

end

end Content

/-! ### One round -/

namespace Conditional

open Content

/-- A round writes `after` for `before`, whatever follows. -/
def Folds (before after : Text) : Prop :=
  ∀ rest, pattern.replaceM ternary (before ++ rest) =
    (pattern.replaceM ternary rest).map (after ++ ·)

theorem Folds.append {before after more moreAfter : Text} (h : Folds before after)
    (hmore : Folds more moreAfter) : Folds (before ++ more) (after ++ moreAfter) := by
  intro rest
  rw [List.append_assoc, h, hmore]
  cases pattern.replaceM ternary rest <;> simp [Except.map]

theorem pattern_beginsWith : pattern.BeginsWith "<xf:if is=\"" := Pattern.after_beginsWith _ _ _

theorem folds_self {text : Text} (h : ∀ rest, Text.Misses "<xf:if is=\"" text rest) :
    Folds text text :=
  fun rest => Pattern.replaceM_append _ (pattern_beginsWith.passes (h rest))

theorem folds_of_not_mem {text : Text} (h : '<' ∉ text) : Folds text text :=
  folds_self fun _ => Text.misses_of_not_mem h

def Opens (text : Text) : Prop := ∃ before more, text = before ++ ("<xf:if" ++ more) ∧ '<' ∉ before

theorem Opens.append {text : Text} (h : Opens text) (rest : Text) : Opens (text ++ rest) := by
  obtain ⟨before, more, rfl, hbefore⟩ := h
  exact ⟨before, more ++ rest, by simp only [List.append_assoc], hbefore⟩

theorem Opens.prepend {text front : Text} (h : Opens text) (hfront : '<' ∉ front) :
    Opens (front ++ text) := by
  obtain ⟨before, more, rfl, hbefore⟩ := h
  refine ⟨front ++ before, more, (List.append_assoc _ _ _).symm, fun hmem => ?_⟩
  exact (List.mem_append.1 hmem).elim hfront hbefore

def branches (condition : Text) : Reader Conditional := do
  let holds ← .many1 (· ≠ '<')
  let otherwise? ← Reader.optional do
    .literal "<xf:else/>"
    .many1 (· ≠ '<')
  .literal "</xf:if>"
  pure ⟨condition, holds, otherwise?⟩

section

variable {condition : Expression} (hcondition : condition.IsSimple)
include hcondition

theorem run_opening (rest : Text) :
    pattern.reader.run (opening condition ++ rest) = (branches condition.render).run rest := by
  have hquote : ∀ c ∈ condition.render, decide (c ≠ '"') = true := fun c hc => by
    simpa using ne_of_mem_of_not_mem hc (Expression.quote_not_mem_render hcondition)
  have hne : condition.render ≠ [] := by
    obtain ⟨c, behind, hrender, -⟩ := Expression.first_render condition
    rw [hrender]
    exact List.cons_ne_nil _ _
  have hread : (Reader.many1 (· ≠ '"')).run (condition.render ++ ("\">" ++ rest)) =
      some (condition.render, "\">" ++ rest) := by
    refine Reader.run_many1_append hne hquote fun c hc => ?_
    obtain rfl : '"' = c := Option.some.inj hc
    decide
  rw [opening_append, pattern, Pattern.run_after_append]
  simp only [Reader.run_bind, hread, Option.bind_some, Reader.run_literal_append, branches]

end

theorem run_branch {text rest : Text} (hne : text ≠ []) (htext : '<' ∉ text)
    (hrest : rest.head? = some '<') :
    (Reader.many1 (· ≠ '<')).run (text ++ rest) = some (text, rest) := by
  refine Reader.run_many1_append hne (Text.forall_ne_iff.2 htext) fun c hc => ?_
  obtain rfl : '<' = c := Option.some.inj (hrest.symm.trans hc)
  decide

def otherBranch : Reader (Option Text) := Reader.optional do
  .literal "<xf:else/>"
  .many1 (· ≠ '<')

theorem run_branches (condition text : Text) : (branches condition).run text =
    ((Reader.many1 (· ≠ '<')).run text).bind fun (holds, rest) =>
      (otherBranch.run rest).bind fun (otherwise?, rest) =>
        ((Reader.literal "</xf:if>").run rest).bind fun (_, rest) =>
          some (⟨condition, holds, otherwise?⟩, rest) := rfl

def elseText : Option Text → Text
  | none => []
  | some otherwise => "<xf:else/>" ++ otherwise

theorem elseText_some_append (otherwise behind : Text) :
    elseText (some otherwise) ++ behind = "<xf:else/>" ++ (otherwise ++ behind) :=
  List.append_assoc _ _ _

theorem run_otherBranch_append {otherwise? : Option Text}
    (h : ∀ otherwise ∈ otherwise?, otherwise ≠ [] ∧ '<' ∉ otherwise) (rest : Text) :
    otherBranch.run (elseText otherwise? ++ ("</xf:if>" ++ rest)) =
      some (otherwise?, "</xf:if>" ++ rest) := by
  cases otherwise? with
  | none => exact Reader.run_optional_of_run_eq_none rfl
  | some otherwise =>
    obtain ⟨hne, hotherwise⟩ := h otherwise rfl
    have hread : (Reader.many1 (· ≠ '<')).run (otherwise ++ ("</xf:if>" ++ rest)) =
        some (otherwise, "</xf:if>" ++ rest) := run_branch hne hotherwise rfl
    refine Reader.run_optional_of_run_eq_some ?_
    simp only [elseText_some_append, Reader.run_bind, Reader.run_literal_append,
      Option.bind_some, hread]

theorem run_branches_append {holds : Text} (hne : holds ≠ []) (hholds : '<' ∉ holds)
    {otherwise? : Option Text} (h : ∀ otherwise ∈ otherwise?, otherwise ≠ [] ∧ '<' ∉ otherwise)
    (condition rest : Text) :
    (branches condition).run (holds ++ (elseText otherwise? ++ ("</xf:if>" ++ rest))) =
      some (⟨condition, holds, otherwise?⟩, rest) := by
  have hhead : (elseText otherwise? ++ ("</xf:if>" ++ rest)).head? = some '<' := by
    cases otherwise? with
    | none | some otherwise => rfl
  simp only [run_branches, run_branch hne hholds hhead, run_otherBranch_append h,
    Option.bind_some, Reader.run_literal_append]

/-- Reading a branch that is not folded ends where a conditional in it opens. -/
theorem Opens.run_branch {text : Text} (h : Opens text) :
    (Reader.many1 (· ≠ '<')).run text = none ∨
      ∃ before more, (Reader.many1 (· ≠ '<')).run text =
        some (before, ("<xf:if" : Text) ++ more) := by
  obtain ⟨before, more, rfl, hbefore⟩ := h
  by_cases hnil : before = []
  · subst hnil
    exact .inl rfl
  · exact .inr ⟨before, more, Conditional.run_branch hnil hbefore rfl⟩

theorem run_branches_eq_none {text : Text} (h : Opens text) (condition : Text) :
    (branches condition).run text = none := by
  obtain hread | ⟨before, more, hread⟩ := Opens.run_branch h
  · simp only [run_branches, hread, Option.bind_none]
  · have hother : otherBranch.run ("<xf:if" ++ more) = some (none, "<xf:if" ++ more) :=
      Reader.run_optional_of_run_eq_none rfl
    have hclose : (Reader.literal "</xf:if>").run ("<xf:if" ++ more) = none := rfl
    simp only [run_branches, hread, hother, hclose, Option.bind_some, Option.bind_none]

theorem run_branches_otherwise_eq_none {holds text : Text} (hne : holds ≠ []) (hholds : '<' ∉ holds)
    (h : Opens text) (condition : Text) :
    (branches condition).run (holds ++ ("<xf:else/>" ++ text)) = none := by
  have hfirst : ∀ rest : Text, (Reader.many1 (· ≠ '<')).run (holds ++ ("<xf:else/>" ++ rest)) =
      some (holds, "<xf:else/>" ++ rest) := fun rest => run_branch hne hholds rfl
  obtain hread | ⟨before, more, hread⟩ := Opens.run_branch h
  · have hother : otherBranch.run ("<xf:else/>" ++ text) = some (none, "<xf:else/>" ++ text) := by
      refine Reader.run_optional_of_run_eq_none ?_
      simp only [Reader.run_bind, Reader.run_literal_append, Option.bind_some, hread]
    have hclose : (Reader.literal "</xf:if>").run ("<xf:else/>" ++ text) = none := rfl
    simp only [run_branches, hfirst, hother, hclose, Option.bind_some, Option.bind_none]
  · have hother :
        otherBranch.run ("<xf:else/>" ++ text) = some (some before, "<xf:if" ++ more) := by
      refine Reader.run_optional_of_run_eq_some ?_
      simp only [Reader.run_bind, Reader.run_literal_append, Option.bind_some, hread]
    have hclose : (Reader.literal "</xf:if>").run ("<xf:if" ++ more) = none := rfl
    simp only [run_branches, hfirst, hother, hclose, Option.bind_some, Option.bind_none]

/-! ### The round over a whole content -/

section

variable {condition : Expression} (hcondition : condition.IsSimple)
include hcondition

theorem passes_opening {rest : Text} (h : (branches condition.render).run rest = none) :
    pattern.Passes (opening condition) rest := by
  have hopening : opening condition = '<' :: ("xf:if is=\"" ++ (condition.render ++ "\">")) := rfl
  have hrender := Expression.isFlat_render hcondition '<' (by decide)
  have hinside : '<' ∉ ("xf:if is=\"" ++ (condition.render ++ "\">") : Text) := by
    simp only [List.mem_append, not_or]
    exact ⟨by decide, hrender, by decide⟩
  rw [hopening]
  refine Pattern.passes_cons ?_ (pattern_beginsWith.passes (Text.misses_of_not_mem hinside))
  rw [← List.cons_append, ← hopening, run_opening hcondition, h]

/-- A conditional stays as long as it cannot be read, while its branches are folded further. -/
theorem folds_opening {before after : Text} (h : Folds before after)
    (hnone : ∀ rest, (branches condition.render).run (before ++ rest) = none) :
    Folds (opening condition ++ before) (opening condition ++ after) := by
  intro rest
  rw [List.append_assoc, Pattern.replaceM_append _ (passes_opening hcondition (hnone rest)), h]
  cases pattern.replaceM ternary rest <;> simp [Except.map]

/-- A conditional that can be read becomes a choice. -/
theorem folds_of_run {before : Text} {found : Conditional} {after : Text}
    (hrun : ∀ rest, (branches condition.render).run (before ++ rest) = some (found, rest))
    (hternary : ternary found = .ok after) : Folds (opening condition ++ before) after := by
  intro rest
  have hread : pattern.reader.run (opening condition ++ before ++ rest) = some (found, rest) := by
    rw [List.append_assoc, run_opening hcondition, hrun]
  rw [Pattern.replaceM_of_run_eq_some _ hread, hternary]
  cases pattern.replaceM ternary rest <;> rfl

end

theorem source_folded (condition : Expression) (holds otherwise : List Part) :
    (folded condition holds otherwise).source = "\x7b\x7b " ++ condition.render ++ " ? " ++
      joined (Runs.ofParts [] holds).terms ++ " : " ++ joined (Runs.ofParts [] otherwise).terms ++
      " \x7d\x7d" := by
  have hsource : (folded condition holds otherwise).source =
      "\x7b\x7b " ++ (condition.render ++ (" ? " ++ (joined (Runs.ofParts [] holds).terms ++
        (" : " ++ joined (Runs.ofParts [] otherwise).terms)))) ++ " \x7d\x7d" := rfl
  rw [hsource]
  simp only [List.append_assoc]

theorem ternary_one {condition : Expression} {holds : List Part}
    (h : ∀ part ∈ holds, part.IsFolded) :
    ternary ⟨condition.render, holds.flatMap Part.source, none⟩ =
      .ok (folded condition holds []).source := by
  rw [source_folded, ternary, stringOfMixed_folded h]
  rfl

theorem ternary_two {condition : Expression} {holds otherwise : List Part}
    (h : ∀ part ∈ holds, part.IsFolded) (hother : ∀ part ∈ otherwise, part.IsFolded) :
    ternary ⟨condition.render, holds.flatMap Part.source, some (otherwise.flatMap Part.source)⟩ =
      .ok (folded condition holds otherwise).source := by
  rw [source_folded, ternary, stringOfMixed_folded h]
  simp only [stringOfMixed_folded hother]
  rfl

/-- A content that is not folded completely after some rounds opens a conditional. -/
theorem opens_stage {content : Content} (h : content.WellFormed) {round : Nat}
    (hround : round < content.height) : Opens (content.stage round) := by
  have hopening : ∀ (condition : Expression) (text : Text), Opens (opening condition ++ text) :=
    fun condition text => ⟨[], " is=\"" ++ (condition.render ++ "\">" ++ text), by
      rw [opening_append, List.append_assoc]
      rfl, List.not_mem_nil⟩
  have hpart : ∀ {part : Part}, part.IsFolded → ∀ {text : Text}, Opens text →
      Opens (part.source ++ text) := fun hpart _ htext => htext.prepend hpart.not_mem_source
  induction content with
  | nil => exact absurd hround (Nat.not_lt_zero _)
  | literal text rest ih | reference name rest ih | expression found rest ih =>
    exact hpart (isFolded_parts h _ List.mem_cons_self) (ih h.2 hround)
  | conditional condition holds rest ihholds ih =>
    rw [stage]
    rw [height] at hround
    split
    · exact hpart (isFolded_parts h _ List.mem_cons_self) (ih h.2.2 (by omega))
    · exact (hopening _ _).append _
  | choice condition holds otherwise rest ihholds ihotherwise ih =>
    rw [stage]
    rw [height] at hround
    split
    · exact hpart (isFolded_parts h _ List.mem_cons_self) (ih h.2.2.2 (by omega))
    · exact (hopening _ _).append _

section

variable {condition : Expression} {holds otherwise : Content} {round : Nat}

/-- In the round after its branch is folded, a conditional is. -/
theorem folds_one (hcondition : condition.IsSimple) (hne : holds.source ≠ []) (h : holds.WellFormed)
    (hround : holds.height ≤ round) :
    Folds (opening condition ++ (holds.stage round ++ "</xf:if>"))
      (folded condition holds.parts []).source := by
  have hstage := stage_of_height_le hround
  refine folds_of_run hcondition (fun rest => ?_) (ternary_one (isFolded_parts h))
  rw [List.append_assoc, ← hstage]
  have hnone : ∀ text ∈ (none : Option Text), text ≠ [] ∧ '<' ∉ text := by simp
  exact run_branches_append (stage_ne_nil hne round) (not_mem_stage_of_height_le h hround) hnone
    _ rest

/-- A choice both branches of which are folded already folds to a ternary. -/
theorem folds_two (hcondition : condition.IsSimple) (hne : holds.source ≠ []) (h : holds.WellFormed)
    (hround : holds.height ≤ round) (hotherNe : otherwise.source ≠ [])
    (hother : otherwise.WellFormed) (hotherRound : otherwise.height ≤ round) :
    Folds (opening condition ++
        (holds.stage round ++ ("<xf:else/>" ++ (otherwise.stage round ++ "</xf:if>"))))
      (folded condition holds.parts otherwise.parts).source := by
  have hstage := stage_of_height_le hround
  have hotherStage := stage_of_height_le hotherRound
  refine folds_of_run hcondition (fun rest => ?_)
    (ternary_two (isFolded_parts h) (isFolded_parts hother))
  rw [List.append_assoc, List.append_assoc, List.append_assoc, ← hstage, ← hotherStage,
    ← elseText_some_append]
  refine run_branches_append (stage_ne_nil hne round) (not_mem_stage_of_height_le h hround)
    (fun text htext => ?_) _ rest
  obtain rfl := Option.some.inj htext
  exact ⟨stage_ne_nil hotherNe round, not_mem_stage_of_height_le hother hotherRound⟩

end

/-- One round takes the content from one stage to the next. -/
theorem folds_stage {content : Content} (h : content.WellFormed) (round : Nat) :
    Folds (content.stage round) (content.stage (round + 1)) := by
  have hclose : Folds "</xf:if>" "</xf:if>" :=
    folds_self fun rest => Text.misses_of_apart (by decide) rest
  have helse : Folds "<xf:else/>" "<xf:else/>" :=
    folds_self fun rest => Text.misses_of_apart (by decide) rest
  have hpart : ∀ {part : Part}, part.IsFolded → Folds part.source part.source :=
    fun hpart => folds_of_not_mem hpart.not_mem_source
  induction content with
  | nil => exact folds_of_not_mem List.not_mem_nil
  | literal text rest ih | reference name rest ih | expression found rest ih =>
    exact (hpart (isFolded_parts h _ List.mem_cons_self)).append (ih h.2)
  | conditional condition holds rest ihholds ih =>
    obtain ⟨hcondition, ⟨hne, hholds⟩, hrest⟩ := id h
    rw [stage, stage]
    refine Folds.append ?_ (ih hrest)
    obtain hlt | heq | hgt := Nat.lt_trichotomy holds.height round
    · rw [if_pos hlt, if_pos (by omega)]
      exact hpart (isFolded_parts h _ List.mem_cons_self)
    · rw [if_neg (by omega), if_pos (by omega)]
      exact folds_one hcondition hne hholds (by omega)
    · rw [if_neg (by omega), if_neg (by omega)]
      refine folds_opening hcondition ((ihholds hholds).append hclose) fun rest => ?_
      exact run_branches_eq_none (((opens_stage hholds hgt).append _).append rest) _
  | choice condition holds otherwise rest ihholds ihotherwise ih =>
    obtain ⟨hcondition, ⟨hne, hholds⟩, ⟨hotherNe, hother⟩, hrest⟩ := id h
    rw [stage, stage]
    refine Folds.append ?_ (ih hrest)
    obtain hlt | heq | hgt := Nat.lt_trichotomy (max holds.height otherwise.height) round
    · rw [if_pos hlt, if_pos (by omega)]
      exact hpart (isFolded_parts h _ List.mem_cons_self)
    · rw [if_neg (by omega), if_pos (by omega)]
      exact folds_two hcondition hne hholds (by omega) hotherNe hother (by omega)
    · rw [if_neg (by omega), if_neg (by omega)]
      refine folds_opening hcondition ((ihholds hholds).append (helse.append
        ((ihotherwise hother).append hclose))) fun rest => ?_
      -- Either branch may be the one that is not folded yet.
      by_cases hround : holds.height ≤ round
      · have hopens := opens_stage hother (by omega : round < otherwise.height)
        rw [List.append_assoc, List.append_assoc]
        exact run_branches_otherwise_eq_none (stage_ne_nil hne round)
          (not_mem_stage_of_height_le hholds hround) ((hopens.append _).append rest) _
      · exact run_branches_eq_none (((opens_stage hholds (by omega)).append _).append rest) _

/-! ### All rounds -/

theorem foldOnce_stage {content : Content} (h : content.WellFormed) (round : Nat) :
    foldOnce (content.stage round) = .ok (content.stage (round + 1)) := by
  have hfolds := folds_stage h round []
  rw [List.append_nil, Pattern.replaceM_nil] at hfolds
  rw [foldOnce, hfolds]
  simp [Except.map]

/-- Rounds that go through stages end at one that stays as it is, if there are enough of them. -/
theorem foldWithin_of_stages {stage : Nat → Text}
    (hround : ∀ round, foldOnce (stage round) = .ok (stage (round + 1))) {last : Nat}
    (hlast : stage (last + 1) = stage last) {rounds first : Nat} (hfirst : first ≤ last)
    (hrounds : last - first < rounds) : foldWithin rounds (stage first) = .ok (stage last) := by
  induction rounds generalizing first with
  | zero => exact absurd hrounds (Nat.not_lt_zero _)
  | succ rounds ih =>
    have hstep : foldWithin (rounds + 1) (stage first) =
        if stage (first + 1) = stage first then .ok (stage (first + 1))
        else foldWithin rounds (stage (first + 1)) := by
      rw [foldWithin, hround]
      rfl
    rw [hstep]
    split
    · next hsame =>
      -- Nothing changes from here on, since a round depends on the text alone.
      have hall : ∀ more, stage (first + more) = stage first := by
        intro more
        induction more with
        | zero => rfl
        | succ more ihmore =>
          have hnext := hround (first + more)
          rw [ihmore, hround, hsame] at hnext
          exact (Except.ok.inj hnext).symm
      obtain ⟨more, rfl⟩ := Nat.exists_eq_add_of_le hfirst
      rw [hsame, hall]
    · next hdiffer =>
      have hne : first ≠ last := fun heq => hdiffer (heq ▸ hlast)
      exact ih (by omega) (by omega)

end Conditional

namespace Content

/-- All conditionals are folded in the end. -/
theorem foldConditionals_source {content : Content} (h : content.WellFormed) :
    foldConditionals content.source = .ok (content.parts.flatMap Part.source) := by
  have hheight := height_le_length_source content
  have hlast : content.stage (content.height + 1) = content.stage content.height := by
    rw [stage_of_height_le (Nat.le_succ _), stage_of_height_le (Nat.le_refl _)]
  rw [foldConditionals, ← stage_zero, ← stage_of_height_le (Nat.le_refl content.height)]
  refine Conditional.foldWithin_of_stages (Conditional.foldOnce_stage h) hlast (Nat.zero_le _) ?_
  rw [stage_zero]
  omega

/-! ### What the result means -/

section

variable {environment : Environment}

/-- A folded choice reads as the branch its condition selects. -/
theorem reads_folded {condition : Expression} (hcondition : condition.IsSimple)
    {holds otherwise : List Part}
    (hholds : ∀ part ∈ holds, Evaluation.IsRead environment part)
    (hotherwise : ∀ part ∈ otherwise, Evaluation.IsRead environment part) :
    Evaluation.Reads environment
      (Template.choice condition (Runs.ofParts [] holds).terms (Runs.ofParts [] otherwise).terms)
      (if environment.conditions condition then valueOf environment.assignment holds
        else valueOf environment.assignment otherwise) := by
  have hterms : ∀ {parts : List Part}, (∀ part ∈ parts, Evaluation.IsRead environment part) →
      ∀ term ∈ (Runs.ofParts [] parts).terms, Evaluation.IsRead environment term := fun hparts =>
    Runs.forall_mem_terms_ofParts trivial (fun _ _ _ _ => trivial) hparts
  have hreads := Evaluation.reads_choice hcondition ⟨Runs.terms_ne_nil _, hterms hholds⟩
    ⟨Runs.terms_ne_nil _, hterms hotherwise⟩
  rwa [Runs.valueOf_terms_ofParts, Runs.valueOf_terms_ofParts, List.nil_append, List.nil_append]
    at hreads

theorem isRead_of_reads {text value : Text} (h : Evaluation.Reads environment text value) :
    Evaluation.IsRead environment (.expression text) ∧
      (Part.expression text).value environment.assignment = value := by
  have hvalue := h.expressions_eq
  refine ⟨?_, hvalue⟩
  rw [Evaluation.IsRead, hvalue]
  exact h

/-- Every part is read, and together they mean what the content means. -/
theorem isRead_parts {content : Content} (h : content.WellFormed) :
    (∀ part ∈ content.parts, Evaluation.IsRead environment part) ∧
      valueOf environment.assignment content.parts = content.value environment := by
  have hcons : ∀ {first : Part} {others : List Part} {value rest : Text},
      Evaluation.IsRead environment first ∧ first.value environment.assignment = value →
      (∀ part ∈ others, Evaluation.IsRead environment part) ∧
        valueOf environment.assignment others = rest →
      (∀ part ∈ first :: others, Evaluation.IsRead environment part) ∧
        valueOf environment.assignment (first :: others) = value ++ rest := by
    rintro first others value rest ⟨hfirst, rfl⟩ ⟨hothers, rfl⟩
    exact ⟨List.forall_mem_cons.2 ⟨hfirst, hothers⟩, List.flatMap_cons⟩
  induction content with
  | nil => exact ⟨by simp [parts], rfl⟩
  | literal text rest ih => exact hcons ⟨trivial, rfl⟩ (ih h.2)
  | reference name rest ih => exact hcons ⟨h.1, rfl⟩ (ih h.2)
  | expression found rest ih =>
    exact hcons (isRead_of_reads (Evaluation.reads_render h.1)) (ih h.2)
  | conditional condition holds rest ihholds ih =>
    obtain ⟨hcondition, ⟨-, hholds⟩, hrest⟩ := h
    obtain ⟨hread, hvalue⟩ := ihholds hholds
    have hfolded := isRead_of_reads (reads_folded hcondition hread (List.forall_mem_nil _))
    rw [hvalue] at hfolded
    exact hcons hfolded (ih hrest)
  | choice condition holds otherwise rest ihholds ihotherwise ih =>
    obtain ⟨hcondition, ⟨-, hholds⟩, ⟨-, hotherwise⟩, hrest⟩ := h
    obtain ⟨hread, hvalue⟩ := ihholds hholds
    obtain ⟨hotherRead, hotherValue⟩ := ihotherwise hotherwise
    have hfolded := isRead_of_reads (reads_folded hcondition hread hotherRead)
    rw [hvalue, hotherValue] at hfolded
    exact hcons hfolded (ih hrest)

end

end Content

/-- Folding ends with a text that holds no markup and evaluates to what the content means. -/
theorem evaluate_foldConditionals (content : Content) (h : content.WellFormed) :
    ∃ text, foldConditionals content.source = .ok text ∧ '<' ∉ text ∧
      ∀ environment, evaluate environment text = content.value environment := by
  refine ⟨_, Content.foldConditionals_source h, fun hmem => ?_, fun environment => ?_⟩
  · obtain ⟨part, hpart, hmem⟩ := List.mem_flatMap.1 hmem
    exact (Content.isFolded_parts h part hpart).not_mem_source hmem
  · obtain ⟨hread, hvalue⟩ : (∀ part ∈ content.parts, Evaluation.IsRead environment part) ∧
        valueOf environment.assignment content.parts = content.value environment :=
      Content.isRead_parts h
    rw [← hvalue]
    exact evaluate_source fun part hpart =>
      ⟨(Content.isFolded_parts h part hpart).wellFormed, hread part hpart⟩

/-- The inner conditional has no other branch, and its literals have dots, a blank and a
backslash. -/
theorem evaluate_foldConditionals_nested :
    ∃ text,
      foldConditionals ("a<xf:if is=\"$b>1\">\\ . <xf:if is=\"$c=='. '\">\x7b$d\x7d</xf:if>" ++
        "<xf:else/>\x7b\x7b $e \x7d\x7d</xf:if>").toList = .ok text ∧ '<' ∉ text ∧
      ∀ environment, evaluate environment text =
        'a' :: if environment.conditions (.exceeds "b" "1") then
          "\\ . " ++
            if environment.conditions (.equals "c" ". ") then environment.references "d" else []
        else environment.expressions (.value "e") := by
  have hword : ∀ c ∈ ['b', 'c', 'd', 'e'], Text.isWord c = true := by decide
  have hname : ∀ c ∈ ['b', 'c', 'd', 'e'], IsName [c] := fun c hc =>
    ⟨List.cons_ne_nil _ _, by simpa using hword c hc⟩
  have hnumber : IsNumber ['1'] := ⟨List.cons_ne_nil _ _, by decide⟩
  obtain ⟨text, hfold, hmarkup, hvalue⟩ := evaluate_foldConditionals
    (.literal ['a']
      (.choice (.exceeds ['b'] ['1'])
        (.literal "\\ . " (.conditional (.equals ['c'] ['.', ' ']) (.reference ['d'] .nil) .nil))
        (.expression (.value ['e']) .nil) .nil))
    ⟨by decide, ⟨hname 'b' (by decide), hnumber⟩,
      ⟨by decide, by decide, ⟨hname 'c' (by decide), by decide⟩,
        ⟨by decide, hname 'd' (by decide), trivial⟩, trivial⟩,
      ⟨by decide, hname 'e' (by decide), trivial⟩, trivial⟩
  refine ⟨text, Eq.trans ?_ hfold, hmarkup, fun environment => by
    simpa [Content.value] using hvalue environment⟩
  refine congrArg foldConditionals ?_
  rw [String.toList_append, String.toList_ofList, String.toList_ofList]
  decide +kernel

end LazyEmbed.Template
