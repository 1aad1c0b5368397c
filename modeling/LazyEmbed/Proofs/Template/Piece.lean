import LazyEmbed.Proofs.Template.Folding

/-!
# Folding a sequence of tags

A round of folding reads a conditional where its tags and the parts between them stand in a row, and
does not care whether the tags around it are paired. So it takes any sequence of parts and tags to
such a sequence. A tag with a further test is in no conditional that is read: it is still there
after all rounds, and so is what it stands in.
-/

namespace LazyEmbed.Template

open MixedContent

inductive Piece where
  | part (content : Part)
  | condition (test : Expression)
  | further (test : Expression)
  | alternative
  | close

namespace Conditional

variable {test : Expression} {text rest after folded : Text}

theorem foldOnce_opening (htest : test.IsSimple) (hnone : (branches test.render).run rest = none)
    (h : foldOnce rest = .ok after) :
    foldOnce (Content.opening test ++ rest) = .ok (Content.opening test ++ after) := by
  rw [foldOnce] at h ⊢
  rw [Pattern.replaceM_append _ (passes_opening htest hnone), h, Except.map]

theorem foldOnce_of_run (htest : test.IsSimple) {found : Conditional}
    (hrun : (branches test.render).run text = some (found, rest))
    (hternary : found.ternary = .ok folded) (h : foldOnce rest = .ok after) :
    foldOnce (Content.opening test ++ text) = .ok (folded ++ after) := by
  have hread : pattern.reader.run (Content.opening test ++ text) = some (found, rest) :=
    (run_opening htest text).trans hrun
  rw [foldOnce] at h ⊢
  rw [Pattern.replaceM_of_run_eq_some _ hread, hternary, h]
  rfl

theorem Folds.foldOnce (hfolds : Folds text folded) (h : foldOnce rest = .ok after) :
    Conditional.foldOnce (text ++ rest) = .ok (folded ++ after) := by
  rw [Conditional.foldOnce] at h ⊢
  rw [hfolds, h, Except.map]

end Conditional

namespace Piece

def furtherTag (test : Expression) : Text := "<xf:elseif is=\"" ++ (test.render ++ "\">")

def source : Piece → Text
  | part content => content.source
  | condition test => Content.opening test
  | further test => furtherTag test
  | alternative => "<xf:else/>"
  | close => "</xf:if>"

def text (pieces : List Piece) : Text := pieces.flatMap source

/-- Nothing in the piece means something else, and it has no reference. -/
structure IsClean (piece : Piece) : Prop where
  isFolded : ∀ content, piece = part content → content.IsFolded
  isSimple : ∀ test, piece = condition test ∨ piece = further test → test.IsSimple
  no_reference : '&' ∉ piece.source

@[simp]
theorem text_cons (piece : Piece) (pieces : List Piece) :
    text (piece :: pieces) = piece.source ++ text pieces := rfl

theorem text_append (first second : List Piece) :
    text (first ++ second) = text first ++ text second :=
  List.flatMap_append

theorem text_parts (parts : List Part) : text (parts.map part) = parts.flatMap Part.source := by
  rw [text, List.flatMap_map]
  rfl

section

variable {piece : Piece} {pieces : List Piece}

theorem not_mem_text {c : Char} (h : ∀ piece ∈ pieces, c ∉ piece.source) : c ∉ text pieces := by
  intro hmem
  obtain ⟨piece, hpiece, hmem⟩ := List.mem_flatMap.1 hmem
  exact h piece hpiece hmem

theorem source_infix_text (h : piece ∈ pieces) : piece.source <:+: text pieces := by
  obtain ⟨before, behind, rfl⟩ := List.append_of_mem h
  rw [text_append, text_cons]
  exact ⟨text before, text behind, by rw [List.append_assoc]⟩

/-- A piece that is no part is a tag. -/
theorem exists_source_of_ne_part (h : ∀ content, piece ≠ part content) :
    ∃ behind, piece.source = '<' :: behind := by
  cases piece with
  | part content => exact absurd rfl (h content)
  | condition | further | alternative | close => exact ⟨_, rfl⟩

/-- The parts in front and the first tag. -/
theorem exists_parts (pieces : List Piece) :
    ∃ (parts : List Part) (behind : List Piece), pieces = parts.map part ++ behind ∧
    ∀ piece ∈ behind.head?, ∀ content, piece ≠ part content := by
  induction pieces with
  | nil => exact ⟨[], [], rfl, by simp⟩
  | cons piece pieces ih =>
    cases piece with
    | part content =>
      obtain ⟨parts, behind, rfl, hbehind⟩ := ih
      exact ⟨content :: parts, behind, rfl, hbehind⟩
    | condition | further | alternative | close => exact ⟨[], _, rfl, by simp⟩

theorem not_mem_parts {parts : List Part} (h : ∀ content ∈ parts, (part content).IsClean) :
    '<' ∉ parts.flatMap Part.source := by
  intro hmem
  obtain ⟨content, hcontent, hmem⟩ := List.mem_flatMap.1 hmem
  exact ((h content hcontent).isFolded content rfl).not_mem_source hmem

end

/-! ### Reading a conditional -/

def other : Option (List Part) → List Piece
  | none => []
  | some others => alternative :: others.map part

theorem run_closing_eq_none {pieces : List Piece} (h : pieces.head? ≠ some close)
    (htag : ∀ piece ∈ pieces.head?, ∀ content, piece ≠ part content) :
    (Reader.literal "</xf:if>").run (text pieces) = none := by
  cases pieces with
  | nil => rfl
  | cons piece pieces =>
    cases piece with
    | part content => exact absurd rfl (htag _ rfl content)
    | close => exact absurd rfl h
    | condition | further | alternative => rfl

/-- Parts are read up to the tag behind them. -/
theorem run_parts {parts : List Part} {behind : List Piece}
    (hparts : ∀ content ∈ parts, (part content).IsClean)
    (hbehind : ∀ piece ∈ behind.head?, ∀ content, piece ≠ part content) :
    (Reader.many1 (· ≠ '<')).run (parts.flatMap Part.source ++ text behind) =
      if parts.flatMap Part.source = [] then none
        else some (parts.flatMap Part.source, text behind) := by
  have hstop : ∀ c, (text behind).head? = some c → decide (c ≠ '<') = false := by
    intro c hc
    cases behind with
    | nil => cases hc
    | cons piece behind =>
      obtain ⟨more, hmore⟩ := exists_source_of_ne_part (hbehind piece rfl)
      rw [text_cons, hmore] at hc
      obtain rfl : '<' = c := Option.some.inj hc
      decide
  split
  · next hnil =>
    rw [hnil, List.nil_append]
    cases behind with
    | nil => rfl
    | cons piece behind =>
      obtain ⟨more, hmore⟩ := exists_source_of_ne_part (hbehind piece rfl)
      rw [text_cons, hmore]
      rfl
  · next hne =>
    refine Reader.run_many1_append hne (fun c hc => ?_) hstop
    simpa using ne_of_mem_of_not_mem hc (not_mem_parts hparts)

/-- The other branch is read as far as its parts go. -/
theorem run_otherBranch {pieces : List Piece} (h : ∀ piece ∈ pieces, piece.IsClean)
    (htag : ∀ piece ∈ pieces.head?, ∀ content, piece ≠ part content) :
    ∃ (others? : Option (List Part)) (rest : List Piece), pieces = other others? ++ rest ∧
      (∀ piece ∈ rest.head?, ∀ content, piece ≠ part content) ∧
      Conditional.otherBranch.run (text pieces) =
        some (others?.map (·.flatMap Part.source), text rest) := by
  by_cases halternative : pieces.head? = some alternative
  · obtain ⟨behind, rfl⟩ := List.head?_eq_some_iff.1 halternative
    obtain ⟨others, rest, rfl, hrest⟩ := exists_parts behind
    obtain ⟨hothers, -⟩ := List.forall_mem_append.1 (List.forall_mem_cons.1 h).2
    have hread := run_parts (fun content hcontent => hothers _ (List.mem_map_of_mem hcontent)) hrest
    have htext : text (alternative :: (others.map part ++ rest)) =
        "<xf:else/>" ++ (others.flatMap Part.source ++ text rest) := by
      rw [text_cons, text_append, text_parts]
      rfl
    by_cases hnil : others.flatMap Part.source = []
    · refine ⟨none, _, rfl, htag, Reader.run_optional_of_run_eq_none ?_⟩
      simp only [htext, Reader.run_bind, Reader.run_literal_append, Option.bind_some,
        hread, if_pos hnil]
    · refine ⟨some others, rest, rfl, hrest, Reader.run_optional_of_run_eq_some ?_⟩
      simp only [htext, Reader.run_bind, Reader.run_literal_append, Option.bind_some,
        hread, if_neg hnil]
  · refine ⟨none, pieces, rfl, htag, Reader.run_optional_of_run_eq_none ?_⟩
    cases pieces with
    | nil => rfl
    | cons piece pieces =>
      cases piece with
      | part content => exact absurd rfl (htag _ rfl content)
      | alternative => exact absurd rfl halternative
      | condition | further | close => rfl

/-- What is read behind the tag of a test: nothing, or the pieces up to the closing tag. -/
theorem run_branches_cases {pieces : List Piece} (h : ∀ piece ∈ pieces, piece.IsClean)
    (test : Text) :
    (Conditional.branches test).run (text pieces) = none ∨
      ∃ (holds : List Part) (others? : Option (List Part)) (rest : List Piece),
        pieces = holds.map part ++ (other others? ++ close :: rest) ∧
          (Conditional.branches test).run (text pieces) =
            some (⟨test, holds.flatMap Part.source, others?.map (·.flatMap Part.source)⟩,
              text rest) := by
  obtain ⟨holds, behind, rfl, hbehind⟩ := exists_parts pieces
  obtain ⟨hholds, hclean⟩ := List.forall_mem_append.1 h
  have hfirst := run_parts (fun content hcontent => hholds _ (List.mem_map_of_mem hcontent)) hbehind
  obtain ⟨others?, rest, rfl, hrest, hsecond⟩ := run_otherBranch hclean hbehind
  rw [text_append, text_parts, Conditional.run_branches, hfirst]
  split
  · exact .inl rfl
  simp only [Option.bind_some, hsecond]
  by_cases hclose : rest.head? = some close
  · obtain ⟨rest, rfl⟩ := List.head?_eq_some_iff.1 hclose
    have hread : (Reader.literal "</xf:if>").run (text (close :: rest)) = some ((), text rest) :=
      Reader.run_literal_append _ _
    exact .inr ⟨holds, others?, rest, rfl, by rw [hread]; rfl⟩
  · exact .inl (by rw [run_closing_eq_none hclose hrest]; rfl)

/-! ### Rounds -/

/-- A clean piece that opens no condition is left by a round of folding. -/
theorem folds_self {piece : Piece} (h : piece.IsClean)
    (hcondition : ∀ test, piece ≠ condition test) :
    Conditional.Folds piece.source piece.source := by
  cases piece with
  | part content => exact Conditional.folds_of_not_mem (h.isFolded content rfl).not_mem_source
  | condition test => exact absurd rfl (hcondition test)
  | further test =>
    have htest : '<' ∉ test.render :=
      Expression.isFlat_render (h.isSimple test (.inr rfl)) _ (by decide)
    refine Conditional.folds_self fun rest => ?_
    exact (Text.misses_of_apart (by decide) _).append ((Text.misses_of_not_mem htest).append
      (Text.misses_of_apart (by decide) rest))
  | alternative | close =>
    exact Conditional.folds_self fun rest => Text.misses_of_apart (by decide) rest

theorem ternary_parts (test : Expression) {holds : List Part} {others? : Option (List Part)}
    (hholds : ∀ content ∈ holds, content.IsFolded)
    (hothers : ∀ content ∈ others?.getD [], content.IsFolded) :
    Conditional.ternary ⟨test.render, holds.flatMap Part.source,
      others?.map (·.flatMap Part.source)⟩ =
      .ok (Content.folded test holds (others?.getD [])).source := by
  cases others? with
  | none => exact Conditional.ternary_one hholds
  | some others => exact Conditional.ternary_two hholds hothers

/-- A folded choice of clean parts is a clean piece. -/
theorem isClean_folded {test : Expression} {holds others : List Part}
    (htest : (condition test).IsClean) (hholds : ∀ content ∈ holds, (part content).IsClean)
    (hothers : ∀ content ∈ others, (part content).IsClean) :
    (part (Content.folded test holds others)).IsClean where
  isFolded content heq := by
    obtain rfl := part.inj heq
    refine isFolded_choice (htest.isSimple test (.inl rfl)) ?_ ?_
    · exact Runs.areTerms_ofParts fun content hcontent =>
        (hholds content hcontent).isFolded content rfl
    · exact Runs.areTerms_ofParts fun content hcontent =>
        (hothers content hcontent).isFolded content rfl
  isSimple := by simp
  no_reference := Content.not_mem_folded (by decide)
    (fun hmem => htest.no_reference (List.mem_append_right _ (List.mem_append_left _ hmem)))
    (fun content hcontent => (hholds content hcontent).no_reference)
    (fun content hcontent => (hothers content hcontent).no_reference)

/-- A round takes pieces to pieces, and leaves every further test. -/
theorem foldOnce_text {pieces : List Piece} (h : ∀ piece ∈ pieces, piece.IsClean) :
    ∃ after, Conditional.foldOnce (text pieces) = .ok (text after) ∧
      (∀ piece ∈ after, piece.IsClean) ∧ ∀ test, further test ∈ pieces → further test ∈ after := by
  -- A conditional that is read takes several pieces away, so the induction is on how many there
  -- are.
  induction hlength : pieces.length using Nat.strong_induction_on generalizing pieces with
  | h length ih =>
    subst hlength
    cases pieces with
    | nil => exact ⟨[], Pattern.replaceM_nil _, List.forall_mem_nil _, fun _ hmem => hmem⟩
    | cons piece pieces =>
      obtain ⟨hpiece, hpieces⟩ := List.forall_mem_cons.1 h
      obtain ⟨after, hafter, hclean, hfurther⟩ := ih pieces.length (Nat.lt_succ_self _) hpieces rfl
      have hkept : ∀ other, further other ∈ piece :: pieces → further other ∈ piece :: after :=
        fun other hmem =>
        (List.mem_cons.1 hmem).elim (fun heq => heq ▸ List.mem_cons_self) fun hmem =>
          List.mem_cons_of_mem _ (hfurther other hmem)
      by_cases hcondition : ∃ test, piece = condition test
      · obtain ⟨test, rfl⟩ := hcondition
        have htest := hpiece.isSimple test (.inl rfl)
        obtain hnone | ⟨holds, others?, rest, rfl, hrun⟩ := run_branches_cases hpieces test.render
        · exact ⟨condition test :: after, Conditional.foldOnce_opening htest hnone hafter,
            List.forall_mem_cons.2 ⟨hpiece, hclean⟩, hkept⟩
        · obtain ⟨hholds, hrest⟩ := List.forall_mem_append.1 hpieces
          obtain ⟨hother, hrest⟩ := List.forall_mem_append.1 hrest
          have hholds : ∀ content ∈ holds, (part content).IsClean := fun content hcontent =>
            hholds _ (List.mem_map_of_mem hcontent)
          have hothers : ∀ content ∈ others?.getD [], (part content).IsClean := by
            cases others? with
            | none => exact List.forall_mem_nil _
            | some others =>
              exact fun content hcontent =>
                hother _ (List.mem_cons_of_mem _ (List.mem_map_of_mem hcontent))
          obtain ⟨after, hafter, hclean, hfurther⟩ := ih rest.length (by simp; omega)
            (List.forall_mem_cons.1 hrest).2 rfl
          have hternary := ternary_parts test
            (fun content hcontent => (hholds content hcontent).isFolded content rfl)
            (fun content hcontent => (hothers content hcontent).isFolded content rfl)
          refine ⟨part (Content.folded test holds (others?.getD [])) :: after,
            Conditional.foldOnce_of_run htest hrun hternary hafter,
            List.forall_mem_cons.2 ⟨isClean_folded hpiece hholds hothers, hclean⟩,
            fun other hmem => ?_⟩
          refine List.mem_cons_of_mem _ (hfurther other ?_)
          cases others? with
          | none => simpa [Piece.other] using hmem
          | some others => simpa [Piece.other] using hmem
      · have hself := folds_self hpiece fun test heq => hcondition ⟨test, heq⟩
        exact ⟨piece :: after, hself.foldOnce hafter,
          List.forall_mem_cons.2 ⟨hpiece, hclean⟩, hkept⟩

/-- All rounds take pieces to pieces, and leave every further test. -/
theorem foldConditionals_text {pieces : List Piece} (h : ∀ piece ∈ pieces, piece.IsClean) :
    ∃ after, foldConditionals (text pieces) = .ok (text after) ∧ (∀ piece ∈ after, piece.IsClean) ∧
      ∀ test, further test ∈ pieces → further test ∈ after := by
  have hrounds : ∀ (rounds : Nat) (pieces : List Piece), (∀ piece ∈ pieces, piece.IsClean) →
      ∃ after, Conditional.foldWithin rounds (text pieces) = .ok (text after) ∧
        (∀ piece ∈ after, piece.IsClean) ∧ ∀ test, further test ∈ pieces →
        further test ∈ after := by
    intro rounds
    induction rounds with
    | zero => exact fun pieces h => ⟨pieces, rfl, h, fun _ hmem => hmem⟩
    | succ rounds ih =>
      intro pieces h
      obtain ⟨next, hnext, hclean, hfurther⟩ := foldOnce_text h
      have hstep : Conditional.foldWithin (rounds + 1) (text pieces) =
          if text next = text pieces then .ok (text next)
            else Conditional.foldWithin rounds (text next) := by
        rw [Conditional.foldWithin, hnext]
        rfl
      rw [hstep]
      split
      · exact ⟨next, rfl, hclean, hfurther⟩
      · obtain ⟨after, hafter, hcleanAfter, hfurtherAfter⟩ := ih next hclean
        exact ⟨after, hafter, hcleanAfter, fun test hmem => hfurtherAfter test (hfurther test hmem)⟩
  exact hrounds _ pieces h

end Piece

end LazyEmbed.Template
