import LazyEmbed.Proofs.Template.Closing
import LazyEmbed.Proofs.Template.Folding
import LazyEmbed.Proofs.Template.Outcome

/-!
# The rounds of folding end

A conditional that is folded becomes a ternary, in which no conditional begins: its condition has no
quote, and its branches have no tag. So every round that changes a text leaves fewer beginnings of
conditionals (`exists_foldOnce`), and the rounds come to an end (`IsNeat.rounds`). What they need of
a text is that its closing braces close something, which holds of any markup, however unbalanced,
with variables in it (`IsSoup.isNeat`).
-/

namespace LazyEmbed.Template

open Edge MixedContent

namespace Conditional

variable {text out front rest : Text} {found : Conditional} {edge : Edge}

/-! ### Beginnings of conditionals -/

def start : Text := "<xf:if is=\""

def openings : Text → Nat
  | [] => 0
  | c :: text => openings text + if start <+: c :: text then 1 else 0

theorem openings_le_append (front text : Text) : openings text ≤ openings (front ++ text) := by
  induction front with
  | nil => exact Nat.le_refl _
  | cons c front ih =>
    rw [List.cons_append, openings]
    omega

theorem openings_start_append (inner rest : Text) :
    openings rest + 1 ≤ openings (start ++ (inner ++ rest)) := by
  have hsplit : start ++ (inner ++ rest) = '<' :: (("xf:if is=\"" ++ inner) ++ rest) := by
    rw [List.append_assoc]
    rfl
  have hle := openings_le_append ("xf:if is=\"" ++ inner) rest
  rw [hsplit, openings, ← hsplit, if_pos (List.prefix_append _ _)]
  omega

theorem openings_append_of_misses (h : Text.Misses start front rest) :
    openings (front ++ rest) = openings rest := by
  induction front with
  | nil => rfl
  | cons c front ih =>
    rw [List.cons_append, openings, if_neg h.not_prefix, ih h.tail, Nat.add_zero]

theorem openings_le_length (text : Text) : openings text ≤ text.length := by
  induction text with
  | nil => exact Nat.le_refl _
  | cons c text ih =>
    rw [openings, List.length_cons]
    split <;> omega

/-! ### One conditional -/

structure HasNeatParts (found : Conditional) : Prop where
  condition : IsNeat found.condition
  no_quote : '"' ∉ found.condition
  holds : IsNeat found.holds ∧ '<' ∉ found.holds
  otherwise : ∀ otherwise ∈ found.otherwise?, IsNeat otherwise ∧ '<' ∉ otherwise

theorem exists_of_run_otherBranch {otherwise? : Option Text}
    (h : otherBranch.run text = some (otherwise?, rest)) :
    ∃ further, text = further ++ rest ∧
      ((otherwise? = none ∧ further = []) ∨
      ∃ otherwise, otherwise? = some otherwise ∧ '<' ∉ otherwise ∧
      further = "<xf:else/>" ++ otherwise) := by
  obtain ⟨otherwise, rfl, hread⟩ | ⟨rfl, rfl⟩ := Reader.run_optional_cases h
  · obtain ⟨_, left, helse, hmany⟩ := Reader.run_bind_eq_some_iff.1 hread
    obtain ⟨rfl, -, hall⟩ := Reader.eq_append_of_run_many1 hmany
    have hnot : '<' ∉ otherwise := fun hmem => absurd (hall _ hmem) (by decide)
    refine ⟨"<xf:else/>" ++ otherwise, ?_, .inr ⟨otherwise, rfl, hnot, rfl⟩⟩
    rw [Reader.run_literal_eq_some_iff.1 helse, List.append_assoc]
  · exact ⟨[], rfl, .inl ⟨rfl, rfl⟩⟩

/-- What a hit of the folding pattern looks like: opening, branch, perhaps another branch, end. -/
theorem exists_of_run_pattern (h : pattern.reader.run text = some (found, rest)) :
    ∃ further,
      text = start ++
        (found.condition ++ ("\">" ++ (found.holds ++ (further ++ ("</xf:if>" ++ rest))))) ∧
      '"' ∉ found.condition ∧ '<' ∉ found.holds ∧
      ((found.otherwise? = none ∧ further = []) ∨
        ∃ otherwise, found.otherwise? = some otherwise ∧ '<' ∉ otherwise ∧
          further = "<xf:else/>" ++ otherwise) := by
  obtain ⟨_, first, hopen, h⟩ := Reader.run_bind_eq_some_iff.1 h
  obtain ⟨condition, second, hcondition, h⟩ := Reader.run_bind_eq_some_iff.1 h
  obtain ⟨_, third, hclose, h⟩ := Reader.run_bind_eq_some_iff.1 h
  obtain ⟨holds, fourth, hholds, h⟩ := Reader.run_bind_eq_some_iff.1 h
  obtain ⟨otherwise?, fifth, hotherwise, h⟩ := Reader.run_bind_eq_some_iff.1 h
  obtain ⟨_, sixth, hend, hpure⟩ := Reader.run_bind_eq_some_iff.1 h
  obtain ⟨rfl, rfl⟩ := Prod.mk.inj (Option.some.inj hpure)
  obtain ⟨rfl, -, hquote⟩ := Reader.eq_append_of_run_many1 hcondition
  obtain ⟨rfl, -, hangle⟩ := Reader.eq_append_of_run_many1 hholds
  obtain ⟨further, rfl, hfurther⟩ := exists_of_run_otherBranch hotherwise
  have hnotQuote : '"' ∉ condition := fun hmem => absurd (hquote _ hmem) (by decide)
  have hnotAngle : '<' ∉ holds := fun hmem => absurd (hangle _ hmem) (by decide)
  have hwhole := Reader.run_literal_eq_some_iff.1 hopen
  rw [Reader.run_literal_eq_some_iff.1 hclose, Reader.run_literal_eq_some_iff.1 hend] at hwhole
  exact ⟨further, hwhole, hnotQuote, hnotAngle, hfurther⟩

/-- What is cut out of a neat text at the tags of a conditional is neat, and so is what stands
behind it. -/
theorem hasNeatParts_of_run (htext : mark ∉ text) (h : Closes true edge text)
    (hrun : pattern.reader.run text = some (found, rest)) : found.HasNeatParts ∧ IsNeat rest := by
  have hmark := Reader.not_mem_rest htext hrun
  obtain ⟨hcondition, hholds, hotherwise⟩ := yields_pattern htext hrun
  obtain ⟨further, rfl, hquote, hangle, hcases⟩ := exists_of_run_pattern hrun
  have hstart : ∀ edge, after true edge start = other := fun _ => rfl
  have hclose : ∀ edge, after true edge "\">" = other := fun _ => rfl
  have helse : ∀ edge, after true edge "<xf:else/>" = other := fun _ => rfl
  have hend : ∀ edge, after true edge "</xf:if>" = other := fun _ => rfl
  have hfirst := h.behind
  rw [hstart] at hfirst
  have hsecond := hfirst.behind.behind
  rw [hclose] at hsecond
  have hthird := hsecond.behind.behind.behind
  rw [hend] at hthird
  have hhead : (further ++ ("</xf:if>" ++ rest)).head? ≠ some '\x7d' := by
    obtain ⟨-, rfl⟩ | ⟨otherwise, -, -, rfl⟩ := hcases <;> simp
  refine ⟨⟨⟨hcondition, hfirst.front (by simp)⟩, hquote, ⟨⟨hholds, hsecond.front hhead⟩, hangle⟩,
    ?_⟩, hmark, hthird⟩
  intro otherwise hsome
  obtain ⟨hnone, -⟩ | ⟨other', hother, hnot, rfl⟩ := hcases
  · cases hnone.symm.trans hsome
  · obtain rfl : other' = otherwise := Option.some.inj (hother.symm.trans hsome)
    have hbranch := hsecond.behind
    rw [List.append_assoc] at hbranch
    have hinside := hbranch.behind
    rw [helse] at hinside
    exact ⟨⟨hotherwise _ hsome, hinside.front (by simp)⟩, hnot⟩

def choice (condition holds otherwise : Text) : Text :=
  "\x7b\x7b " ++ (condition ++ (" ? " ++ (holds ++ (" : " ++ (otherwise ++ " \x7d\x7d")))))

section

variable {condition holds otherwise : Text}

theorem ternary_eq (hholds : stringOfMixed found.holds = .ok holds)
    (hotherwise : found.otherwise? = none ∧ otherwise = "''" ∨
      ∃ branch, found.otherwise? = some branch ∧ stringOfMixed branch = .ok otherwise) :
    found.ternary = .ok (choice found.condition holds otherwise) := by
  have hchoice : choice found.condition holds otherwise =
      "\x7b\x7b " ++ found.condition ++ " ? " ++ holds ++ " : " ++ otherwise ++ " \x7d\x7d" := by
    unfold choice
    simp only [List.append_assoc]
  rw [hchoice, ternary, hholds]
  obtain ⟨hnone, rfl⟩ | ⟨branch, hsome, hbranch⟩ := hotherwise
  · simp only [hnone]
    rfl
  · simp only [hsome, hbranch]
    rfl

/-- A ternary begins no conditional, whatever follows: its condition has no quote, and its branches
have no tag. -/
theorem openings_choice (hcondition : '"' ∉ condition) (hholds : '<' ∉ holds)
    (hotherwise : '<' ∉ otherwise) (rest : Text) :
    openings (choice condition holds otherwise ++ rest) = openings rest := by
  refine openings_append_of_misses ?_
  have hbranches :
      Text.Misses start (" ? " ++ (holds ++ (" : " ++ (otherwise ++ " \x7d\x7d")))) rest := by
    have hfixed : ∀ fixed ∈ ([" ? ", " : ", " \x7d\x7d"] : List Text), '<' ∉ fixed := by decide
    refine Text.misses_of_not_mem ?_
    simp only [List.mem_append, not_or]
    exact ⟨hfixed _ (by simp), hholds, hfixed _ (by simp), hotherwise, hfixed _ (by simp)⟩
  rw [choice, ← List.append_assoc]
  refine Text.Misses.append (fun before after heq hne hprefix => ?_) hbranches
  have hquote : '"' ∉ after := by
    intro hmem
    have hwhole : '"' ∈ ("\x7b\x7b " : Text) ++ condition := heq ▸ List.mem_append_right before hmem
    exact (List.mem_append.1 hwhole).elim (by decide) hcondition
  -- The beginning would have to go on with its quote before the question mark.
  obtain ⟨behind, hbehind⟩ : ∃ behind,
      after ++ (" ? " ++ (holds ++ (" : " ++ (otherwise ++ " \x7d\x7d"))) ++ rest) =
        (after ++ [' ']) ++ '?' :: behind := ⟨_, by simp only [List.append_assoc]; rfl⟩
  rw [hbehind] at hprefix
  have hinside :=
    (Text.prefix_of_prefix_append_cons hprefix (by decide)).subset (show '"' ∈ start by decide)
  exact (List.mem_append.1 hinside).elim hquote (by decide)

theorem closes_braces (h : edge.IsEnd) : Closes true edge " \x7d\x7d" := by
  have hlist : (" \x7d\x7d" : Text) = [' ', '\x7d', '\x7d'] := by decide
  have hblank : ' ' ≠ '\x7d' := by decide
  rw [hlist]
  obtain rfl | rfl := h
  · exact ⟨fun heq => absurd heq hblank, fun _ => .inr (.inr ⟨rfl, rfl⟩),
      fun _ => .inr (.inl rfl), trivial⟩
  · exact ⟨fun heq => absurd heq hblank, fun _ => .inr (.inr ⟨rfl, rfl⟩),
      fun _ => .inr (.inl rfl), trivial⟩

theorem isNeat_choice (hcondition : IsNeat condition) (hholds : IsNeat holds)
    (hotherwise : IsNeat otherwise) (hlast : ∀ edge, (after true edge otherwise).IsEnd) :
    IsNeat (choice condition holds otherwise) where
  no_mark := by
    have hfixed : ∀ fixed ∈ (["\x7b\x7b ", " ? ", " : ", " \x7d\x7d"] : List Text),
        mark ∉ fixed := by decide
    simp only [choice, List.mem_append, not_or]
    exact ⟨hfixed _ (by simp), hcondition.no_mark, hfixed _ (by simp), hholds.no_mark,
      hfixed _ (by simp), hotherwise.no_mark, hfixed _ (by simp)⟩
  closes := by
    have hfixed : ∀ fixed ∈ (["\x7b\x7b ", " ? ", " : "] : List Text), ∀ edge,
        Closes true edge fixed := by
      have hnone : ∀ fixed ∈ (["\x7b\x7b ", " ? ", " : "] : List Text), '\x7d' ∉ fixed := by decide
      exact fun fixed hmem edge => closes_of_not_mem (hnone fixed hmem)
    exact (hfixed _ (by simp) _).append
      ((hcondition.closes.anywhere _).append
      ((hfixed _ (by simp) _).append
      ((hholds.closes.anywhere _).append
      ((hfixed _ (by simp) _).append
        ((hotherwise.closes.anywhere _).append (closes_braces (hlast _)))))))

end

/-- The conditional is folded. -/
theorem HasNeatParts.ternary (h : found.HasNeatParts) :
    ∃ out, found.ternary = .ok out ∧ IsNeat out ∧
    out.head? = some '\x7b' ∧ ∀ rest, openings (out ++ rest) = openings rest := by
  obtain ⟨holds, hholds, hneat, -, htag⟩ := h.holds.1.stringOfMixed
  obtain ⟨otherwise, hbranch, hneat', hlast, htag'⟩ : ∃ otherwise : Text,
      (found.otherwise? = none ∧ otherwise = "''" ∨
        ∃ branch, found.otherwise? = some branch ∧ stringOfMixed branch = .ok otherwise) ∧
      IsNeat otherwise ∧ (∀ edge, (after true edge otherwise).IsEnd) ∧ '<' ∉ otherwise := by
    cases hcase : found.otherwise? with
    | none => exact ⟨"''", .inl ⟨rfl, rfl⟩, ⟨by decide, closes_of_not_mem (by decide)⟩,
        fun _ => .inr rfl, by decide⟩
    | some branch =>
      obtain ⟨hbranch, hnot⟩ := h.otherwise branch hcase
      obtain ⟨out, hout, hneat, hlast, htag⟩ := hbranch.stringOfMixed
      exact ⟨out, .inr ⟨branch, rfl, hout⟩, hneat, hlast, htag hnot⟩
  exact ⟨choice found.condition holds otherwise, ternary_eq hholds hbranch,
    isNeat_choice h.condition hneat hneat' hlast, rfl,
    openings_choice h.no_quote (htag h.holds.2) htag'⟩

/-! ### One round -/

/-- What a round makes of a text. The first characters stay, up to the first ternary. -/
structure IsRound (edge : Edge) (text out : Text) : Prop where
  no_mark : mark ∉ out
  closes : Closes true edge out
  head : text.head? = some '\x7d' → out.head? = some '\x7d'
  begins : ∀ word : Text, '\x7b' ∉ word → word <+: out → word <+: text
  fewer : openings out + (pattern.hits text).length ≤ openings text

theorem isRound_nil : IsRound edge [] [] :=
  ⟨List.not_mem_nil, trivial, id,
    fun _ _ hprefix => hprefix, by rw [Pattern.hits_nil]; exact Nat.le_refl _⟩

/-- A character that begins no conditional to be folded stays. -/
theorem IsRound.cons {c : Char} (hc : mark ≠ c) (hadmits : c = '\x7d' → edge.Admits text)
    (hrun : pattern.reader.run (c :: text) = none) (h : IsRound (edge.next true c) text out) :
    IsRound edge (c :: text) (c :: out) := by
  have hbegins : ∀ word : Text, '\x7b' ∉ word → word <+: c :: out → word <+: c :: text := by
    intro word hword hprefix
    cases word with
    | nil => exact List.nil_prefix
    | cons d word =>
      obtain ⟨rfl, hbehind⟩ := List.cons_prefix_cons.1 hprefix
      exact List.cons_prefix_cons.2 ⟨rfl, h.begins word (mt (List.mem_cons_of_mem d) hword) hbehind⟩
  refine ⟨?_, ⟨fun hclose => (hadmits hclose).congr h.head, h.closes⟩, id, hbegins, ?_⟩
  · exact fun hmem => (List.mem_cons.1 hmem).elim hc h.no_mark
  · have hfewer := h.fewer
    have hstart : start <+: c :: out → start <+: c :: text := hbegins start (by decide)
    rw [Pattern.hits_cons_of_run_eq_none hrun, openings, openings]
    by_cases hbegun : start <+: c :: out
    · rw [if_pos hbegun, if_pos (hstart hbegun)]
      omega
    · rw [if_neg hbegun]
      omega

/-- A conditional gives way to a ternary, in which none begins. -/
theorem IsRound.folded {folded : Text} (hrun : pattern.reader.run text = some (found, rest))
    (hneat : IsNeat folded) (hhead : folded.head? = some '\x7b')
    (hopenings : ∀ rest, openings (folded ++ rest) = openings rest) (h : IsRound other rest out) :
    IsRound edge text (folded ++ out) := by
  obtain ⟨further, rfl, -⟩ := exists_of_run_pattern hrun
  refine ⟨?_, (hneat.closes.anywhere edge).append (h.closes.anywhere _), fun hclose => ?_, ?_, ?_⟩
  · exact fun hmem => (List.mem_append.1 hmem).elim hneat.no_mark h.no_mark
  · cases hclose
  · intro word hword hprefix
    cases word with
    | nil => exact List.nil_prefix
    | cons d word =>
      obtain ⟨more, rfl⟩ := List.head?_eq_some_iff.1 hhead
      exact absurd ((List.cons_prefix_cons.1 hprefix).1 ▸ List.mem_cons_self) hword
  · have hfewer := h.fewer
    have hbegun :=
      openings_start_append (found.condition ++
        ("\">" ++ (found.holds ++ (further ++ "</xf:if>")))) rest
    simp only [List.append_assoc] at hbegun
    rw [hopenings, Pattern.hits_of_run_eq_some hrun, List.length_cons]
    omega

/-- Every conditional that is folded is one less, and none begins anew. -/
theorem exists_foldOnce (htext : mark ∉ text) (h : Closes true edge text) :
    ∃ out, foldOnce text = .ok out ∧ IsRound edge text out := by
  induction text using pattern.searchInduction generalizing edge with
  | nil => exact ⟨[], Pattern.replaceM_nil _, isRound_nil⟩
  | plain c text hrun ih =>
    obtain ⟨hc, hothers⟩ := not_or.1 (mt List.mem_cons.2 htext)
    obtain ⟨out, hout, hround⟩ := ih hothers h.2
    refine ⟨c :: out, ?_, hround.cons hc h.1 hrun⟩
    rw [foldOnce, Pattern.replaceM_cons_of_run_eq_none _ hrun, ← foldOnce, hout]
    rfl
  | hit text found rest hrun ih =>
    obtain ⟨hfound, hrest⟩ := hasNeatParts_of_run htext h hrun
    obtain ⟨out, hout, hround⟩ := ih hrest.no_mark hrest.closes
    obtain ⟨folded, hfolded, hneat, hhead, hopenings⟩ := hfound.ternary
    refine ⟨folded ++ out, ?_, hround.folded hrun hneat hhead hopenings⟩
    rw [foldOnce, Pattern.replaceM_of_run_eq_some _ hrun, ← foldOnce, hfolded, hout]
    rfl

theorem foldOnce_of_hits_eq_nil (h : pattern.hits text = []) : foldOnce text = .ok text :=
  Pattern.replaceM_eq_self _ (Pattern.passes_of_hits_eq_nil h)

/-! ### All rounds -/

/-- So many rounds that change the text, each of which leaves fewer beginnings of conditionals, up
to a text that a round does not change. -/
inductive Rounds : Nat → Text → Text → Prop
  | last {text : Text} (h : foldOnce text = .ok text) : Rounds 0 text text
  | next {count : Nat} {text folded out : Text} (hround : foldOnce text = .ok folded)
      (hchange : folded ≠ text) (hfewer : openings folded < openings text)
      (hrest : Rounds count folded out) : Rounds (count + 1) text out

variable {count : Nat}

theorem Rounds.count_le (h : Rounds count text out) : count ≤ openings text := by
  induction h with
  | last => exact Nat.zero_le _
  | next _ _ hfewer _ ih => omega

/-- A bound at least as large as the count of rounds gives their result. -/
theorem Rounds.foldWithin (h : Rounds count text out) {rounds : Nat} (hrounds : count ≤ rounds) :
    foldWithin rounds text = .ok out := by
  induction h generalizing rounds with
  | @last text h =>
    cases rounds with
    | zero => rfl
    | succ rounds =>
      rw [Conditional.foldWithin, h]
      exact if_pos rfl
  | @next count text folded out hround hchange _ _ ih =>
    obtain ⟨fewer, rfl⟩ : ∃ fewer, rounds = fewer + 1 := ⟨rounds - 1, by omega⟩
    rw [Conditional.foldWithin, hround]
    exact (if_neg hchange).trans (ih (by omega))

end Conditional

open Conditional

variable {text : Text}

/-- The rounds from a neat text end, at a neat text in which nothing can be folded. -/
theorem IsNeat.rounds (h : IsNeat text) :
    ∃ count out, Rounds count text out ∧ IsNeat out ∧ pattern.hits out = [] := by
  induction hopenings : openings text using Nat.strong_induction_on generalizing text with
  | _ bound ih =>
    subst hopenings
    obtain ⟨folded, hfolded, hround⟩ := exists_foldOnce h.no_mark h.closes
    by_cases hhits : pattern.hits text = []
    · exact ⟨0, text, .last (foldOnce_of_hits_eq_nil hhits), h, hhits⟩
    · have hsome := List.length_pos_iff.2 hhits
      have hfewer : openings folded < openings text := by
        have hle := hround.fewer
        omega
      have hchange : folded ≠ text := by
        rintro rfl
        exact Nat.lt_irrefl _ hfewer
      obtain ⟨count, out, hrest, hneat, hnone⟩ := ih _ hfewer ⟨hround.no_mark, hround.closes⟩ rfl
      exact ⟨count + 1, out, .next hfolded hchange hfewer hrest, hneat, hnone⟩

/-- Any text without braces and NUL, and variables, one after the other. -/
inductive IsSoup : Text → Prop
  | nil : IsSoup []
  | chunk {chunk rest : Text} (hopen : '\x7b' ∉ chunk) (hclose : '\x7d' ∉ chunk)
      (hmark : mark ∉ chunk) (hrest : IsSoup rest) : IsSoup (chunk ++ rest)
  | reference {name rest : Text} (hname : IsName name) (hrest : IsSoup rest) :
      IsSoup ("\x7b$" ++ (name ++ ("\x7d" ++ rest)))

/-- Soup is neat, so the invariant of folding holds at the start. -/
theorem IsSoup.isNeat (h : IsSoup text) : IsNeat text := by
  induction h with
  | nil => exact ⟨List.not_mem_nil, trivial⟩
  | chunk _ hclose hmark _ ih =>
    refine ⟨fun hmem => (List.mem_append.1 hmem).elim hmark ih.no_mark, ?_⟩
    exact (closes_of_not_mem hclose).append (ih.closes.anywhere _)
  | @reference name rest hname _ ih =>
    have hword : ∀ d, Text.isWord d = false → d ∉ name := fun d hd hmem =>
      Bool.noConfusion (hd.symm.trans (hname.2 d hmem))
    constructor
    · have hfixed : mark ∉ ("\x7b$" : Text) ∧ mark ∉ ("\x7d" : Text) := by decide
      simp only [List.mem_append, not_or]
      exact ⟨hfixed.1, hword mark (by decide), hfixed.2, ih.no_mark⟩
    · have hopen : Closes true other "\x7b$" := closes_of_not_mem (by decide)
      have hname' : Closes true (after true other "\x7b$") name :=
        closes_of_not_mem (hword _ (by decide))
      refine hopen.append (hname'.append ?_)
      rw [after_word hname.1 hname.2]
      exact ⟨fun _ => .inl rfl, ih.closes.anywhere _⟩

/-- Whatever conditionals are begun in it, closed, or spread over each other, a soup of markup is
folded without a failure. There are at most as many rounds as conditionals begin, and the loop may
as well have no bound. What is left has no conditional that could be folded, and no NUL. -/
theorem foldConditionals_soup (h : IsSoup text) :
    ∃ count out, Rounds count text out ∧ count ≤ openings text ∧
      foldConditionals text = .ok out ∧
      (∀ rounds, count ≤ rounds → foldWithin rounds text = .ok out) ∧
      pattern.hits out = [] ∧ mark ∉ out := by
  obtain ⟨count, out, hrounds, hneat, hnone⟩ := h.isNeat.rounds
  have hlength := openings_le_length text
  have hcount := hrounds.count_le
  exact ⟨count, out, hrounds, hcount, hrounds.foldWithin (by omega),
    fun rounds => hrounds.foldWithin, hnone, hneat.no_mark⟩

def strayTag : Text :=
  "<xf:if is=\"$a\"><xf:if is=\"$b\">" ++
    ("\x7b$" ++ ("c" ++ ("\x7d" ++ ("</xf:if>'</xf:if><xf:else/>" ++ ([] : Text)))))

theorem foldConditionals_strayTag :
    IsSoup strayTag ∧ openings strayTag = 2 ∧
    ∃ count out, Rounds count strayTag out ∧ count ≤ 2 ∧ foldConditionals strayTag = .ok out ∧
      pattern.hits out = [] ∧ mark ∉ out ∧
      out = "\x7b\x7b $a ? ($b ? $c : '') . '\\'' : '' \x7d\x7d<xf:else/>" := by
  have hsoup : IsSoup strayTag :=
    .chunk (by decide) (by decide) (by decide) (.reference ⟨by decide, by decide⟩
      (.chunk (by decide) (by decide) (by decide) .nil))
  have hopenings : openings strayTag = 2 := by
    unfold strayTag
    repeat rewrite [String.toList_ofList]
    decide +kernel
  obtain ⟨count, out, hrounds, hcount, hout, -, hnone, hmark⟩ := foldConditionals_soup hsoup
  have hfolded : foldConditionals strayTag =
      .ok "\x7b\x7b $a ? ($b ? $c : '') . '\\'' : '' \x7d\x7d<xf:else/>" := by
    unfold strayTag
    repeat rewrite [String.toList_ofList]
    decide +kernel
  exact ⟨hsoup, hopenings, count, out, hrounds, hopenings ▸ hcount, hout, hnone, hmark,
    Except.ok.inj (hout.symm.trans hfolded)⟩

end LazyEmbed.Template
