import LazyEmbed.Proofs.Template.Dropping
import LazyEmbed.Proofs.Template.Splicing
import LazyEmbed.Proofs.Text.Blank

/-!
# What closing braces close

While conditionals are folded, a closing brace ends the name of a variable, or is one of two behind
an expression and a blank. So no expression is ever empty, and every round succeeds. Which of the
two it can be is told by the last few characters before it (`Edge`), and that is kept by all that is
done with the text: it is cut at tags, where nothing is closed; it is quoted, and an apostrophe that
an expression ends in stays one, behind a backslash; and when empty literals are dropped, bare
apostrophes go, which no closing brace stands behind. What mixed content becomes ends in an
apostrophe, a bracket or a name, so an expression can be closed behind it (`IsNeat.stringOfMixed`).
-/

namespace LazyEmbed.Template

/-- What a text ends in, as far as a closing brace behind it goes. -/
inductive Edge where
  /-- A character of a word. -/
  | word
  /-- Another character that an expression may end in. -/
  | firm
  /-- The end of an expression, and a blank. -/
  | gap
  /-- The first of two braces behind an expression. -/
  | half
  | backslash
  | other
  deriving DecidableEq

namespace Edge

variable {bare bare' : Bool} {edge stronger : Edge} {c : Char} {text behind : Text}

def IsEnd (edge : Edge) : Prop := edge = word ∨ edge = firm

/-- The edge with one more character. An apostrophe is the end of an expression if it is escaped,
and where apostrophes may be bare, always. -/
def next (bare : Bool) (edge : Edge) : Char → Edge
  | '\'' => if bare = true ∨ edge = backslash then firm else other
  | '\\' => backslash
  | ')' => firm
  | ' ' => if edge = word ∨ edge = firm then gap else other
  | '\x7d' => if edge = gap then half else other
  | c => if Text.isWord c then word else other

def after (bare : Bool) (edge : Edge) (text : Text) : Edge := text.foldl (next bare) edge

/-- A closing brace fits here, before the text that follows it. -/
def Admits (edge : Edge) (behind : Text) : Prop :=
  edge = word ∨ edge = half ∨ edge = gap ∧ behind.head? = some '\x7d'

/-- Every edge is at least as good as that of no expression. -/
instance : LE Edge where
  le edge stronger := edge = other ∨ edge = stronger

theorem le_iff : edge ≤ stronger ↔ edge = other ∨ edge = stronger := Iff.rfl

theorem other_le (edge : Edge) : other ≤ edge := .inl rfl

theorem le_refl (edge : Edge) : edge ≤ edge := .inr rfl

theorem Admits.mono (h : edge.Admits behind) (hle : edge ≤ stronger) : stronger.Admits behind := by
  obtain rfl | rfl := hle
  · simp [Admits] at h
  · exact h

theorem Admits.congr {second : Text} (h : edge.Admits behind)
    (hhead : behind.head? = some '\x7d' → second.head? = some '\x7d') : edge.Admits second :=
  h.imp_right (Or.imp_right fun hgap => ⟨hgap.1, hhead hgap.2⟩)

theorem Admits.append (h : edge.Admits behind) (rest : Text) : edge.Admits (behind ++ rest) :=
  h.congr fun hhead => by rw [List.head?_append, hhead, Option.some_or]

theorem next_le (h : edge ≤ stronger)
    (hc : c = '\'' → bare = true → bare' = true ∨ stronger = backslash) :
    next bare edge c ≤ next bare' stronger c := by
  unfold next
  split
  · have hcounts : bare = true ∨ edge = backslash → bare' = true ∨ stronger = backslash := by
      rintro (hbare | rfl)
      · exact hc rfl hbare
      · exact .inr (h.resolve_left (by decide)).symm
    by_cases hleft : bare = true ∨ edge = backslash
    · rw [if_pos hleft, if_pos (hcounts hleft)]
      exact le_refl firm
    · rw [if_neg hleft]
      exact other_le _
  all_goals obtain rfl | rfl := h <;> simp [le_iff]

theorem after_append (bare : Bool) (edge : Edge) (first second : Text) :
    after bare edge (first ++ second) = after bare (after bare edge first) second :=
  List.foldl_append

/-- A blank ends no expression where there is none. -/
theorem next_blank (h : Text.isBlank c = true) : next bare other c = other := by
  have hword := Text.isWord_eq_false_of_isBlank h
  unfold next
  split
  · exact absurd h (by decide)
  · exact absurd h (by decide)
  · exact absurd h (by decide)
  · rfl
  · rfl
  · rw [if_neg (by rw [hword]; decide)]

theorem after_blanks (h : Text.IsBlanks text) : after bare other text = other := by
  induction text with
  | nil => rfl
  | cons c text ih =>
    obtain ⟨hc, htext⟩ := List.forall_mem_cons.1 h
    rw [after, List.foldl_cons, next_blank hc]
    exact ih htext

theorem next_of_isWord (h : Text.isWord c = true) : next bare edge c = word := by
  unfold next
  split
  · exact absurd h (by decide)
  · exact absurd h (by decide)
  · exact absurd h (by decide)
  · exact absurd h (by decide)
  · exact absurd h (by decide)
  · exact if_pos h

theorem isWord_of_next (h : next bare edge c = word) : Text.isWord c = true := by
  unfold next at h
  split at h
  · split at h <;> cases h
  · cases h
  · cases h
  · split at h <;> cases h
  · split at h <;> cases h
  · by_contra hword
    rw [if_neg hword] at h
    cases h

theorem of_next_eq_half (h : next bare edge c = half) : c = '\x7d' ∧ edge = gap := by
  unfold next at h
  split at h
  · split at h <;> cases h
  · cases h
  · cases h
  · split at h <;> cases h
  · by_contra hgap
    rw [if_neg fun hedge => hgap ⟨rfl, hedge⟩] at h
    cases h
  · split at h <;> cases h

theorem after_word (hne : text ≠ []) (h : ∀ c ∈ text, Text.isWord c = true) :
    after bare edge text = word := by
  obtain ⟨front, c, rfl⟩ := List.eq_nil_or_concat text |>.resolve_left hne
  rw [List.concat_eq_append] at h ⊢
  rw [after_append]
  exact next_of_isWord (h c (List.mem_append_right front List.mem_cons_self))

end Edge

open Edge MixedContent

/-- Each closing brace of the text ends a variable or, with another one beside it, an expression. -/
def Closes (bare : Bool) : Edge → Text → Prop
  | _, [] => True
  | edge, c :: text => (c = '\x7d' → edge.Admits text) ∧ Closes bare (edge.next bare c) text

section

variable {bare bare' : Bool} {edge stronger : Edge} {text first second : Text}

theorem Closes.mono (h : Closes bare edge text) (hle : edge ≤ stronger)
    (hbare : bare = true → bare' = true) : Closes bare' stronger text := by
  induction text generalizing edge stronger with
  | nil => trivial
  | cons c text ih =>
    obtain ⟨hc, htext⟩ := h
    exact ⟨fun hclose => (hc hclose).mono hle, ih htext (next_le hle fun _ h => .inl (hbare h))⟩

/-- What closes well on its own does so behind anything. -/
theorem Closes.anywhere (h : Closes bare other text) (edge : Edge) : Closes bare edge text :=
  h.mono (other_le edge) id

theorem Closes.append (h : Closes bare edge first)
    (hsecond : Closes bare (after bare edge first) second) :
    Closes bare edge (first ++ second) := by
  induction first generalizing edge with
  | nil => exact hsecond
  | cons c first ih =>
    obtain ⟨hc, hfirst⟩ := h
    exact ⟨fun hclose => (hc hclose).append second, ih hfirst hsecond⟩

theorem Closes.behind (h : Closes bare edge (first ++ second)) :
    Closes bare (after bare edge first) second := by
  induction first generalizing edge with
  | nil => exact h
  | cons c first ih => exact ih h.2

/-- A text that closes also closes up to a seam that no brace follows. -/
theorem Closes.front (h : Closes bare edge (first ++ second))
    (hsecond : second.head? ≠ some '\x7d') : Closes bare edge first := by
  induction first generalizing edge with
  | nil => trivial
  | cons c first ih =>
    rw [List.cons_append, Closes] at h
    refine ⟨fun hclose => ?_, ih h.2⟩
    obtain hword | hhalf | ⟨hgap, hhead⟩ := h.1 hclose
    · exact .inl hword
    · exact .inr (.inl hhalf)
    · rw [List.head?_append, Option.or_eq_some_iff] at hhead
      exact .inr (.inr ⟨hgap, hhead.resolve_right fun h => hsecond h.2⟩)

theorem closes_of_not_mem (h : '\x7d' ∉ text) : Closes bare edge text := by
  induction text generalizing edge with
  | nil => trivial
  | cons c text ih =>
    obtain ⟨hc, htext⟩ := not_or.1 (mt List.mem_cons.2 h)
    exact ⟨fun hclose => absurd hclose.symm hc, ih htext⟩

end

/-! ### Expressions -/

namespace MixedContent

theorem exists_of_run_close {text rest : Text} (h : close.run text = some ((), rest)) :
    ∃ back, Text.IsBlanks back ∧ text = back ++ ("\x7d\x7d" ++ rest) := by
  obtain ⟨back, left, hback, hclose⟩ := Reader.run_bind_eq_some_iff.1 h
  obtain ⟨rfl, hblanks⟩ := Reader.eq_append_of_run_many hback
  exact ⟨back, hblanks, by rw [Reader.run_literal_eq_some_iff.1 hclose]⟩

/-- An expression goes up to the nearest closing braces. -/
theorem exists_of_run_expression {text found rest : Text}
    (h : expression.reader.run text = some (found, rest)) :
    ∃ front behind, Text.IsBlanks front ∧ text = "\x7b\x7b" ++ (front ++ (found ++ behind)) ∧
      close.run behind = some ((), rest) ∧
      ∀ first second, found = first ++ second → second ≠ [] →
      close.run (second ++ behind) = none := by
  obtain ⟨_, left, hopen, hrun⟩ := Reader.run_bind_eq_some_iff.1 h
  obtain ⟨front, left', hfront, hrun⟩ := Reader.run_bind_eq_some_iff.1 hrun
  obtain ⟨⟨inner, _⟩, left'', hshortest, hpure⟩ := Reader.run_bind_eq_some_iff.1 hrun
  obtain ⟨rfl, rfl⟩ := Prod.mk.inj (Option.some.inj hpure)
  obtain ⟨rfl, hblanks⟩ := Reader.eq_append_of_run_many hfront
  obtain ⟨behind, rfl, hclose, -⟩ := Reader.shortestRun_eq_some hshortest
  exact ⟨front, behind, hblanks, Reader.run_literal_eq_some_iff.1 hopen, hclose,
    Reader.shortestRun_nearest hshortest⟩

end MixedContent

section

variable {bare : Bool} {edge weaker : Edge} {text found behind rest : Text}

/-- Closing braces that close an expression have an expression before them. -/
theorem Closes.no_empty (h : Closes bare edge text) :
    ∀ found ∈ expression.hits text, found ≠ [] := by
  rintro _ hmem rfl
  obtain ⟨_, rest, ⟨before, rfl⟩, hrun⟩ := Pattern.exists_run_of_mem_hits hmem
  obtain ⟨front, behind, hfront, rfl, hclose, -⟩ := exists_of_run_expression hrun
  obtain ⟨back, hback, rfl⟩ := exists_of_run_close hclose
  have hopen : after bare (after bare edge before) "\x7b\x7b" = other := rfl
  have hbraces : Closes bare other (front ++ (back ++ ("\x7d\x7d" ++ rest))) :=
    hopen ▸ h.behind.behind
  rw [← List.append_assoc] at hbraces
  have hclosing := hbraces.behind
  rw [after_blanks (hfront.append hback)] at hclosing
  simpa [Admits] using hclosing.1 rfl

/-- In an expression only variables are closed. -/
theorem closes_of_nearest (h : Closes true edge (found ++ behind)) (hedge : edge ≠ half)
    (hword : edge = word → weaker = word)
    (hnearest : ∀ first second, found = first ++ second → second ≠ [] →
      close.run (second ++ behind) = none) : Closes false weaker found := by
  induction found generalizing edge weaker with
  | nil => trivial
  | cons c found ih =>
    rw [List.cons_append, Closes] at h
    have hsingle : c = '\x7d' → edge = word := by
      rintro rfl
      obtain hfirst | hhalf | ⟨-, hhead⟩ := h.1 rfl
      · exact hfirst
      · exact absurd hhalf hedge
      · -- Two closing braces would end the expression.
        obtain ⟨more, hmore⟩ := List.head?_eq_some_iff.1 hhead
        have hnone := hnearest [] ('\x7d' :: found) rfl (List.cons_ne_nil _ _)
        rw [List.cons_append, hmore] at hnone
        cases hnone
    refine ⟨fun hclose => .inl (hword (hsingle hclose)),
      ih h.2 (fun hhalf => ?_) (fun hnext => ?_) ?_⟩
    · obtain ⟨hclose, hgap⟩ := of_next_eq_half hhalf
      cases hgap.symm.trans (hsingle hclose)
    · exact next_of_isWord (isWord_of_next hnext)
    · exact fun first second heq hne =>
        hnearest (c :: first) second (by rw [heq, List.cons_append]) hne

/-- Where an expression is cut out of a text that closes, both what is cut out and the rest close.
-/
theorem Closes.expression (h : Closes true edge text)
    (hrun : expression.reader.run text = some (found, rest)) :
    Closes false other found ∧ Closes true other rest := by
  obtain ⟨front, behind, hfront, rfl, hclose, hnearest⟩ := exists_of_run_expression hrun
  obtain ⟨back, hback, rfl⟩ := exists_of_run_close hclose
  have hopen : after true edge "\x7b\x7b" = other := rfl
  have hinside := h.behind
  rw [hopen] at hinside
  have hfound := hinside.behind
  rw [after_blanks hfront] at hfound
  refine ⟨closes_of_nearest hfound (by decide) id hnearest, ?_⟩
  have hbraces : ∀ edge, after true edge "\x7d\x7d" = other := by
    intro edge
    cases edge <;> rfl
  have hrest := hfound.behind.behind.behind
  rwa [hbraces] at hrest

end

/-! ### Conversion -/

section

variable {bare : Bool} {edge stronger : Edge} {text found rest : Text}

theorem closes_splice (hfound : Closes false other found) (hrest : Closes false other rest) :
    Closes false edge (splice found ++ rest) := by
  have hopen : Closes false edge "' . " := closes_of_not_mem (by decide)
  have hclose : ∀ edge, Closes false edge " . '" := fun _ => closes_of_not_mem (by decide)
  rw [splice, List.append_assoc, List.append_assoc]
  exact hopen.append ((hfound.anywhere _).append ((hclose _).append (hrest.anywhere _)))

theorem inside_close (text : Text) : inside ('\x7d' :: text) = '\x7d' :: inside text :=
  inside_plain rfl

/-- Where only an escaped apostrophe counts, the terms between the literals still end what is
closed. -/
theorem Closes.inside (h : Closes true edge text) (hle : edge ≤ stronger) :
    Closes false stronger (inside text) := by
  induction text using term.searchInduction generalizing edge stronger with
  | nil =>
    rw [inside_nil]
    trivial
  | plain c text hrun ih =>
    obtain ⟨hc, htext⟩ := h
    rw [inside_plain hrun]
    obtain ⟨-, hquote, hchar⟩ | ⟨hspecial, hchar⟩ := escapeChar_cases c
    · rw [hchar, List.singleton_append]
      have hnext : next true edge c ≤ next false stronger c :=
        next_le hle fun heq => absurd heq hquote
      refine ⟨fun hclose => ((hc hclose).mono hle).congr fun hhead => ?_, ih htext hnext⟩
      obtain ⟨more, rfl⟩ := List.head?_eq_some_iff.1 hhead
      rw [inside_close]
      rfl
    · rw [hchar]
      refine Closes.append (closes_of_not_mem ?_) (ih htext ?_)
      · obtain rfl | rfl := hspecial <;> decide
      · obtain rfl | rfl := hspecial <;> exact le_refl _
  | hit text found rest hrun ih =>
    rw [inside_hit hrun]
    obtain ⟨hidden, hread, rfl⟩ | ⟨name, hname, rfl, rfl⟩ := run_term_cases hrun
    · obtain ⟨hhidden, hrest⟩ := h.expression hread
      have hopen : Closes false other "(" := closes_of_not_mem (by decide)
      have hclose : ∀ edge, Closes false edge ")" := fun _ => closes_of_not_mem (by decide)
      refine closes_splice ?_ (ih hrest (le_refl other))
      exact (hopen.append (hhidden.anywhere _)).append (hclose _)
    · have hterm : '\x7d' ∉ '$' :: name := fun hmem =>
        (List.mem_cons.1 hmem).elim (by decide) fun hmem => absurd (hname.2 _ hmem) (by decide)
      have hrest := h.behind
      have hend : after true edge (Part.reference name).source = other := by
        rw [Part.source_reference, after_append, after_append, after_word hname.1 hname.2]
        rfl
      rw [hend] at hrest
      exact closes_splice (closes_of_not_mem hterm) (ih hrest (le_refl other))

theorem run_fixed_eq_none {c : Char} {dropped : Text} {hne : dropped ≠ []}
    (h : dropped.head? ≠ some c) (text : Text) :
    (Pattern.fixed dropped hne).reader.run (c :: text) = none := by
  have hbegins : (Pattern.fixed dropped hne).BeginsWith dropped := Pattern.after_beginsWith _ _ _
  refine hbegins.run_eq_none fun hprefix => h ?_
  obtain ⟨d, others, rfl⟩ := List.exists_cons_of_ne_nil hne
  rw [(List.cons_prefix_cons.1 hprefix).1]
  rfl

/-- A removal that ends in the state it began in keeps a text closing. -/
theorem Closes.remove_fixed {dropped : Text} {hne : dropped ≠ []} (h : Closes bare edge text)
    (hhead : dropped.head? ≠ some '\x7d') (hafter : ∀ edge, after bare edge dropped = other) :
    Closes bare edge ((Pattern.fixed dropped hne).remove text) := by
  unfold Pattern.remove
  induction text using (Pattern.fixed dropped hne).searchInduction generalizing edge with
  | nil =>
    rw [Pattern.replace_nil]
    trivial
  | plain c text hrun ih =>
    rw [Pattern.replace_cons_of_run_eq_none hrun]
    refine ⟨fun hc => (h.1 hc).congr fun hclose => ?_, ih h.2⟩
    obtain ⟨more, rfl⟩ := List.head?_eq_some_iff.1 hclose
    rw [Pattern.replace_cons_of_run_eq_none (run_fixed_eq_none hhead more)]
    rfl
  | hit text value rest hrun ih =>
    rw [Pattern.replace_of_run_eq_some hrun, List.nil_append]
    obtain ⟨_, left, hliteral, hpure⟩ := Reader.run_bind_eq_some_iff.1 hrun
    obtain ⟨-, rfl⟩ := Prod.mk.inj (Option.some.inj hpure)
    rw [Reader.run_literal_eq_some_iff.1 hliteral] at h
    have hrest := h.behind
    rw [hafter] at hrest
    exact ih (hrest.anywhere edge)

theorem Closes.dropEmpty (h : Closes false edge text) : Closes false edge (dropEmpty text) := by
  have hbefore : ∀ edge, after false edge "'' . " = other := by
    intro edge
    cases edge <;> rfl
  have hafter : ∀ edge, after false edge " . ''" = other := by
    intro edge
    cases edge <;> rfl
  exact (h.remove_fixed (by decide) hbefore).remove_fixed (by decide) hafter

end

/-! ### The last character -/

def IsLast (c : Char) : Prop := Text.isWord c = true ∨ c = ')'

theorem IsLast.not_mem {c : Char} (h : IsLast c) {word : Text}
    (hword : ∀ d ∈ word, d = '\'' ∨ d = ' ' ∨ d = '.') : c ∉ word := by
  intro hmem
  obtain rfl | rfl | rfl := hword c hmem
  · exact absurd h (by unfold IsLast; decide)
  · exact absurd h (by unfold IsLast; decide)
  · exact absurd h (by unfold IsLast; decide)

/-- There is one literal only, or the last one stands behind a term. -/
theorem inside_cases (text : Text) : (∃ literal, inside text = escape literal) ∨
    ∃ front c literal, IsLast c ∧ inside text = front ++ c :: (" . '" ++ escape literal) := by
  induction text using term.searchInduction with
  | nil => exact .inl ⟨[], inside_nil⟩
  | plain c text hrun ih =>
    rw [inside_plain hrun]
    obtain ⟨literal, heq⟩ | ⟨front, d, literal, hd, heq⟩ := ih
    · exact .inl ⟨c :: literal, by rw [heq]; rfl⟩
    · exact .inr ⟨escapeChar c ++ front, d, literal, hd, by rw [heq, List.append_assoc]⟩
  | hit text found rest hrun ih =>
    rw [inside_hit hrun]
    obtain ⟨literal, heq⟩ | ⟨front, d, literal, hd, heq⟩ := ih
    · obtain ⟨front, d, rfl, hd⟩ : ∃ front d, found = front ++ [d] ∧ IsLast d := by
        obtain ⟨hidden, -, rfl⟩ | ⟨name, hname, rfl, -⟩ := run_term_cases hrun
        · exact ⟨"(" ++ hidden, ')', rfl, .inr rfl⟩
        · obtain ⟨front, d, rfl⟩ := List.eq_nil_or_concat name |>.resolve_left hname.1
          rw [List.concat_eq_append] at hname ⊢
          exact ⟨'$' :: front, d, rfl,
            .inl (hname.2 d (List.mem_append_right front List.mem_cons_self))⟩
      refine .inr ⟨"' . " ++ front, d, literal, hd, ?_⟩
      rw [heq, splice]
      simp only [List.append_assoc]
      rfl
    · exact .inr ⟨splice found ++ front, d, literal, hd, by rw [heq, List.append_assoc]⟩

theorem dropEmpty_quote (literal : Text) : dropEmpty (quote literal) = quote literal := by
  rw [dropEmpty_eq, remove_before_quote]
  exact Pattern.replace_eq_self _ (emptyAfter_beginsWith.passes (misses_after_quote literal))

/-- Nothing is taken out across a character that is not in it. -/
theorem remove_append_cons {c : Char} {dropped : Text} {hne : dropped ≠ []} (hc : c ∉ dropped)
    (front rest : Text) :
    (Pattern.fixed dropped hne).remove (front ++ c :: rest) =
      (Pattern.fixed dropped hne).remove front ++ c :: (Pattern.fixed dropped hne).remove rest := by
  have hstops : (Pattern.fixed dropped hne).reader.StopsAt (c :: rest) :=
    (Reader.stopsAt_literal hc).bind fun _ => Reader.stopsAt_pure _
  have hnone : (Pattern.fixed dropped hne).reader.run (c :: rest) = none :=
    run_fixed_eq_none (fun hhead => hc (List.mem_of_mem_head? hhead)) rest
  rw [Pattern.remove, Pattern.replace_append_stop hstops, Pattern.replace_cons_of_run_eq_none hnone]
  rfl

/-- The last literal goes if it is empty, with the dot before it. -/
theorem dropEmpty_last {c : Char} (h : IsLast c) (front literal : Text) :
    ∃ kept, dropEmpty (front ++ c :: (" . " ++ quote literal)) =
      kept ++ c :: if literal = [] then [] else (" . " : Text) ++ quote literal := by
  have hdot : Text.Misses "'' . " " . " (quote literal) := Text.misses_of_not_mem (by decide)
  have hbefore : emptyBefore.remove (front ++ c :: (" . " ++ quote literal)) =
      emptyBefore.remove front ++ c :: (" . " ++ quote literal) := by
    have hpast :
        emptyBefore.remove (" . " ++ quote literal) = " . " ++ emptyBefore.remove (quote literal) :=
      Pattern.replace_append (emptyBefore_beginsWith.passes hdot) _
    rw [emptyBefore, remove_append_cons (h.not_mem (by decide)), ← emptyBefore, hpast,
      remove_before_quote]
  have hafter : emptyAfter.remove (" . " ++ quote literal) =
      if literal = [] then [] else (" . " : Text) ++ quote literal :=
    @Runs.remove_after_further [] (by simp) literal
  refine ⟨emptyAfter.remove (emptyBefore.remove front), ?_⟩
  rw [dropEmpty_eq, hbefore, emptyAfter, remove_append_cons (h.not_mem (by decide)),
    ← emptyAfter, hafter]

/-- A string expression ends in an apostrophe, or as a term does. -/
theorem exists_dropEmpty_inside (text : Text) :
    ∃ front c, dropEmpty ('\'' :: (inside text ++ ['\''])) = front ++ [c] ∧
    (IsLast c ∨ c = '\'') := by
  obtain ⟨literal, heq⟩ | ⟨front, c, literal, hc, heq⟩ := inside_cases text
  · refine ⟨'\'' :: escape literal, '\'', ?_, .inr rfl⟩
    rw [heq, ← quote_eq, dropEmpty_quote, quote_eq, List.cons_append]
  · have hwhole :
        '\'' :: (inside text ++ ['\'']) = ('\'' :: front) ++ c :: (" . " ++ quote literal) := by
      rw [heq, quote_eq]
      simp
    obtain ⟨kept, hkept⟩ := dropEmpty_last hc ('\'' :: front) literal
    rw [hwhole, hkept]
    by_cases hempty : literal = []
    · exact ⟨kept, c, by rw [if_pos hempty], .inl hc⟩
    · refine ⟨kept ++ c :: (" . '" ++ escape literal), '\'', ?_, .inr rfl⟩
      rw [if_neg hempty, quote_eq]
      simp

theorem isEnd_after_concat {c : Char} (h : IsLast c ∨ c = '\'') (edge : Edge) (front : Text) :
    (after true edge (front ++ [c])).IsEnd := by
  rw [after_append]
  obtain (hword | rfl) | rfl := h
  · exact .inl (next_of_isWord hword)
  · exact .inr rfl
  · exact .inr rfl

/-! ### The whole -/

structure IsNeat (text : Text) : Prop where
  no_mark : mark ∉ text
  closes : Closes true other text

/-- A neat text becomes a neat string expression, behind which an expression may be closed. -/
theorem IsNeat.stringOfMixed {text : Text} (h : IsNeat text) :
    ∃ out, stringOfMixed text = .ok out ∧ IsNeat out ∧
    (∀ edge, (after true edge out).IsEnd) ∧ ('<' ∉ text → '<' ∉ out) := by
  obtain ⟨front, c, hlast, hc⟩ := exists_dropEmpty_inside text
  have hinside : Closes false other ('\'' :: (inside text ++ ['\''])) := by
    have hquote : ∀ edge, Closes false edge ['\''] := fun _ => closes_of_not_mem (by decide)
    exact (hquote other).append ((h.closes.inside (le_refl other)).append (hquote _))
  have hmem : ∀ d ∉ ['\'', '\\', ' ', '.', '(', ')', '$'], d ∉ text →
      d ∉ dropEmpty ('\'' :: (inside text ++ ['\''])) := by
    intro d hd htext
    refine Pattern.not_mem_remove (Pattern.not_mem_remove fun hmem => ?_)
    have hquote : d ≠ '\'' := fun heq => hd (heq ▸ List.mem_cons_self)
    simp [hquote, not_mem_inside hd htext] at hmem
  refine ⟨_, stringOfMixed_inside h.no_mark h.closes.no_empty, ⟨?_, ?_⟩, fun edge => ?_,
    hmem _ (by decide)⟩
  · exact hmem _ (by decide) h.no_mark
  · exact hinside.dropEmpty.mono (le_refl other) fun hbare => by cases hbare
  · rw [hlast]
    exact isEnd_after_concat hc edge front

end LazyEmbed.Template
