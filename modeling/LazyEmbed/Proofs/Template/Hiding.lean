import LazyEmbed.Proofs.Template.Quoting
import LazyEmbed.Proofs.Text.Yielding

/-!
# Hidden expressions are found again

A token is found by the marks around its letters, and there is at least one letter. Where every
expression has a character, each token is one that was made of an expression, and is read back. An
empty expression makes two marks with nothing between them: the first of the two is passed over and
stays, and the second is taken for the beginning of whatever follows.
-/

namespace LazyEmbed.Template.MixedContent

/-- No mark but those of tokens, and every token has letters. -/
inductive IsHidden : Text → Prop
  | nil : IsHidden []
  | plain {c : Char} {text : Text} (hc : c ≠ mark) (htext : IsHidden text) : IsHidden (c :: text)
  | token {found rest : Text} (hne : found ≠ []) (hfound : mark ∉ found) (hrest : IsHidden rest) :
      IsHidden (hide found ++ rest)

variable {text first rest : Text}

theorem IsHidden.append (h : IsHidden first) (hrest : IsHidden rest) :
    IsHidden (first ++ rest) := by
  induction h with
  | nil => exact hrest
  | plain hc htext ih => exact .plain hc ih
  | token hne hfound _ ih =>
    rw [List.append_assoc]
    exact .token hne hfound ih

theorem isHidden_of_not_mem (h : mark ∉ text) : IsHidden text := by
  induction text with
  | nil => exact .nil
  | cons c text ih =>
    obtain ⟨hc, htext⟩ := not_or.1 (mt List.mem_cons.2 h)
    exact .plain (Ne.symm hc) (ih htext)

theorem IsHidden.tail {c : Char} (h : IsHidden (c :: text)) (hc : c ≠ mark) : IsHidden text := by
  generalize hwhole : c :: text = whole at h
  cases h with
  | nil => cases hwhole
  | plain _ htext =>
    obtain ⟨-, rfl⟩ := List.cons.inj hwhole
    exact htext
  | token =>
    rw [hide_eq, List.cons_append] at hwhole
    exact absurd (List.cons.inj hwhole).1 hc

theorem IsHidden.of_append (h : IsHidden (first ++ rest)) (hfirst : mark ∉ first) :
    IsHidden rest := by
  induction first with
  | nil => exact h
  | cons c first ih =>
    obtain ⟨hc, hothers⟩ := not_or.1 (mt List.mem_cons.2 hfirst)
    exact ih (h.tail (Ne.symm hc)) hothers

/-! ### Hiding -/

theorem yields_expression {d : Char} : expression.reader.Yields d (d ∉ ·) :=
  Pattern.yields_after (Reader.Yields.after fun _ =>
    (Reader.yields_shortest _ _).bind fun _ hfound => Reader.yields_pure hfound)

/-- Hiding leaves only marks the program has put there itself. -/
theorem isHidden_replace (htext : mark ∉ text) (h : ∀ found ∈ expression.hits text, found ≠ []) :
    IsHidden (expression.replace hide text) := by
  induction text using expression.searchInduction with
  | nil =>
    rw [Pattern.replace_nil]
    exact .nil
  | plain c text hrun ih =>
    obtain ⟨hc, hothers⟩ := not_or.1 (mt List.mem_cons.2 htext)
    rw [Pattern.hits_cons_of_run_eq_none hrun] at h
    rw [Pattern.replace_cons_of_run_eq_none hrun]
    exact .plain (Ne.symm hc) (ih hothers h)
  | hit text found rest hrun ih =>
    rw [Pattern.hits_of_run_eq_some hrun] at h
    obtain ⟨hfound, hothers⟩ := List.forall_mem_cons.1 h
    rw [Pattern.replace_of_run_eq_some hrun]
    exact .token hfound (yields_expression htext hrun) (ih (Reader.not_mem_rest htext hrun) hothers)

/-- Where an expression is empty, two marks touch, and before them everything is as it should be. -/
theorem exists_replace_of_empty (htext : mark ∉ text) (h : [] ∈ expression.hits text) :
    ∃ before after, IsHidden before ∧
      expression.replace hide text = before ++ mark :: mark :: after := by
  induction text using expression.searchInduction with
  | nil => simp at h
  | plain c text hrun ih =>
    obtain ⟨hc, hothers⟩ := not_or.1 (mt List.mem_cons.2 htext)
    rw [Pattern.hits_cons_of_run_eq_none hrun] at h
    obtain ⟨before, after, hbefore, heq⟩ := ih hothers h
    exact ⟨c :: before, after, .plain (Ne.symm hc) hbefore, by
      rw [Pattern.replace_cons_of_run_eq_none hrun, heq, List.cons_append]⟩
  | hit text found rest hrun ih =>
    rw [Pattern.hits_of_run_eq_some hrun] at h
    rw [Pattern.replace_of_run_eq_some hrun]
    by_cases hempty : found = []
    · exact ⟨[], expression.replace hide rest, .nil, by rw [hempty]; rfl⟩
    · have hlater := (List.mem_cons.1 h).resolve_left (Ne.symm hempty)
      obtain ⟨before, after, hbefore, heq⟩ := ih (Reader.not_mem_rest htext hrun) hlater
      exact ⟨hide found ++ before, after, .token hempty (yields_expression htext hrun) hbefore, by
        rw [heq, List.append_assoc]⟩

/-! ### Quoting and variables -/

theorem mark_not_mem_escapeChar {c : Char} (h : c ≠ mark) : mark ∉ escapeChar c := by
  have hbackslash : mark ≠ '\\' := by decide
  by_cases hfirst : c = '\\'
  · rw [hfirst]
    decide
  by_cases hsecond : c = '\''
  · rw [hsecond]
    decide
  · rw [escapeChar_of_ne hfirst hsecond]
    simpa using Ne.symm h

theorem isHidden_escape (h : IsHidden text) : IsHidden (escape text) := by
  induction h with
  | nil => exact .nil
  | @plain c text hc _ ih =>
    have hcons : escape (c :: text) = escapeChar c ++ escape text := List.flatMap_cons
    rw [hcons]
    exact (isHidden_of_not_mem (mark_not_mem_escapeChar hc)).append ih
  | @token found rest hne hfound _ ih =>
    rw [escape_append, escape_hide]
    exact .token hne hfound ih

theorem isHidden_quote (h : IsHidden text) : IsHidden (quote text) := by
  rw [quote_eq]
  exact .plain (by decide) ((isHidden_escape h).append (isHidden_of_not_mem (by decide)))

theorem mark_not_mem_splice {term : Text} (h : mark ∉ term) : mark ∉ splice term := by
  have hopen : mark ∉ ("' . " : Text) := by decide
  have hclose : mark ∉ (" . '" : Text) := by decide
  unfold splice
  simp only [List.mem_append, not_or]
  exact ⟨⟨hopen, h⟩, hclose⟩

/-- A variable is a name behind its sign and between its braces. -/
theorem run_braced_iff {found : Text} : braced.reader.run text = some (found, rest) ↔
    ∃ name, IsName name ∧ found = '$' :: name ∧ text = "\x7b$" ++ (name ++ '\x7d' :: rest) := by
  constructor
  · intro h
    obtain ⟨_, behind, hopen, hrun⟩ := Reader.run_bind_eq_some_iff.1 h
    obtain ⟨name, left, hname, hrun⟩ := Reader.run_bind_eq_some_iff.1 hrun
    obtain ⟨_, left', hclose, hpure⟩ := Reader.run_bind_eq_some_iff.1 hrun
    obtain ⟨rfl, rfl⟩ : '$' :: name = found ∧ left' = rest := by simpa using hpure
    obtain ⟨rfl, hne, hall⟩ := Reader.eq_append_of_run_many1 hname
    refine ⟨name, ⟨hne, hall⟩, rfl, ?_⟩
    rw [Reader.run_literal_eq_some_iff.1 hopen, Reader.run_literal_eq_some_iff.1 hclose]
    rfl
  · rintro ⟨name, hname, rfl, rfl⟩
    have hread := Reader.run_many1_of_all hname.1 hname.2 (d := '\x7d') (by decide) rest
    rw [braced, Pattern.run_after_append]
    simp only [Reader.run_bind, hread, Option.bind_some]
    rfl

/-- What a variable takes off a text has no mark. -/
theorem exists_of_run_braced {found : Text} (h : braced.reader.run text = some (found, rest)) :
    mark ∉ found ∧ ∃ taken, mark ∉ taken ∧ text = taken ++ rest := by
  obtain ⟨name, hname, rfl, rfl⟩ := run_braced_iff.1 h
  have hmark : mark ∉ name := fun hmem => absurd (hname.2 mark hmem) (by decide)
  have hsign : mark ≠ '$' := by decide
  refine ⟨by simp [hsign, hmark], "\x7b$" ++ (name ++ "\x7d"), ?_, ?_⟩
  · have hfixed : mark ∉ ("\x7b$" : Text) ∧ mark ∉ ("\x7d" : Text) := by decide
    simp only [List.mem_append, not_or]
    exact ⟨hfixed.1, hmark, hfixed.2⟩
  · rw [List.append_assoc, List.append_assoc]
    rfl

/-- A variable does not reach into a token, and a token holds none. -/
theorem isHidden_replace_braced (h : IsHidden text) : IsHidden (braced.replace splice text) := by
  have hbegins : braced.BeginsWith "\x7b$" := Pattern.after_beginsWith _ _ _
  suffices hlength : ∀ n, ∀ text : Text, text.length ≤ n → IsHidden text →
      IsHidden (braced.replace splice text) from hlength _ text (Nat.le_refl _) h
  intro n
  induction n with
  | zero =>
    intro text hlength _
    rw [List.length_eq_zero_iff.1 (Nat.le_zero.1 hlength), Pattern.replace_nil]
    exact .nil
  | succ n ih =>
    intro text hlength htext
    cases htext with
    | nil =>
      rw [Pattern.replace_nil]
      exact .nil
    | @plain c text hc htext =>
      cases hrun : braced.reader.run (c :: text) with
      | none =>
        rw [Pattern.replace_cons_of_run_eq_none hrun]
        exact .plain hc (ih text (by simpa using hlength) htext)
      | some found =>
        obtain ⟨hfound, taken, htaken, heq⟩ := exists_of_run_braced hrun
        have hshort := braced.consumes hrun
        rw [Pattern.replace_of_run_eq_some hrun]
        refine (isHidden_of_not_mem (mark_not_mem_splice hfound)).append (ih found.2 (by omega) ?_)
        exact (heq ▸ IsHidden.plain hc htext : IsHidden (taken ++ found.2)).of_append htaken
    | @token found rest hne hfound hrest =>
      have hmisses : Text.Misses ('{' :: ['$']) (hide found) rest :=
        Text.misses_of_not_mem (openBrace_not_mem_hide found)
      have hpasses := hbegins.passes hmisses
      have hshort : rest.length ≤ n := by
        simp only [hide_eq, List.cons_append, List.length_cons, List.length_append] at hlength
        omega
      rw [Pattern.replace_append hpasses]
      exact .token hne hfound (ih rest hshort hrest)

theorem stopsAt_mark (stop : Text) : braced.reader.StopsAt (mark :: stop) :=
  (Reader.stopsAt_literal (by decide)).bind fun _ =>
    (Reader.stopsAt_many1 (by decide)).bind fun _ =>
    (Reader.stopsAt_literal (by decide)).bind fun _ => Reader.stopsAt_pure _

theorem replace_braced_marks (before after : Text) :
    braced.replace splice (before ++ mark :: mark :: after) =
      braced.replace splice before ++ mark :: mark :: braced.replace splice after := by
  have hnone : ∀ rest : Text, braced.reader.run (mark :: rest) = none := fun rest => by
    have hbegins : braced.BeginsWith "\x7b$" := Pattern.after_beginsWith _ _ _
    exact hbegins.run_eq_none fun hbegins => absurd (List.cons_prefix_cons.1 hbegins).1 (by decide)
  rw [Pattern.replace_append_stop (stopsAt_mark _), Pattern.replace_cons_of_run_eq_none (hnone _),
    Pattern.replace_cons_of_run_eq_none (hnone _)]

/-! ### Finding again -/

def restore : Text → Except TokenFault Text :=
  token.replaceM fun letters => (reveal letters).map fun found => splice ("(" ++ found ++ ")")

theorem run_token_of_ne {c : Char} (h : c ≠ mark) (text : Text) :
    token.reader.run (c :: text) = none := by
  have hbegins : token.BeginsWith [mark] := Pattern.after_beginsWith _ _ _
  exact hbegins.run_eq_none fun hbegins => h (List.cons_prefix_cons.1 hbegins).1.symm

/-- The first of two marks is no token, since nothing is between the two. -/
theorem run_token_marks (text : Text) : token.reader.run (mark :: mark :: text) = none := by
  have hopen : mark :: mark :: text = [mark] ++ mark :: text := rfl
  have hnone : (Reader.many1 (· ≠ mark)).run (mark :: text) = none :=
    Reader.run_many1_cons_eq_none (by decide) text
  rw [hopen, token, Pattern.run_after_append]
  simp only [Reader.run_bind, hnone, Option.bind_none]

/-- A hidden text is restored to one without the mark, whatever stands behind it. -/
theorem exists_restore (h : IsHidden text) :
    ∃ out, mark ∉ out ∧ ∀ rest, restore (text ++ rest) = (restore rest).map (out ++ ·) := by
  induction h with
  | nil =>
    refine ⟨[], List.not_mem_nil, fun rest => ?_⟩
    rw [List.nil_append]
    cases restore rest <;> rfl
  | @plain c text hc _ ih =>
    obtain ⟨out, hout, hrestore⟩ := ih
    refine ⟨c :: out, by simp [Ne.symm hc, hout], fun rest => ?_⟩
    rw [restore, List.cons_append, Pattern.replaceM_cons_of_run_eq_none _ (run_token_of_ne hc _),
      ← restore, hrestore]
    cases restore rest <;> rfl
  | @token found text hne hfound _ ih =>
    obtain ⟨out, hout, hrestore⟩ := ih
    have hterm : mark ∉ ("(" ++ found ++ ")" : Text) := by
      have hbrackets : mark ≠ '(' ∧ mark ≠ ')' := by decide
      simp [hbrackets, hfound]
    refine ⟨splice ("(" ++ found ++ ")") ++ out, fun hmem => ?_, fun rest => ?_⟩
    · exact (List.mem_append.1 hmem).elim (mark_not_mem_splice hterm) hout
    · rw [restore, List.append_assoc, Pattern.replaceM_of_run_eq_some _ (run_token hne _),
        ← restore, hrestore, reveal_hidden]
      cases restore rest <;> simp [Except.map, bind, Except.bind, pure, Except.pure]

theorem mem_remove_fixed {c : Char} {old : Text} {hne : old ≠ []} (hc : c ∉ old) (h : c ∈ text) :
    c ∈ (Pattern.fixed old hne).remove text := by
  unfold Pattern.remove
  induction text using (Pattern.fixed old hne).searchInduction with
  | nil => simp at h
  | plain d text hrun ih =>
    rw [Pattern.replace_cons_of_run_eq_none hrun]
    exact (List.mem_cons.1 h).elim (fun heq => heq ▸ List.mem_cons_self) fun hmem =>
      List.mem_cons_of_mem d (ih hmem)
  | hit text value rest hrun ih =>
    obtain ⟨_, left, hliteral, hpure⟩ := Reader.run_bind_eq_some_iff.1 hrun
    obtain rfl : left = rest := by simpa using hpure
    rw [Reader.run_literal_eq_some_iff.1 hliteral] at h
    rw [Pattern.replace_of_run_eq_some hrun]
    exact ih ((List.mem_append.1 h).resolve_left hc)

theorem mark_mem_dropEmpty_iff : mark ∈ dropEmpty text ↔ mark ∈ text := by
  constructor
  · intro hmem
    by_contra hnot
    exact Pattern.not_mem_remove (Pattern.not_mem_remove hnot) hmem
  · intro hmem
    exact mem_remove_fixed (by decide) (mem_remove_fixed (by decide) hmem)

theorem stringOfMixed_eq (text : Text) : stringOfMixed text =
    (restore (braced.replace splice (quote (expression.replace hide text)))).map dropEmpty := rfl

end MixedContent

open MixedContent

variable {text : Text}

/-- Mixed content without an empty expression becomes a string expression without a mark. -/
theorem lands_stringOfMixed (htext : mark ∉ text) (h : ∀ found ∈ expression.hits text, found ≠ []) :
    Lands (mark ∉ ·) (fun _ => False) (stringOfMixed text) := by
  have hspliced := isHidden_replace_braced (isHidden_quote (isHidden_replace htext h))
  obtain ⟨out, hout, hrestore⟩ := exists_restore hspliced
  have hwhole := hrestore []
  rw [List.append_nil] at hwhole
  rw [stringOfMixed_eq, hwhole, restore, Pattern.replaceM_nil]
  rw [← mark_mem_dropEmpty_iff] at hout
  simpa [Lands, Except.map] using hout

/-- An empty expression leaves a mark, if not worse. -/
theorem mark_mem_of_empty (htext : mark ∉ text) (h : [] ∈ expression.hits text) {out : Text}
    (hout : stringOfMixed text = .ok out) : mark ∈ out := by
  obtain ⟨before, after, hbefore, hreplace⟩ := exists_replace_of_empty htext h
  have hquote : quote (expression.replace hide text) =
      ('\'' :: escape before) ++ mark :: mark :: (escape after ++ ['\'']) := by
    have hmark : escape (mark :: mark :: after) = mark :: mark :: escape after := rfl
    rw [quote_eq, hreplace, escape_append, hmark]
    simp
  have hopened : IsHidden (braced.replace splice ('\'' :: escape before)) :=
    isHidden_replace_braced (.plain (by decide) (isHidden_escape hbefore))
  obtain ⟨start, -, hrestore⟩ := exists_restore hopened
  rw [stringOfMixed_eq, hquote, replace_braced_marks, hrestore, restore,
    Pattern.replaceM_cons_of_run_eq_none _ (run_token_marks _), ← restore] at hout
  cases hrest : restore (mark :: braced.replace splice (escape after ++ ['\''])) with
  | error fault =>
    rw [hrest] at hout
    cases hout
  | ok others =>
    rw [hrest] at hout
    obtain rfl := Except.ok.inj hout
    rw [mark_mem_dropEmpty_iff]
    simp

/-- Mixed content becomes a string expression without a mark exactly if no expression in it is
empty. -/
theorem exists_stringOfMixed_iff (htext : mark ∉ text) :
    (∃ out, stringOfMixed text = .ok out ∧ mark ∉ out) ↔
      ∀ found ∈ expression.hits text, found ≠ [] := by
  constructor
  · rintro ⟨out, hout, hmark⟩ found hfound rfl
    exact hmark (mark_mem_of_empty htext hfound hout)
  · intro h
    have hlands := lands_stringOfMixed htext h
    cases hout : stringOfMixed text with
    | error fault =>
      rw [hout] at hlands
      exact absurd hlands not_false
    | ok out =>
      rw [hout] at hlands
      exact ⟨out, rfl, hlands⟩

end LazyEmbed.Template
