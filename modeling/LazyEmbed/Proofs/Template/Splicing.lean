import LazyEmbed.Proofs.Template.Hiding

/-!
# Mixed content in one pass

Expressions are hidden, the rest is quoted, variables are found in what is quoted, and then the
expressions are brought back. All this comes to one search for expressions and variables: each
becomes a term between the literals, and every other character is escaped where it stands
(`stringOfMixed_inside`). Any text may be mixed content here, whatever braces it has, as long as no
expression in it is empty.
-/

namespace LazyEmbed.Template.MixedContent

variable {text rest found : Text} {c : Char}

def term : Pattern Text where
  reader := (do let found ← expression.reader; pure ("(" ++ found ++ ")")).orElse braced.reader
  consumes := (expression.consumes.bind _).orElse braced.consumes

/-- What mixed content becomes between the outer quotes, before empty literals are dropped. -/
def inside (text : Text) : Text :=
  (term.pieces text).flatMap fun
    | .plain c => escapeChar c
    | .hit found => splice found

theorem run_term_eq_none_iff : term.reader.run text = none ↔
    expression.reader.run text = none ∧ braced.reader.run text = none := by
  rw [term, Reader.run_orElse, Option.or_eq_none_iff, Reader.run_bind]
  cases expression.reader.run text <;> simp

theorem run_term_cases (h : term.reader.run text = some (found, rest)) :
    (∃ hidden, expression.reader.run text = some (hidden, rest) ∧ found = "(" ++ hidden ++ ")") ∨
      ∃ name, IsName name ∧ found = '$' :: name ∧ text = (Part.reference name).source ++ rest := by
  rw [term, Reader.run_orElse, Option.or_eq_some_iff] at h
  obtain hread | ⟨-, hread⟩ := h
  · obtain ⟨hidden, left, hexpression, hpure⟩ := Reader.run_bind_eq_some_iff.1 hread
    obtain ⟨rfl, rfl⟩ := Prod.mk.inj (Option.some.inj hpure)
    exact .inl ⟨hidden, hexpression, rfl⟩
  · obtain ⟨name, hname, rfl, rfl⟩ := run_braced_iff.1 hread
    refine .inr ⟨name, hname, rfl, ?_⟩
    rw [Part.source_reference, List.append_assoc, List.append_assoc]
    rfl

theorem inside_nil : inside [] = [] := by rw [inside, Pattern.pieces_nil, List.flatMap_nil]

theorem inside_plain (h : term.reader.run (c :: text) = none) :
    inside (c :: text) = escapeChar c ++ inside text := by
  rw [inside, Pattern.pieces_cons_of_run_eq_none h, List.flatMap_cons, ← inside]

theorem inside_hit (h : term.reader.run text = some (found, rest)) :
    inside text = splice found ++ inside rest := by
  rw [inside, Pattern.pieces_of_run_eq_some h, List.flatMap_cons, ← inside]

/-- A character that the text does not have is in what it becomes only if a pass writes it. -/
theorem not_mem_inside {d : Char} (hd : d ∉ ['\'', '\\', ' ', '.', '(', ')', '$']) (h : d ∉ text) :
    d ∉ inside text := by
  have hsplice : ∀ {found : Text}, d ∉ found → d ∉ splice found := by
    intro found hfound
    simp only [List.mem_cons, List.not_mem_nil, or_false, not_or] at hd
    unfold splice
    simp [hfound, hd]
  induction text using term.searchInduction with
  | nil =>
    rw [inside_nil]
    exact List.not_mem_nil
  | plain c text hrun ih =>
    obtain ⟨hc, hothers⟩ := not_or.1 (mt List.mem_cons.2 h)
    rw [inside_plain hrun, List.mem_append, not_or]
    refine ⟨fun hmem => ?_, ih hothers⟩
    have hescaped : d ∈ escape [c] := by rwa [escape, List.flatMap_singleton]
    obtain hsame | rfl := mem_escape hescaped
    · exact hc (List.mem_singleton.1 hsame)
    · exact hd (by decide)
  | hit text found rest hrun ih =>
    rw [inside_hit hrun, List.mem_append, not_or]
    refine ⟨hsplice ?_, ih (Reader.not_mem_rest h hrun)⟩
    simp only [List.mem_cons, List.not_mem_nil, or_false, not_or] at hd
    obtain ⟨hidden, hread, rfl⟩ | ⟨name, -, rfl, rfl⟩ := run_term_cases hrun
    · have hhidden : d ∉ hidden := yields_expression h hread
      simp [hhidden, hd]
    · have hname : d ∉ name := fun hmem => h (by simp [hmem])
      simp [hname, hd]

/-- Characters that no pass writes are found in the quoted text only where they stood before. -/
theorem prefix_of_prefix_escape {word : Text} (hword : ∀ c ∈ word, c ≠ '\\' ∧ c ≠ '\'' ∧ c ≠ mark)
    (h : word <+: escape (expression.replace hide text) ++ ['\'']) : word <+: text := by
  induction word generalizing text with
  | nil => exact List.nil_prefix
  | cons d word ih =>
    obtain ⟨⟨hbackslash, hquote, hmark⟩, hothers⟩ := List.forall_mem_cons.1 hword
    have hhead : ∀ {e : Char} {behind : Text}, d :: word <+: e :: behind → d = e :=
      fun hprefix => (List.cons_prefix_cons.1 hprefix).1
    cases hrun : expression.reader.run text with
    | some hit =>
      rw [Pattern.replace_of_run_eq_some hrun, escape_append, escape_hide, hide_eq] at h
      exact absurd (hhead h) hmark
    | none =>
      cases text with
      | nil =>
        rw [Pattern.replace_nil] at h
        exact absurd (hhead h) hquote
      | cons c text =>
        rw [Pattern.replace_cons_of_run_eq_none hrun, escape, List.flatMap_cons, ← escape] at h
        by_cases hspecial : c = '\\' ∨ c = '\''
        · obtain rfl | rfl := hspecial <;> exact absurd (hhead h) hbackslash
        · obtain ⟨hfirst, hsecond⟩ := not_or.1 hspecial
          rw [escapeChar_of_ne hfirst hsecond] at h
          obtain ⟨rfl, hbehind⟩ := List.cons_prefix_cons.1 h
          exact List.cons_prefix_cons.2 ⟨rfl, ih hothers hbehind⟩

/-- Where a text begins with no variable, it does not once it is quoted. -/
theorem passes_escapeChar (h : braced.reader.run (c :: text) = none) :
    braced.Passes (escapeChar c) (escape (expression.replace hide text) ++ ['\'']) := by
  have hbegins : braced.BeginsWith "\x7b$" := Pattern.after_beginsWith _ _ _
  by_cases hc : c = '\x7b'
  · subst hc
    refine Pattern.passes_cons ?_ (Pattern.passes_nil _ _)
    rw [List.nil_append, Option.eq_none_iff_forall_ne_some]
    rintro ⟨found, rest⟩ hread
    obtain ⟨name, hname, -, hwhole⟩ := run_braced_iff.1 hread
    have hprefix : '$' :: (name ++ ['\x7d']) <+: escape (expression.replace hide text) ++ ['\''] :=
      ⟨rest, by rw [(List.cons.inj hwhole).2, List.cons_append, List.append_assoc]; rfl⟩
    have hclean : ∀ d ∈ '$' :: (name ++ ['\x7d']), d ≠ '\\' ∧ d ≠ '\'' ∧ d ≠ mark := by
      intro d hd
      simp only [List.mem_cons, List.mem_append, List.not_mem_nil, or_false] at hd
      obtain rfl | hd | rfl := hd
      · decide
      · have hword := hname.2 d hd
        refine ⟨?_, ?_, ?_⟩ <;> (rintro rfl; exact absurd hword (by decide))
      · decide
    obtain ⟨behind, rfl⟩ := prefix_of_prefix_escape hclean hprefix
    have hvariable :
        braced.reader.run ("\x7b$" ++ (name ++ '\x7d' :: behind)) = some ('$' :: name, behind) :=
      run_braced_iff.2 ⟨name, hname, rfl, rfl⟩
    have hsame :
        ("\x7b$" : Text) ++ (name ++ '\x7d' :: behind) =
          '\x7b' :: ('$' :: (name ++ ['\x7d']) ++ behind) := by
      simp
    rw [hsame, h] at hvariable
    cases hvariable
  · refine hbegins.passes (Text.misses_of_not_mem fun hmem => ?_)
    unfold escapeChar at hmem
    split at hmem
    · exact absurd hmem (by decide)
    · exact absurd hmem (by decide)
    · exact hc (List.mem_singleton.1 hmem).symm

theorem restore_hit {term : Text} (hne : found ≠ []) (h : restore rest = .ok term) :
    restore (hide found ++ rest) = .ok (splice ("(" ++ found ++ ")") ++ term) := by
  rw [restore, Pattern.replaceM_of_run_eq_some _ (run_token hne rest), reveal_hidden, ← restore, h]
  rfl

theorem restore_append (htext : mark ∉ text) {term : Text} (h : restore rest = .ok term) :
    restore (text ++ rest) = .ok (text ++ term) := by
  have hbegins : token.BeginsWith [mark] := Pattern.after_beginsWith _ _ _
  rw [restore, Pattern.replaceM_append _ (hbegins.passes (Text.misses_of_not_mem htext)), ← restore,
    h]
  rfl

/-- What was hidden, escaped and spliced comes back as the inside of the ternary. -/
theorem restore_replace (htext : mark ∉ text) (h : ∀ found ∈ expression.hits text, found ≠ []) :
    restore (braced.replace splice (escape (expression.replace hide text) ++ ['\''])) =
      .ok (inside text ++ ['\'']) := by
  have hbegins : braced.BeginsWith "\x7b$" := Pattern.after_beginsWith _ _ _
  induction text using term.searchInduction with
  | nil =>
    rw [Pattern.replace_nil, inside_nil]
    decide +kernel
  | plain c text hrun ih =>
    obtain ⟨hexpression, hbraced⟩ := run_term_eq_none_iff.1 hrun
    obtain ⟨hc, hothers⟩ := not_or.1 (mt List.mem_cons.2 htext)
    rw [Pattern.hits_cons_of_run_eq_none hexpression] at h
    rw [Pattern.replace_cons_of_run_eq_none hexpression, escape, List.flatMap_cons, ← escape,
      List.append_assoc, Pattern.replace_append (passes_escapeChar hbraced), inside_plain hrun,
      List.append_assoc]
    exact restore_append (mark_not_mem_escapeChar (Ne.symm hc)) (ih hothers h)
  | hit text found rest hrun ih =>
    have hrest := Reader.not_mem_rest htext hrun
    rw [inside_hit hrun, List.append_assoc]
    obtain ⟨hidden, hread, rfl⟩ | ⟨name, hname, rfl, rfl⟩ := run_term_cases hrun
    · have hpasses :
          braced.Passes (hide hidden) (escape (expression.replace hide rest) ++ ['\'']) :=
        hbegins.passes (Text.misses_of_not_mem (openBrace_not_mem_hide hidden))
      rw [Pattern.hits_of_run_eq_some hread] at h
      obtain ⟨hne, hothers⟩ := List.forall_mem_cons.1 h
      rw [Pattern.replace_of_run_eq_some hread, escape_append, escape_hide, List.append_assoc,
        Pattern.replace_append hpasses]
      exact restore_hit hne (ih hrest hothers)
    · have hvariable : (Part.reference name).WellFormed := hname
      have hmark : mark ∉ splice ('$' :: name) := mark_not_mem_splice fun hmem =>
        (List.mem_cons.1 hmem).elim (by decide) fun hmem => absurd (hname.2 mark hmem) (by decide)
      have hescape : escape (Part.reference name).source = (Part.reference name).source :=
        Part.escape_hidden hvariable
      rw [Pattern.hits_append (Part.passes_reference hname rest)] at h
      rw [Part.replace_source hvariable rest, escape_append, Part.escape_hidden hvariable,
        List.append_assoc, Part.replace_quoted hvariable]
      exact restore_append hmark (ih hrest h)

/-- Mixed content is converted in one pass. -/
theorem stringOfMixed_inside (htext : mark ∉ text)
    (h : ∀ found ∈ expression.hits text, found ≠ []) :
    stringOfMixed text = .ok (dropEmpty ('\'' :: (inside text ++ ['\'']))) := by
  have hopen :
      braced.reader.run ('\'' :: (escape (expression.replace hide text) ++ ['\''])) = none := rfl
  have hquote : mark ∉ ['\''] := by decide
  have hwhole := restore_append hquote (restore_replace htext h)
  rw [stringOfMixed_eq, quote_eq, Pattern.replace_cons_of_run_eq_none hopen]
  exact congrArg (Except.map dropEmpty) hwhole

end LazyEmbed.Template.MixedContent
