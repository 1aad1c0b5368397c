import LazyEmbed.Proofs.Template.Convert

/-!
# Closing tags that are left over

The check at the end looks for the opening tags of the source dialect. Closing tags are not looked
for, and the passes pair some of them with the tag they touch: blanks between the two are enough,
and both stay where they are, while the opening tags of the same elements have been changed. What
the check lets through is therefore free of opening tags, but of closing tags only if none was left.
-/

namespace LazyEmbed.Template

/-! ### What the check and the braces do -/

section

variable {part old new text : Text}

/-- A text keeps its beginning where something else gives way to something else. -/
theorem prefix_swap_iff (hne : old ≠ []) (hnew : new ≠ []) (hpart : ∀ c ∈ part, c ∉ old ∧ c ∉ new) :
    part <+: Markup.swap old new hne text ↔ part <+: text := by
  unfold Markup.swap
  induction text using (Pattern.fixed old hne).searchInduction generalizing part with
  | nil => rw [Pattern.replace_nil]
  | plain c text hrun ih =>
    rw [Pattern.replace_cons_of_run_eq_none hrun]
    cases part with
    | nil => simp
    | cons d part =>
      rw [List.cons_prefix_cons, List.cons_prefix_cons, ih (List.forall_mem_cons.1 hpart).2]
  | hit text value rest hrun ih =>
    rw [Pattern.replace_of_run_eq_some hrun]
    cases part with
    | nil => simp
    | cons d part =>
      obtain ⟨hold, hnew'⟩ := hpart d List.mem_cons_self
      have hstart : ∀ {word behind : Text}, word ≠ [] → d ∉ word →
          ¬d :: part <+: word ++ behind := by
        intro word behind hword hd hbegins
        obtain ⟨e, word, rfl⟩ := List.exists_cons_of_ne_nil hword
        exact hd ((List.cons_prefix_cons.1 hbegins).1 ▸ List.mem_cons_self)
      obtain ⟨behind, rfl⟩ := Pattern.after_beginsWith _ _ _ hrun
      exact iff_of_false (hstart hnew hnew') (hstart hne hold)

theorem infix_append_iff {first : Text} (hne : part ≠ []) (hpart : ∀ c ∈ part, c ∉ first)
    (rest : Text) : part <:+: first ++ rest ↔ part <:+: rest := by
  obtain ⟨d, part, rfl⟩ := List.exists_cons_of_ne_nil hne
  have hd := hpart d List.mem_cons_self
  clear hpart
  induction first with
  | nil => rfl
  | cons c first ih =>
    obtain ⟨hc, hfirst⟩ := not_or.1 (mt List.mem_cons.2 hd)
    rw [List.cons_append, List.infix_cons_iff, List.cons_prefix_cons]
    exact (or_iff_right fun hbegins => hc hbegins.1).trans (ih hfirst)

/-- A text stays where it is, and does not come up anew, where something else gives way to something
else. -/
theorem infix_swap_iff (hne : old ≠ []) (hnew : new ≠ []) (hpartNe : part ≠ [])
    (hpart : ∀ c ∈ part, c ∉ old ∧ c ∉ new) :
    part <:+: Markup.swap old new hne text ↔ part <:+: text := by
  have hbegins : ∀ text, part <+: Markup.swap old new hne text ↔ part <+: text := fun _ =>
    prefix_swap_iff hne hnew hpart
  unfold Markup.swap at hbegins ⊢
  induction text using (Pattern.fixed old hne).searchInduction with
  | nil => rw [Pattern.replace_nil]
  | plain c text hrun ih =>
    have hhead := hbegins (c :: text)
    rw [Pattern.replace_cons_of_run_eq_none hrun] at hhead ⊢
    rw [List.infix_cons_iff, List.infix_cons_iff]
    exact or_congr hhead ih
  | hit text value rest hrun ih =>
    have htext : text = old ++ rest := by
      obtain ⟨_, left, hliteral, hpure⟩ := Reader.run_bind_eq_some_iff.1 hrun
      obtain rfl : left = rest := by simpa using hpure
      exact Reader.run_literal_eq_some_iff.1 hliteral
    rw [Pattern.replace_of_run_eq_some hrun, htext]
    calc part <:+: new ++ (Pattern.fixed old hne).replace (fun _ => new) rest
        ↔ part <:+: (Pattern.fixed old hne).replace (fun _ => new) rest :=
          infix_append_iff hpartNe (fun c hc => (hpart c hc).2) _
      _ ↔ part <:+: rest := ih
      _ ↔ part <:+: old ++ rest := (infix_append_iff hpartNe (fun c hc => (hpart c hc).1) rest).symm

/-- Bringing back the braces neither makes nor breaks a tag of the source dialect. -/
theorem infix_restoreBraces_iff {tag : Text} (h : tag ∈ (["<xsl:", "</xsl:"] : List Text)) :
    tag <:+: restoreBraces text ↔ tag <:+: text := by
  have htag : ∀ tag ∈ (["<xsl:", "</xsl:"] : List Text), tag ≠ [] ∧
      (∀ c ∈ tag, c ∉ ("&#125;" : Text) ∧ c ∉ ("\x7d" : Text)) ∧
        ∀ c ∈ tag, c ∉ ("&#123;" : Text) ∧ c ∉ ("\x7b" : Text) := by decide
  obtain ⟨hne, hclose, hopen⟩ := htag tag h
  rw [restoreBraces, Function.comp_apply, infix_swap_iff (by decide) (by decide) hne hclose,
    infix_swap_iff (by decide) (by decide) hne hopen]

end

section

variable {text : Text}

theorem exists_run_element (rest : Text) :
    ∃ inside left : Text, Leftover.element.reader.run ("<xsl:" ++ rest) =
      some ("<xsl:" ++ inside, left) := by
  rw [Leftover.element, Pattern.run_after_append]
  simp only [Reader.run_bind, Reader.run_many, Option.bind_some]
  cases hclose : (Reader.literal ">").run (rest.dropWhile fun c => c ≠ '>') with
  | none =>
    rw [Reader.run_optional_of_run_eq_none hclose]
    exact ⟨_, _, by rw [Option.bind_some, Reader.run_pure, List.append_assoc]⟩
  | some found =>
    rw [Reader.run_optional_of_run_eq_some hclose]
    exact ⟨_, _, by rw [Option.bind_some, Reader.run_pure, List.append_assoc]⟩

/-- An opening tag that is left anywhere is found. -/
theorem exists_element?_iff :
    (∃ inside : Text, Leftover.element? text = some ("<xsl:" ++ inside)) ↔
      ("<xsl:" : Text) <:+: text := by
  have hbegins : Leftover.element.BeginsWith "<xsl:" := Pattern.after_beginsWith _ _ _
  unfold Leftover.element?
  induction text using Leftover.element.searchInduction with
  | nil => simp
  | plain c text hrun ih =>
    have hnot : ¬("<xsl:" : Text) <+: c :: text := by
      rintro ⟨rest, hrest⟩
      obtain ⟨inside, left, hfound⟩ := exists_run_element rest
      rw [hrest, hrun] at hfound
      cases hfound
    rw [Pattern.hits_cons_of_run_eq_none hrun, List.infix_cons_iff]
    exact Iff.trans ih (or_iff_right hnot).symm
  | hit text value rest hrun ih =>
    obtain ⟨behind, rfl⟩ := hbegins hrun
    obtain ⟨inside, left, hfound⟩ := exists_run_element behind
    rw [Pattern.hits_of_run_eq_some hfound]
    exact iff_of_true ⟨inside, rfl⟩ (List.prefix_append _ _).isInfix

/-- The check finds no element exactly when no opening tag is left. -/
theorem element?_eq_none_iff : Leftover.element? text = none ↔ ¬("<xsl:" : Text) <:+: text := by
  rw [← exists_element?_iff]
  constructor
  · rintro hnone ⟨inside, hsome⟩
    rw [hnone] at hsome
    cases hsome
  · intro hnot
    by_contra hne
    obtain ⟨fragment, hsome⟩ := Option.ne_none_iff_exists'.1 hne
    have hall : ∀ fragment ∈ Leftover.element.hits text, ("<xsl:" : Text) <+: fragment := by
      apply Pattern.forall_mem_hits
      intro text fragment rest hrun
      obtain ⟨behind, rfl⟩ := Pattern.after_beginsWith _ _ _ hrun
      obtain ⟨inside, left, hfound⟩ := exists_run_element behind
      obtain ⟨rfl, -⟩ := Prod.mk.inj (Option.some.inj (hfound.symm.trans hrun))
      exact List.prefix_append _ _
    obtain ⟨inside, rfl⟩ := hall fragment (List.mem_of_mem_head? hsome)
    exact hnot ⟨inside, hsome⟩

end

theorem check_eq_ok_iff {text : Text} :
    Leftover.check text = .ok () ↔ ¬("<xsl:" : Text) <:+: text ∧ Leftover.brace? text = none := by
  rw [← element?_eq_none_iff, Leftover.check]
  cases helement : Leftover.element? text with
  | some fragment => simp
  | none => cases hbrace : Leftover.brace? text <;> simp

theorem check_eq_error {text : Text} (h : ("<xsl:" : Text) <:+: text) :
    ∃ inside : Text, Leftover.check text = .error (.foreignElement ("<xsl:" ++ inside)) := by
  obtain ⟨inside, hinside⟩ := exists_element?_iff.2 h
  exact ⟨inside, by rw [Leftover.check, hinside]⟩

/-! ### Every template -/

/-- The template as the check sees it: all passes are done, and braces are still set aside. -/
def beforeCheck (template : Text) : Except Fault Text := do
  let template ← Dialect.convertConditions (changeMarkup template)
  let template ← Dialect.convertSelections template
  let template ← Dialect.foldAttributeBodies template
  pure (inlineAttributes template)

theorem convert_eq (template : Text) :
    convert template = (do
      let left ← beforeCheck template
      Leftover.check left
      pure (restoreBraces left)) := by
  simp only [convert, beforeCheck, bind_assoc, pure_bind]

/-- No tag of the source dialect is in what the template is converted to. -/
def LeavesNoTag (template : Text) : Prop :=
  ∀ out, convert template = .ok out → ¬("<xsl:" : Text) <:+: out ∧ ¬("</xsl:" : Text) <:+: out

section

variable {template left : Text}

theorem convert_of_beforeCheck (h : beforeCheck template = .ok left) :
    convert template = (Leftover.check left).map fun _ => restoreBraces left := by
  rw [convert_eq, h]
  rfl

/-- An accepted template is what was left before the check, with its braces restored. -/
theorem exists_of_convert {out : Text} (h : convert template = .ok out) :
    ∃ left, beforeCheck template = .ok left ∧ Leftover.check left = .ok () ∧
      out = restoreBraces left := by
  rw [convert_eq] at h
  obtain ⟨left, hleft, h⟩ := bind_eq_ok_iff.1 h
  obtain ⟨⟨⟩, hcheck, h⟩ := bind_eq_ok_iff.1 h
  exact ⟨left, hleft, hcheck, (Except.ok.inj h).symm⟩

/-- What was left before the check came through all passes. -/
theorem exists_of_beforeCheck (h : beforeCheck template = .ok left) :
    ∃ resolved computed folded, Dialect.convertConditions (changeMarkup template) = .ok resolved ∧
      Dialect.convertSelections resolved = .ok computed ∧
      Dialect.foldAttributeBodies computed = .ok folded ∧ left = inlineAttributes folded := by
  obtain ⟨resolved, hresolved, h⟩ := bind_eq_ok_iff.1 h
  obtain ⟨computed, hcomputed, h⟩ := bind_eq_ok_iff.1 h
  obtain ⟨folded, hfolded, h⟩ := bind_eq_ok_iff.1 h
  exact ⟨resolved, computed, folded, hresolved, hcomputed, hfolded, (Except.ok.inj h).symm⟩

/-- No opening tag is left in a converted template. -/
theorem no_opening_of_convert {out : Text} (h : convert template = .ok out) :
    ¬("<xsl:" : Text) <:+: out := by
  obtain ⟨left, -, hcheck, rfl⟩ := exists_of_convert h
  rw [infix_restoreBraces_iff (by simp)]
  exact (check_eq_ok_iff.1 hcheck).1

/-- No tag stays in the output exactly when nothing that passes the check holds a closing tag. -/
theorem leavesNoTag_iff :
    LeavesNoTag template ↔ ∀ left, beforeCheck template = .ok left → Leftover.check left = .ok () →
      ¬("</xsl:" : Text) <:+: left := by
  constructor
  · intro h left hleft hcheck
    have hout : convert template = .ok (restoreBraces left) := by
      rw [convert_of_beforeCheck hleft, hcheck]
      rfl
    have hnot := (h _ hout).2
    rwa [infix_restoreBraces_iff (by simp)] at hnot
  · intro h out hout
    refine ⟨no_opening_of_convert hout, ?_⟩
    obtain ⟨left, hleft, hcheck, rfl⟩ := exists_of_convert hout
    rw [infix_restoreBraces_iff (by simp)]
    exact h left hleft hcheck

/-- An opening tag that the passes leave is reported. -/
theorem convert_of_opening (hleft : beforeCheck template = .ok left)
    (h : ("<xsl:" : Text) <:+: left) :
    ∃ inside : Text, convert template = .error (.foreignElement ("<xsl:" ++ inside)) := by
  obtain ⟨inside, hcheck⟩ := check_eq_error h
  refine ⟨inside, ?_⟩
  rw [convert_of_beforeCheck hleft, hcheck]
  rfl

end

/-! ### Closing tags apart from their neighbours -/

def closingTag (name : Text) : Text := "</xsl:" ++ (name ++ ">")

theorem closingTag_eq (name : Text) : closingTag name = "</xsl:" ++ (name ++ ">") := rfl

/-- Closing tags with blanks behind all but the last, of elements other than conditionals. The last
one stands for itself, whatever it touches. -/
structure Stray where
  spaced : List (Name × Text)
  last : Name
  not_if : ∀ name ∈ last :: spaced.map Prod.fst, name.val ≠ "if"
  blank : ∀ item ∈ spaced, item.2 ≠ [] ∧ ∀ c ∈ item.2, Text.isBlank c = true
  alone : last.val ≠ "when" ∧ last.val ≠ "otherwise"

namespace Stray

def spacedText (spaced : List (Name × Text)) : Text :=
  spaced.flatMap fun item => closingTag item.1.val ++ item.2

def text (stray : Stray) : Text := spacedText stray.spaced ++ closingTag stray.last.val

end Stray

def sought : List Text := "<iframe" :: "<xsl:" :: starts

/-- What is looked for, as far as a closing tag is concerned: it has another first character, or is
an opening tag, or a conditional ends with it, or it goes on with another tag behind the closing
tag. -/
theorem starts_cases {start : Text} (h : start ∈ sought) :
    (∃ c ∈ [' ', '\x7b', '\x7d'], start.head? = some c) ∨
      (∃ c behind, start = '<' :: c :: behind ∧ c ≠ '/') ∨ start = closingTag "if" ∨
      ∃ partner ∈ (["when", "otherwise"] : List Text),
        closingTag partner ++ ['<'] <+: start := by
  have hall : ∀ start ∈ sought, (∃ c ∈ [' ', '\x7b', '\x7d'], start.head? = some c) ∨
      (start.head? = some '<' ∧ start.tail.head? ≠ some '/' ∧ start.tail ≠ []) ∨
        start = closingTag "if" ∨ ∃ partner ∈ (["when", "otherwise"] : List Text),
        closingTag partner ++ ['<'] <+: start := by decide +kernel
  obtain hfirst | ⟨hopen, hslash, hne⟩ | hothers := hall start h
  · exact .inl hfirst
  · obtain ⟨more, rfl⟩ := List.head?_eq_some_iff.1 hopen
    obtain ⟨c, behind, rfl⟩ := List.exists_cons_of_ne_nil hne
    exact .inr (.inl ⟨c, behind, rfl, fun heq => hslash (congrArg some heq)⟩)
  · exact .inr (.inr hothers)

theorem eq_of_closingTag_append {name : Name} {other rest behind : Text} (hother : '>' ∉ other)
    (h : closingTag other ++ behind = closingTag name.val ++ rest) :
    other = name.val ∧ behind = rest := by
  have hname : '>' ∉ name.val := fun hmem => absurd (name.property.2 '>' hmem) (by decide)
  simp only [closingTag_eq, List.append_assoc, List.append_cancel_left_eq] at h
  exact Text.append_cons_inj hother hname h

/-- No pass finds anything in a closing tag of another element than a conditional, if the next tag
does not touch it. -/
theorem misses_closingTag {start : Text} (h : start ∈ sought) {name : Name}
    (hif : name.val ≠ "if") {rest : Text}
    (hrest : name.val = "when" ∨ name.val = "otherwise" → rest.head? ≠ some '<') :
    Text.Misses start (closingTag name.val) rest := by
  have hfixed : ∀ c ∈ ['<', ' ', '\x7b', '\x7d'], Text.isWord c = false := by decide
  have hname : ∀ c ∈ ['<', ' ', '\x7b', '\x7d'], c ∉ name.val := fun c hc hmem =>
    Bool.noConfusion ((hfixed c hc).symm.trans (name.property.2 c hmem))
  have htail : '<' ∉ ("/xsl:" : Text) ++ (name.val ++ ">") := by simp [hname '<' (by simp)]
  have htext : closingTag name.val = '<' :: (("/xsl:" : Text) ++ (name.val ++ ">")) := by
    have hopen : ("</xsl:" : Text) = '<' :: ("/xsl:" : Text) := by decide
    rw [closingTag_eq, hopen]
    rfl
  have hlater : ∀ start : Text, start.head? = some '<' → ¬start <+: closingTag name.val ++ rest →
      Text.Misses start (closingTag name.val) rest := by
    intro start hhead hnot
    obtain ⟨behind, rfl⟩ := List.head?_eq_some_iff.1 hhead
    rw [htext] at hnot ⊢
    exact Text.misses_cons hnot (Text.misses_of_not_mem htail)
  obtain ⟨c, hc, hhead⟩ | ⟨c, behind, rfl, hslash⟩ | rfl | ⟨partner, hpartner, behind, rfl⟩ :=
    starts_cases h
  · obtain ⟨behind, rfl⟩ := List.head?_eq_some_iff.1 hhead
    have hapart : ∀ c ∈ [' ', '\x7b', '\x7d'], c ∉ ("</xsl:" : Text) ∧ c ∉ (">" : Text) := by decide
    refine Text.misses_of_not_mem ?_
    simp only [closingTag_eq, List.mem_append, not_or]
    exact ⟨(hapart c hc).1, hname c (List.mem_cons_of_mem _ hc), (hapart c hc).2⟩
  · refine hlater _ rfl fun hbegins => hslash ?_
    rw [htext] at hbegins
    exact (List.cons_prefix_cons.1 (List.cons_prefix_cons.1 hbegins).2).1
  · refine hlater _ rfl fun hbegins => hif ?_
    obtain ⟨behind, hbehind⟩ := hbegins
    exact (eq_of_closingTag_append (by decide) hbehind).1.symm
  · refine hlater _ rfl fun ⟨more, hmore⟩ => ?_
    have hclose : ∀ partner ∈ (["when", "otherwise"] : List Text), '>' ∉ partner := by decide
    have hsame : closingTag partner ++ ('<' :: (behind ++ more)) = closingTag name.val ++ rest := by
      rw [← hmore, List.append_assoc, List.append_assoc]
      rfl
    obtain ⟨rfl, rfl⟩ := eq_of_closingTag_append (hclose partner hpartner) hsame
    exact hrest (by simpa [or_comm] using hpartner) rfl

/-- A closing tag and the blanks behind it, if the next tag follows. -/
theorem misses_spaced {start : Text} (h : start ∈ sought) {name : Name} {gap rest : Text}
    (hif : name.val ≠ "if") (hne : gap ≠ []) (hgap : ∀ c ∈ gap, Text.isBlank c = true)
    (hrest : ∀ c, rest.head? = some c → c = '<') :
    Text.Misses start (closingTag name.val ++ gap) rest := by
  have hblank : ∀ c ∈ ['<', '\x7b', '\x7d', 'd'], Text.isBlank c = false := by decide
  have hapart : ∀ c ∈ ['<', '\x7b', '\x7d', 'd'], c ∉ gap := fun c hc hmem =>
    Bool.noConfusion ((hblank c hc).symm.trans (hgap c hmem))
  refine Text.Misses.append (misses_closingTag h hif fun _ => ?_) ?_
  · obtain ⟨c, gap, rfl⟩ := List.exists_cons_of_ne_nil hne
    intro hhead
    obtain rfl : c = '<' := Option.some.inj hhead
    exact hapart '<' (by simp) List.mem_cons_self
  · have hfirst : ∀ start ∈ sought, (∃ c ∈ ['<', '\x7b', '\x7d', 'd'], start.head? = some c) ∨
        start = hintStart := by decide +kernel
    obtain ⟨c, hc, hhead⟩ | rfl := hfirst start h
    · obtain ⟨behind, rfl⟩ := List.head?_eq_some_iff.1 hhead
      exact Text.misses_of_not_mem (hapart c hc)
    · refine Text.misses_of_not_isInfix
        (fun hinside => hapart 'd' (by simp) (hinside.subset (by decide))) fun c hc => ?_
      rw [hrest c hc]
      decide

namespace Stray

theorem misses_spacedText {start : Text} (h : start ∈ sought) {spaced : List (Name × Text)}
    (hif : ∀ item ∈ spaced, item.1.val ≠ "if")
    (hblank : ∀ item ∈ spaced, item.2 ≠ [] ∧ ∀ c ∈ item.2, Text.isBlank c = true) {rest : Text}
    (hrest : ∀ c, rest.head? = some c → c = '<') : Text.Misses start (spacedText spaced) rest := by
  induction spaced with
  | nil => exact Text.misses_nil start rest
  | cons item spaced ih =>
    obtain ⟨hitemIf, hothersIf⟩ := List.forall_mem_cons.1 hif
    obtain ⟨hitem, hothers⟩ := List.forall_mem_cons.1 hblank
    refine Text.Misses.append (misses_spaced h hitemIf hitem.1 hitem.2 ?_) (ih hothersIf hothers)
    cases spaced with
    | nil => exact hrest
    | cons next spaced => exact fun c hc => (Option.some.inj hc).symm

theorem misses (stray : Stray) {start : Text} (h : start ∈ sought) (rest : Text) :
    Text.Misses start stray.text rest := by
  obtain ⟨hlast, hspaced⟩ := List.forall_mem_cons.1 stray.not_if
  refine Text.Misses.append (misses_spacedText h (fun item hitem => ?_) stray.blank fun c hc => ?_)
    (misses_closingTag h hlast fun hpaired => ?_)
  · exact hspaced item.1 (List.mem_map_of_mem hitem)
  · exact (Option.some.inj hc).symm
  · exact absurd hpaired (not_or.2 stray.alone)

theorem isFixed (stray : Stray) : IsFixed stray.text where
  head := by
    cases hspaced : stray.spaced with
    | nil => rw [text, hspaced]; rfl
    | cons item spaced => rw [text, hspaced]; rfl
  misses _ hstart := stray.misses (List.mem_cons_of_mem _ (List.mem_cons_of_mem _ hstart))
  passes_frame rest :=
    (Pattern.after_beginsWith _ _ _).passes (stray.misses List.mem_cons_self rest)

theorem not_mem_text (stray : Stray) {c : Char} (hword : Text.isWord c = false)
    (hblank : Text.isBlank c = false) (hopen : c ∉ ("</xsl:" : Text)) (hclose : c ∉ (">" : Text)) :
    c ∉ stray.text := by
  have hclosing : ∀ name : Name, c ∉ closingTag name.val := by
    intro name
    have hname : c ∉ name.val := fun hmem =>
        Bool.noConfusion (hword.symm.trans (name.property.2 c hmem))
    simp only [closingTag_eq, List.mem_append, not_or]
    exact ⟨hopen, hname, hclose⟩
  simp only [text, spacedText, List.mem_append, List.mem_flatMap, not_or, not_exists, not_and]
  refine ⟨fun item hitem => ⟨hclosing item.1, fun hmem => ?_⟩, hclosing stray.last⟩
  exact Bool.noConfusion (hblank.symm.trans ((stray.blank item hitem).2 c hmem))

theorem infix_text (stray : Stray) : ("</xsl:" : Text) <:+: stray.text :=
  (List.prefix_append _ _).isInfix.trans (List.suffix_append (spacedText stray.spaced) _).isInfix

end Stray

/-! ### Templates with such tags -/

/-- A template that is made up of tokens, with stray closing tags between them. -/
structure Untidy where
  tokens : List Token
  strays : List (Stray × List Token)
  stage : Stage sourceShapes tokens
  stages : ∀ item ∈ strays, Stage sourceShapes item.2

namespace Untidy

def layout (untidy : Untidy) : Layout where
  tokens := untidy.tokens
  segments := untidy.strays.map fun item => ⟨item.1.text, item.2, item.1.isFixed⟩

def text (untidy : Untidy) : Text := untidy.layout.text

def final (untidy : Untidy) : Text := (untidy.layout.map Token.toFinal).text

theorem final_eq (untidy : Untidy) : untidy.final = texts (untidy.tokens.map Token.toFinal) ++
    untidy.strays.flatMap fun item => item.1.text ++ texts (item.2.map Token.toFinal) := by
  simp [final, Layout.text, Layout.map, layout, List.flatMap_map]

theorem inStage (untidy : Untidy) : untidy.layout.InStage sourceShapes := by
  refine ⟨untidy.stage, fun segment hsegment => ?_⟩
  obtain ⟨item, hitem, rfl⟩ := List.mem_map.1 hsegment
  exact untidy.stages item hitem

theorem head?_strays (strays : List (Stray × List Token)) : ∀ c ∈ (strays.flatMap fun item =>
    item.1.text ++ texts (item.2.map Token.toFinal)).head?, c = '<' := by
  cases strays with
  | nil => simp
  | cons item strays =>
    intro c hc
    simp only [List.flatMap_cons, List.head?_append, item.1.isFixed.head, Option.some_or] at hc
    exact (Option.some.inj hc).symm

/-- What begins neither in a token nor in a stray closing tag does not begin at all. -/
theorem misses_final (untidy : Untidy) {start : Text}
    (htoken : ∀ (token : Token) (rest : Text), token.shape ∈ finalShapes → token.Follows rest →
      Text.Misses start token.text rest)
    (hstray : ∀ (stray : Stray) (rest : Text), Text.Misses start stray.text rest) :
    Text.Misses start untidy.final [] := by
  have hstrays : ∀ strays : List (Stray × List Token),
      (∀ item ∈ strays, Stage sourceShapes item.2) →
      Text.Misses start (strays.flatMap
        fun item => item.1.text ++ texts (item.2.map Token.toFinal)) [] := by
    intro strays hstages
    induction strays with
    | nil => exact Text.misses_nil start []
    | cons item strays ih =>
      obtain ⟨hitem, hothers⟩ := List.forall_mem_cons.1 hstages
      refine Text.Misses.append ((hstray item.1 _).append (hitem.toFinal.misses htoken ?_))
        (ih hothers)
      rw [List.append_nil]
      exact head?_strays strays
  rw [final_eq]
  refine Text.Misses.append (untidy.stage.toFinal.misses htoken ?_)
    (hstrays untidy.strays untidy.stages)
  rw [List.append_nil]
  exact head?_strays untidy.strays

theorem no_opening_final (untidy : Untidy) : ¬("<xsl:" : Text) <:+: untidy.final := by
  exact (untidy.misses_final (fun _ _ => Token.misses_element List.mem_cons_self) fun stray =>
    stray.misses (List.mem_cons_of_mem _ List.mem_cons_self)).not_isInfix (by decide)

theorem brace?_final (untidy : Untidy) : Leftover.brace? untidy.final = none := by
  have hstrays : ∀ strays : List (Stray × List Token),
      (∀ item ∈ strays, Stage sourceShapes item.2) →
      ∀ value ∈ Leftover.braces.hits (strays.flatMap
        fun item => item.1.text ++ texts (item.2.map Token.toFinal)), value = none := by
    intro strays hstages
    induction strays with
    | nil => simp
    | cons item strays ih =>
      obtain ⟨hitem, hothers⟩ := List.forall_mem_cons.1 hstages
      have hopen : '\x7b' ∉ item.1.text :=
        item.1.not_mem_text (by decide) (by decide) (by decide) (by decide)
      rw [List.flatMap_cons, List.append_assoc, Pattern.hits_append (passes_braces hopen _)]
      exact forall_hits_braces_texts hitem.toFinal (ih hothers)
  rw [final_eq]
  exact brace?_eq_none
    (forall_hits_braces_texts untidy.stage.toFinal (hstrays untidy.strays untidy.stages))

theorem restoreBraces_final (untidy : Untidy) : restoreBraces untidy.final = untidy.final := by
  have hswap : ∀ reference ∈ braceReferences, ∀ new : Text,
      Markup.swap ('&' :: reference) new (List.cons_ne_nil _ _) untidy.final = untidy.final := by
    intro reference href new
    refine Pattern.replace_eq_self _ ((Pattern.after_beginsWith _ _ _).passes
      (untidy.misses_final (fun _ _ => Token.misses_reference href) fun stray rest => ?_))
    exact Text.misses_of_not_mem
      (stray.not_mem_text (by decide) (by decide) (by decide) (by decide))
  exact (congrArg _ (hswap "#123;" List.mem_cons_self "\x7b")).trans
    (hswap "#125;" (List.mem_cons_of_mem _ List.mem_cons_self) "\x7d")

/-- An untidy choice is converted, its stray closing tags and all. -/
theorem convert_text (untidy : Untidy) : convert untidy.text = .ok untidy.final := by
  have hbegins : Dialect.attributeBody.BeginsWith "<xsl:attribute" := Pattern.after_beginsWith _ _ _
  have hlonger : ("<xsl:" : Text) <+: "<xsl:attribute" := by decide
  have hmisses : Text.Misses "<xsl:" untidy.final [] :=
    Text.misses_of_not_isInfix untidy.no_opening_final (by simp)
  have hfold : Dialect.foldAttributeBodies untidy.final = .ok untidy.final :=
    Pattern.replaceM_eq_self _ (hbegins.passes (hmisses.of_isPrefix hlonger))
  have hcheck := check_eq_ok_iff.2 ⟨untidy.no_opening_final, untidy.brace?_final⟩
  rw [text, Template.convert_text untidy.inStage]
  change (Dialect.foldAttributeBodies untidy.final >>= _) = _
  simp only [hfold, bind, Except.bind, inlineAttributes_eq_self untidy.no_opening_final, hcheck,
    untidy.restoreBraces_final]
  rfl

/-- Such a template loses all tags of the source dialect exactly if no closing tag is astray in
it. -/
theorem leavesNoTag_iff (untidy : Untidy) : LeavesNoTag untidy.text ↔ untidy.strays = [] := by
  constructor
  · intro h
    have hnot := (h _ untidy.convert_text).2
    cases hstrays : untidy.strays with
    | nil => rfl
    | cons item strays =>
      refine absurd (item.1.infix_text.trans ?_) hnot
      rw [final_eq, hstrays, List.flatMap_cons, List.append_assoc]
      exact (List.prefix_append _ _).isInfix.trans (List.suffix_append _ _).isInfix
  · intro hstrays out hout
    have hmisses := misses_closing untidy.stage.toFinal
    rw [untidy.convert_text] at hout
    obtain rfl := Except.ok.inj hout
    refine ⟨untidy.no_opening_final, ?_⟩
    rw [final_eq, hstrays, List.flatMap_nil, List.append_nil]
    exact hmisses.not_isInfix (by decide)

end Untidy

/-- No opening tag of the source dialect is left in a converted template, and one that is left
before the check is reported. No closing tag is left either, if none is left before the check: there
is such a tag where blanks keep it from its neighbour, and the template is converted all the
same. -/
theorem convert_leavesNoTag (template : Text) :
    (∀ out, convert template = .ok out → ¬("<xsl:" : Text) <:+: out) ∧
    (∀ left, beforeCheck template = .ok left → ("<xsl:" : Text) <:+: left →
      ∃ inside : Text, convert template = .error (.foreignElement ("<xsl:" ++ inside))) ∧
    (LeavesNoTag template ↔ ∀ left, beforeCheck template = .ok left →
      Leftover.check left = .ok () → ¬("</xsl:" : Text) <:+: left) ∧
    ∀ untidy : Untidy, convert untidy.text = .ok untidy.final ∧
      (LeavesNoTag untidy.text ↔ untidy.strays = []) :=
  ⟨fun _ => no_opening_of_convert, fun _ => convert_of_opening, leavesNoTag_iff,
    fun untidy => ⟨untidy.convert_text, untidy.leavesNoTag_iff⟩⟩

/-- A blank between the last branch and the end of a choice leaves both closing tags. -/
theorem not_leavesNoTag_blank :
    convert "<xsl:choose><xsl:when test=\"@a\">x</xsl:when> </xsl:choose>" =
      .ok "<xf:if is=\"$a\">x</xsl:when> </xsl:choose>" ∧
    ¬LeavesNoTag "<xsl:choose><xsl:when test=\"@a\">x</xsl:when> </xsl:choose>" := by
  have hname : ∀ name ∈ (["a", "when", "choose"] : List Text), IsName name := by
    have hword : ∀ name ∈ (["a", "when", "choose"] : List Text), name ≠ [] ∧
        ∀ c ∈ name, Text.isWord c = true := by
      decide
    exact hword
  let test : Spelling := ⟨"@a", .value "a", Html.decodeReferences_of_not_mem (by decide),
    hname "a" (by simp),
    by decide⟩
  let stray : Stray := {
    spaced := [(⟨"when", hname "when" (by simp)⟩, " ")]
    last := ⟨"choose", hname "choose" (by simp)⟩
    not_if := by
      have hif : ∀ name ∈ (["choose", "when"] : List Text), name ≠ "if" := by decide
      exact List.forall_mem_cons.2 ⟨hif _ (by simp), by simp⟩
    blank := by
      have hblank : Text.isBlank ' ' = true := by decide
      simpa using hblank
    alone := by
      have halone : ("choose" : Text) ≠ "when" ∧ ("choose" : Text) ≠ "otherwise" := by decide
      exact halone }
  let untidy : Untidy := {
    tokens := [.opening .firstWhen test, .chunk ⟨"x", by decide⟩]
    strays := [(stray, [])]
    stage := ⟨⟨by simp [Token.isChunk], fun _ => by simp [StartsApart], trivial⟩,
      by simp [Token.shape, sourceShapes]⟩
    stages := fun _ hitem => by
      rw [List.mem_singleton.1 hitem]
      exact ⟨trivial, List.forall_mem_nil _⟩ }
  have htext : untidy.text = "<xsl:choose><xsl:when test=\"@a\">x</xsl:when> </xsl:choose>" := by
    rw [String.toList_ofList]
    rfl
  have hfinal : untidy.final = "<xf:if is=\"$a\">x</xsl:when> </xsl:choose>" := by
    rw [String.toList_ofList]
    rfl
  rw [← htext, ← hfinal, untidy.leavesNoTag_iff]
  exact ⟨untidy.convert_text, List.cons_ne_nil _ _⟩

end LazyEmbed.Template
