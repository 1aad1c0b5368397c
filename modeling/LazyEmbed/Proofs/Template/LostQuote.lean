import LazyEmbed.Proofs.Template.Meaning

/-!
# Where mixed content keeps its meaning

A text of terms without apostrophes in its expressions has quotes that pair up, with nothing escaped
in a literal but backslashes and apostrophes. A literal that has lost its closing quote goes on with
a backslash and the first character of a variable or an expression, and so no such text is left.
That happens where an apostrophe stands before an opening brace, and nowhere else.
-/

namespace LazyEmbed.Template

open MixedContent

/-- The quotes of a text pair up, from inside a literal or from outside, and a backslash in a
literal stands before a backslash or an apostrophe. -/
def areClosed : (inside : Bool) → Text → Bool
  | inside, [] => !inside
  | false, c :: text => areClosed (c = '\'') text
  | true, '\'' :: text => areClosed false text
  | true, '\\' :: c :: text => (c = '\\' || c = '\'') && areClosed true text
  | true, _ :: text => areClosed true text

theorem areClosed_outside {text : Text} (h : '\'' ∉ text) (rest : Text) :
    areClosed false (text ++ rest) = areClosed false rest := by
  induction text with
  | nil => rfl
  | cons c text ih =>
    obtain ⟨hc, htext⟩ := not_or.1 (mt List.mem_cons.2 h)
    rw [List.cons_append, areClosed, decide_eq_false (Ne.symm hc), ih htext]

theorem areClosed_escape (text rest : Text) :
    areClosed true (escape text ++ rest) = areClosed true rest := by
  induction text with
  | nil => rfl
  | cons c text ih =>
    rw [escape_cons, List.append_assoc]
    obtain ⟨hbackslash, hquote, hchar⟩ | ⟨hc, hchar⟩ := escapeChar_cases c
    · rw [hchar, List.singleton_append, areClosed, ih]
      · exact hquote
      · exact fun _ _ heq _ => hbackslash heq
    · have hescaped : (decide (c = '\\') || decide (c = '\'')) = true := by simpa using hc
      rw [hchar, List.cons_append, List.cons_append, List.nil_append, areClosed, hescaped,
        Bool.true_and, ih]

theorem areClosed_quote (text rest : Text) :
    areClosed false (quote text ++ rest) = areClosed false rest := by
  rw [quote_eq, List.cons_append, areClosed, decide_eq_true rfl, List.append_assoc,
    areClosed_escape]
  rfl

def Part.IsTerm : Part → Prop
  | literal _ => True
  | reference name => IsName name
  | expression text => IsExpression text ∧ '\'' ∉ text

theorem areClosed_term {part : Part} (h : part.IsTerm) (rest : Text) :
    areClosed false (part.term ++ rest) = areClosed false rest := by
  cases part with
  | literal text => exact areClosed_quote text rest
  | reference name =>
    refine areClosed_outside ?_ rest
    simpa [Part.term] using fun hmem => absurd (h.2 '\'' hmem) (by decide)
  | expression text =>
    refine areClosed_outside ?_ rest
    simpa [Part.term] using h.2

theorem areClosed_joined {terms : List Part} (h : ∀ term ∈ terms, term.IsTerm) :
    areClosed false (joined terms) = true := by
  have hdotted : ∀ terms : List Part, (∀ term ∈ terms, term.IsTerm) →
      areClosed false (Runs.dotted terms) = true := by
    intro terms h
    induction terms with
    | nil => rfl
    | cons term terms ih =>
      obtain ⟨hterm, hterms⟩ := List.forall_mem_cons.1 h
      rw [Runs.dotted, List.flatMap_cons, ← Runs.dotted, List.append_assoc,
        areClosed_outside (by decide), areClosed_term hterm, ih hterms]
  cases terms with
  | nil => rfl
  | cons term terms =>
    obtain ⟨hterm, hterms⟩ := List.forall_mem_cons.1 h
    rw [Runs.joined_cons, areClosed_term hterm, hdotted terms hterms]

namespace Runs

structure IsPlain (splice : Text × Part) : Prop where
  isTerm : splice.2.IsTerm
  isSplice : IsSplice splice.2.term

theorem areClosed_openedSplice {splice : Text × Part} (h : IsPlain splice) (rest : Text) :
    areClosed false (openedSplice splice ++ rest) = true ↔
      splice.1.getLast? ≠ some '\'' ∧ areClosed false rest = true := by
  obtain ⟨text, part⟩ := splice
  obtain ⟨c, behind, hterm, hc⟩ := h.isSplice.first
  rw [openedSplice, List.append_assoc]
  induction text using endCases with
  | nil => simp [opened_nil, areClosed_term h.isTerm]
  | apostrophe init =>
    have hlost : areClosed true ('\\' :: c :: (behind ++ rest)) = false := by
      obtain rfl | rfl := hc <;> rfl
    have hopened : opened (init ++ ['\'']) ++ (part.term ++ rest) =
        '\'' :: (escape init ++ '\\' :: c :: (behind ++ rest)) := by
      simp only at hterm
      rw [opened_apostrophe, hterm]
      simp
    have hclosed : areClosed false (opened (init ++ ['\'']) ++ (part.term ++ rest)) = false := by
      rw [hopened, areClosed, decide_eq_true rfl, areClosed_escape, hlost]
    simp [hclosed]
  | other init d hd =>
    rw [opened_concat hd, List.append_assoc, areClosed_quote, areClosed_outside (by decide),
      areClosed_term h.isTerm]
    simp [hd]

/-- Literals between splices are closed exactly when none but the last ends in an apostrophe. -/
theorem areClosed_further {splices : List (Text × Part)} (h : ∀ splice ∈ splices, IsPlain splice)
    (last : Text) : areClosed false (further splices last) = true ↔ AreWhole splices := by
  induction splices with
  | nil =>
    have hlast :
        areClosed false (if last = [] then [] else (" . " : Text) ++ quote last) = true := by
      split
      · rfl
      · have hquote := areClosed_quote last []
        rw [List.append_nil] at hquote
        rw [areClosed_outside (by decide), hquote]
        rfl
    unfold further
    simpa [AreWhole] using hlast
  | cons splice splices ih =>
    obtain ⟨hsplice, hsplices⟩ := List.forall_mem_cons.1 h
    have hfurther : further (splice :: splices) last =
        " . " ++ (openedSplice splice ++ further splices last) := by
      unfold further
      simp only [List.flatMap_cons, List.append_assoc]
    rw [hfurther, areClosed_outside (by decide), areClosed_openedSplice hsplice, ih hsplices,
      AreWhole, AreWhole, List.forall_mem_cons]

/-- The quotes pair up in what is left of runs exactly if the runs are whole. -/
theorem areClosed_written {runs : Runs} (h : ∀ splice ∈ runs.splices, IsPlain splice) :
    areClosed false runs.written = true ↔ AreWhole runs.splices := by
  obtain ⟨splices, last⟩ := runs
  cases splices with
  | nil =>
    have hquote := areClosed_quote last []
    rw [List.append_nil] at hquote
    simp [written, hquote, areClosed, AreWhole]
  | cons splice splices =>
    obtain ⟨hsplice, hsplices⟩ := List.forall_mem_cons.1 h
    rw [written, areClosed_openedSplice hsplice, areClosed_further hsplices, AreWhole, AreWhole,
      List.forall_mem_cons]

end Runs

/-! ### Apostrophes before braces -/

def quotedBrace : Text := ['\'', '\x7b']

/-- An apostrophe before a brace stands at the end of the literal or further behind. -/
theorem quotedBrace_infix {text inside rest : Text} (htext : '\x7b' ∉ text)
    (hinside : '\'' ∉ inside) :
    quotedBrace <:+: text ++ '\x7b' :: (inside ++ rest) ↔
      text.getLast? = some '\'' ∨ quotedBrace <:+: rest := by
  constructor
  · intro hwithin
    by_contra hnone
    obtain ⟨hlast, hrest⟩ := not_or.1 hnone
    have hends : Text.Misses quotedBrace text ('\x7b' :: (inside ++ rest)) := by
      induction text using endCases with
      | nil => exact Text.misses_nil _ _
      | apostrophe init => simp at hlast
      | other init c hc =>
        refine Text.Misses.append (Text.misses_of_not_isInfix (fun hinit => ?_) fun d hd => ?_)
          (Text.misses_of_not_mem (by simpa using Ne.symm hc))
        · exact htext (List.mem_append_left _ (hinit.subset (by decide)))
        · obtain rfl : c = d := by simpa using hd
          exact fun hmem =>
            htext (by simpa [quotedBrace] using .inr (List.mem_singleton.1 hmem).symm)
    have hbehind : Text.Misses quotedBrace ('\x7b' :: (inside ++ rest)) [] := by
      have hopen : Text.Misses quotedBrace ('\x7b' :: inside) (rest ++ []) :=
        Text.misses_of_not_mem (by simpa using hinside)
      exact hopen.append (Text.misses_of_not_isInfix hrest (by simp))
    refine (Text.Misses.append ?_ hbehind).not_isInfix (by decide) hwithin
    rwa [List.append_nil]
  · rintro (hlast | hrest)
    · obtain ⟨init, rfl⟩ := List.getLast?_eq_some_iff.1 hlast
      exact ⟨init, inside ++ rest, by simp [quotedBrace]⟩
    · refine hrest.trans ⟨text ++ '\x7b' :: inside, [], by simp⟩

def Part.NoApostrophe : Part → Prop
  | expression text => '\'' ∉ text
  | _ => True

section

variable {parts : List Part}

theorem isTame_of_noApostrophe {part : Part} (h : part.NoApostrophe) : part.IsTame := by
  cases part with
  | literal text | reference name => exact trivial
  | expression text =>
    exact ⟨fun hwithin => h (hwithin.subset (by decide)),
      fun hwithin => h (hwithin.subset (by decide))⟩

theorem Runs.isPlain_ofParts (h : ∀ part ∈ parts, part.WellFormed ∧ part.NoApostrophe)
    (text : Text) : ∀ splice ∈ (ofParts text parts).splices, IsPlain splice := by
  have hsplice := isSplice_ofParts (fun part hpart =>
    ⟨(h part hpart).1, isTame_of_noApostrophe (h part hpart).2⟩) text
  refine fun splice hmem => ⟨?_, hsplice splice hmem⟩
  clear hsplice
  induction parts generalizing text with
  | nil => simp [ofParts] at hmem
  | cons part parts ih =>
    obtain ⟨⟨hwell, hplain⟩, hparts⟩ := List.forall_mem_cons.1 h
    cases part with
    | literal more => exact ih hparts _ hmem
    | reference name =>
      obtain rfl | hmem := List.mem_cons.1 hmem
      · exact hwell
      · exact ih hparts [] hmem
    | expression found =>
      obtain rfl | hmem := List.mem_cons.1 hmem
      · exact ⟨hwell, hplain⟩
      · exact ih hparts [] hmem

theorem Runs.isTerm_terms {runs : Runs} (h : ∀ splice ∈ runs.splices, IsPlain splice) :
    ∀ term ∈ runs.terms, term.IsTerm := by
  intro term hterm
  obtain rfl | ⟨splice, hsplice, rfl | rfl⟩ := mem_terms hterm
  · exact trivial
  · exact trivial
  · exact (h splice hsplice).isTerm

/-- Literals end in an apostrophe before a splice where one stands before an opening brace. -/
theorem Runs.areWhole_iff (h : ∀ part ∈ parts, part.WellFormed ∧ part.NoApostrophe) {text : Text}
    (htext : '\x7b' ∉ text) : AreWhole (ofParts text parts).splices ↔
      ¬quotedBrace <:+: text ++ parts.flatMap Part.source := by
  induction parts generalizing text with
  | nil =>
    refine iff_of_true (by simp [ofParts, AreWhole]) fun hwithin => htext ?_
    rw [List.flatMap_nil, List.append_nil] at hwithin
    exact hwithin.subset (by decide)
  | cons part parts ih =>
    obtain ⟨⟨hwell, hplain⟩, hparts⟩ := List.forall_mem_cons.1 h
    have hsplice : ∀ (part : Part) (inside : Text), part.source = '\x7b' :: inside → '\'' ∉ inside →
        (AreWhole ((text, part) :: (ofParts [] parts).splices) ↔
          ¬quotedBrace <:+: text ++ (part :: parts).flatMap Part.source) := by
      intro part inside hsource hinside
      have hrest : AreWhole (ofParts [] parts).splices ↔
          ¬quotedBrace <:+: [] ++ parts.flatMap Part.source := ih hparts (by simp)
      rw [List.flatMap_cons, hsource, List.cons_append, quotedBrace_infix htext hinside, not_or,
        AreWhole, List.forall_mem_cons, ← AreWhole, hrest, List.nil_append]
    cases part with
    | literal more =>
      have hmore : '\x7b' ∉ text ++ more := by simp [htext, hwell.1]
      rw [ofParts, ih hparts hmore, List.flatMap_cons, List.append_assoc]
      rfl
    | reference name =>
      have hname : '\'' ∉ name := fun hmem => absurd (hwell.2 '\'' hmem) (by decide)
      exact hsplice _ ('$' :: (name ++ ['\x7d'])) rfl (by simp [hname])
    | expression found =>
      have hfound : '\'' ∉ found := hplain
      exact hsplice _ ('\x7b' :: ' ' :: (found ++ [' ', '\x7d', '\x7d'])) rfl (by simp [hfound])

end

/-- Mixed content becomes a string expression of the same value exactly if no apostrophe stands
before an opening brace. -/
theorem exists_terms_iff (parts : List Part)
    (h : ∀ part ∈ parts, part.WellFormed ∧ part.NoApostrophe) :
    (∃ terms, terms ≠ [] ∧ (∀ term ∈ terms, term.IsTerm) ∧
        stringOfMixed (parts.flatMap Part.source) = .ok (joined terms) ∧
        ∀ assignment, valueOf assignment terms = valueOf assignment parts) ↔
      ¬quotedBrace <:+: parts.flatMap Part.source := by
  have hplain := Runs.isPlain_ofParts h []
  have hstring := stringOfMixed_source fun part hpart =>
    ⟨(h part hpart).1, isTame_of_noApostrophe (h part hpart).2⟩
  have hwhole : Runs.AreWhole (Runs.ofParts [] parts).splices ↔
      ¬quotedBrace <:+: [] ++ parts.flatMap Part.source := Runs.areWhole_iff h (by simp)
  rw [List.nil_append] at hwhole
  rw [← hwhole, ← Runs.areClosed_written hplain, hstring]
  constructor
  · rintro ⟨terms, -, hterms, hjoined, -⟩
    rw [Except.ok.inj hjoined, areClosed_joined hterms]
  · intro hclosed
    refine ⟨(Runs.ofParts [] parts).terms, Runs.terms_ne_nil _, Runs.isTerm_terms hplain, ?_, ?_⟩
    · rw [Runs.written_eq ((Runs.areClosed_written hplain).1 hclosed)]
    · exact fun assignment => Runs.valueOf_terms_ofParts assignment [] parts

/-- An apostrophe inside of a literal does no harm. -/
theorem exists_terms_inside :
    ∃ terms, terms ≠ [] ∧ (∀ term ∈ terms, term.IsTerm) ∧
      stringOfMixed "it's \x7b$a\x7d\x7b\x7b $b>1 \x7d\x7d" = .ok (joined terms) ∧
      ∀ assignment, valueOf assignment terms =
        "it's " ++ (assignment.references "a" ++ assignment.expressions "$b>1") := by
  have hexpression : IsExpression "$b>1" :=
    ⟨⟨'$', _, rfl, by decide⟩, ⟨"$b>", '1', rfl, by decide⟩, by decide,
      by rw [← Text.contains_iff]; decide⟩
  obtain ⟨terms, hne, hterms, hjoined, hvalue⟩ :=
    (exists_terms_iff [.literal "it's ", .reference "a", .expression "$b>1"]
      (List.forall_mem_cons.2 ⟨⟨⟨by decide, by decide, by decide⟩, trivial⟩,
        List.forall_mem_cons.2 ⟨⟨⟨by decide, by decide⟩, trivial⟩,
          List.forall_mem_singleton.2 ⟨hexpression, show '\'' ∉ ("$b>1" : Text) by decide⟩⟩⟩)).2
      (by rw [← Text.contains_iff]; decide)
  refine ⟨terms, hne, hterms, hjoined, fun assignment => (hvalue assignment).trans ?_⟩
  simp only [valueOf, List.flatMap_cons, List.flatMap_nil, List.append_nil, Part.value]

/-- Behind an escaped apostrophe the closing quote is dropped. -/
theorem not_exists_terms_apostrophe :
    ¬∃ terms, terms ≠ [] ∧ (∀ term ∈ terms, term.IsTerm) ∧
      stringOfMixed (([.literal "x='", .reference "a"] : List Part).flatMap Part.source) =
        .ok (joined terms) ∧
      ∀ assignment, valueOf assignment terms =
        valueOf assignment [.literal "x='", .reference "a"] := by
  rintro ⟨terms, -, hterms, hjoined, -⟩
  have hstring :
      stringOfMixed (([.literal "x='", .reference "a"] : List Part).flatMap Part.source) =
      .ok "'x=\\$a" := by decide +kernel
  have hclosed := areClosed_joined hterms
  rw [← Except.ok.inj (hstring.symm.trans hjoined)] at hclosed
  exact absurd hclosed (by decide)

end LazyEmbed.Template
