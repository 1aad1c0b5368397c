import LazyEmbed.Proofs.Template.Quoting

/-!
# Empty literals are dropped

The text that mixed content becomes has a literal on both sides of every variable and every
expression, and what is dropped from it are two apostrophes next to a dot. These are an empty
literal, as they should be, or the last two characters of a literal that ends in an escaped
apostrophe. Of such a literal, with something behind it, the closing quote goes with the escaped
apostrophe, and only the backslash is left.
-/

namespace LazyEmbed.Template

namespace MixedContent

theorem emptyBefore_ne_nil : ("'' . " : Text) ≠ [] := by decide

theorem emptyAfter_ne_nil : (" . ''" : Text) ≠ [] := by decide

def emptyBefore : Pattern Unit := .fixed "'' . " emptyBefore_ne_nil

def emptyAfter : Pattern Unit := .fixed " . ''" emptyAfter_ne_nil

theorem dropEmpty_eq (text : Text) :
    dropEmpty text = emptyAfter.remove (emptyBefore.remove text) := rfl

variable {text rest : Text}

/-! ### Apostrophes in escaped text -/

theorem escape_cons (c : Char) (text : Text) :
    escape (c :: text) = escapeChar c ++ escape text := rfl

theorem escapeChar_cases (c : Char) :
    (c ≠ '\\' ∧ c ≠ '\'' ∧ escapeChar c = [c]) ∨
      ((c = '\\' ∨ c = '\'') ∧ escapeChar c = ['\\', c]) := by
  by_cases hbackslash : c = '\\'
  · subst hbackslash
    exact .inr ⟨.inl rfl, rfl⟩
  by_cases hquote : c = '\''
  · subst hquote
    exact .inr ⟨.inr rfl, rfl⟩
  exact .inl ⟨hbackslash, hquote, escapeChar_of_ne hbackslash hquote⟩

theorem head?_escape_append {text : Text} (h : text = [] → rest.head? ≠ some '\'') :
    (escape text ++ rest).head? ≠ some '\'' := by
  cases text with
  | nil => exact h rfl
  | cons c text =>
    obtain ⟨-, hc, hchar⟩ | ⟨-, hchar⟩ := escapeChar_cases c
    · simpa [escape_cons, hchar] using hc
    · simp [escape_cons, hchar]

/-- In an escaped text an apostrophe follows a backslash only. -/
theorem misses_before_apostrophe {d : Char} (hd : d ≠ '\\') (h : rest.head? ≠ some '\'')
    (text : Text) : Text.Misses [d, '\''] (escape text) rest := by
  have hcons : ∀ {c : Char} {text : Text}, text.head? ≠ some '\'' → ¬[d, '\''] <+: c :: text := by
    rintro c text htext ⟨behind, heq⟩
    rw [← (List.cons.inj heq).2] at htext
    exact htext rfl
  induction text with
  | nil => exact Text.misses_nil _ _
  | cons c text ih =>
    have hhead : (escape text ++ rest).head? ≠ some '\'' := head?_escape_append fun _ => h
    obtain ⟨-, -, hchar⟩ | ⟨-, hchar⟩ := escapeChar_cases c
    · rw [escape_cons, hchar]
      exact Text.misses_cons (hcons hhead) ih
    · rw [escape_cons, hchar]
      refine Text.misses_cons (fun hbegins => ?_) (Text.misses_cons (hcons hhead) ih)
      exact hd (List.cons_prefix_cons.1 hbegins).1

/-- No two apostrophes begin between the opening quote and a character that is none. -/
theorem misses_twoQuotes (h : rest.head? ≠ some '\'') (text : Text) :
    Text.Misses "''" ('\'' :: escape text) rest := by
  have hhead : (escape text ++ rest).head? ≠ some '\'' := head?_escape_append fun _ => h
  refine Text.misses_cons (fun ⟨behind, heq⟩ => hhead ?_)
    (misses_before_apostrophe (by decide) h text)
  rw [← (List.cons.inj heq).2]
  rfl

/-! ### Literals before something else -/

/-- Proof by the end of a text: there is none, or it is an apostrophe, or another character. -/
theorem endCases {motive : Text → Prop} (nil : motive [])
    (apostrophe : ∀ init, motive (init ++ ['\'']))
    (other : ∀ init c, c ≠ '\'' → motive (init ++ [c])) (text : Text) : motive text := by
  obtain rfl | ⟨init, c, rfl⟩ := List.eq_nil_or_concat text
  · exact nil
  rw [List.concat_eq_append]
  by_cases hc : c = '\''
  · exact hc ▸ apostrophe init
  · exact other init c hc

def opened (text : Text) : Text :=
  if text = [] then []
  else if text.getLast? = some '\'' then '\'' :: (escape text.dropLast ++ ['\\'])
  else quote text ++ " . "

theorem opened_nil : opened [] = [] := rfl

theorem opened_apostrophe (text : Text) :
    opened (text ++ ['\'']) = '\'' :: (escape text ++ ['\\']) := by
  simp [opened]

theorem opened_concat {c : Char} (h : c ≠ '\'') (text : Text) :
    opened (text ++ [c]) = quote (text ++ [c]) ++ " . " := by
  simp [opened, h]

theorem misses_quote_concat {c : Char} (h : c ≠ '\'') (text : Text) :
    Text.Misses "''" ('\'' :: escape (text ++ [c])) rest := by
  have hchar : '\'' ∉ escapeChar c := by
    obtain ⟨-, -, hchar⟩ | ⟨-, hchar⟩ := escapeChar_cases c
    · simpa [hchar] using Ne.symm h
    · simpa [hchar] using Ne.symm h
  have hhead : (escapeChar c ++ rest).head? ≠ some '\'' := by
    obtain ⟨-, -, hchar⟩ | ⟨-, hchar⟩ := escapeChar_cases c
    · simpa [hchar] using h
    · simp [hchar]
  have hsplit : '\'' :: escape (text ++ [c]) = '\'' :: escape text ++ escapeChar c := by
    simp [escape]
  rw [hsplit]
  exact (misses_twoQuotes hhead text).append (Text.misses_of_not_mem hchar)

theorem emptyBefore_beginsWith : emptyBefore.BeginsWith "'' . " :=
  Pattern.after_beginsWith _ _ (by decide)

theorem twoQuotes_prefix : ("''" : Text) <+: "'' . " := ⟨" . ", rfl⟩

theorem passes_before (h : Text.Misses "''" text rest) : emptyBefore.Passes text rest :=
  emptyBefore_beginsWith.passes (h.of_isPrefix twoQuotes_prefix)

theorem remove_before_hit (rest : Text) :
    emptyBefore.remove ("'' . " ++ rest) = emptyBefore.remove rest :=
  Pattern.replace_of_run_eq_some (Pattern.run_after_append _ _ (by decide) rest)

theorem remove_before_opened (text rest : Text) :
    emptyBefore.remove (quote text ++ (" . " ++ rest)) = opened text ++
      emptyBefore.remove rest := by
  induction text using endCases with
  | nil => exact remove_before_hit rest
  | apostrophe init =>
    have hopen : Text.Misses "''" ('\'' :: escape init ++ ['\\']) ("'' . " ++ rest) :=
      (misses_twoQuotes (by simp) init).append (Text.misses_of_not_mem (by decide))
    have hsplit : quote (init ++ ['\'']) ++ (" . " ++ rest) =
        ('\'' :: escape init ++ ['\\']) ++ ("'' . " ++ rest) := by
      rw [quote_eq, escape_append]
      simp [escape, escapeChar]
    rw [hsplit, Pattern.remove, Pattern.replace_append (passes_before hopen), ← Pattern.remove,
      remove_before_hit, opened_apostrophe]
    rfl
  | other init c hc =>
    have hliteral : Text.Misses "''" ('\'' :: escape (init ++ [c]) ++ "' . ") rest := by
      refine (misses_quote_concat hc init).append ?_
      refine Text.misses_cons ?_ (Text.misses_of_not_mem (by decide))
      rintro ⟨behind, heq⟩
      exact absurd (List.cons.inj (List.cons.inj heq).2).1 (by decide)
    have hsplit : quote (init ++ [c]) ++ (" . " ++ rest) =
        ('\'' :: escape (init ++ [c]) ++ "' . ") ++ rest := by
      rw [quote_eq]
      simp
    rw [hsplit, Pattern.remove, Pattern.replace_append (passes_before hliteral), ← Pattern.remove,
      opened_concat hc, quote_eq]
    simp

theorem misses_before_end {text : Text} (h : text = ['\''] ∨ text = ['\'', '\'']) :
    Text.Misses "'' . " text [] := by
  refine Text.misses_of_not_isInfix ?_ (by simp)
  rw [← Text.contains_iff]
  obtain rfl | rfl := h <;> decide

theorem remove_before_quote (text : Text) : emptyBefore.remove (quote text) = quote text := by
  refine Pattern.replace_eq_self _ (emptyBefore_beginsWith.passes ?_)
  induction text using endCases with
  | nil => exact misses_before_end (.inr rfl)
  | apostrophe init =>
    have hsplit : quote (init ++ ['\'']) = ('\'' :: escape init ++ ['\\']) ++ ['\'', '\''] := by
      rw [quote_eq, escape_append]
      simp [escape, escapeChar]
    have hopen : Text.Misses "''" ('\'' :: escape init ++ ['\\']) ['\'', '\''] :=
      (misses_twoQuotes (by simp) init).append (Text.misses_of_not_mem (by decide))
    rw [hsplit]
    exact (hopen.of_isPrefix twoQuotes_prefix).append (misses_before_end (.inr rfl))
  | other init c hc =>
    rw [quote_eq, ← List.cons_append]
    exact ((misses_quote_concat hc init).of_isPrefix twoQuotes_prefix).append
      (misses_before_end (.inl rfl))

theorem emptyAfter_beginsWith : emptyAfter.BeginsWith " . ''" :=
  Pattern.after_beginsWith _ _ (by decide)

theorem not_begins_emptyAfter {c : Char} (h : c ≠ ' ') (text : Text) :
    ¬(" . ''" : Text) <+: c :: text :=
  fun ⟨_, heq⟩ => h (List.cons.inj heq).1.symm

/-- Two apostrophes behind a dot begin in no escaped text, unless both come behind it. -/
theorem misses_after_escape {c : Char} (hblank : c ≠ ' ') (hdot : c ≠ '.')
    (hquote : c = '\'' → rest.head? ≠ some '\'') (text : Text) :
    Text.Misses " . ''" (escape text) (c :: rest) := by
  rintro before after heq hne ⟨behind, hbehind⟩
  have hbehind : ' ' :: '.' :: ' ' :: '\'' :: '\'' :: behind = after ++ c :: rest := hbehind
  match after with
  | [] => exact hne rfl
  | [_] => exact hdot (List.cons.inj (List.cons.inj hbehind).2).1.symm
  | [_, _] => exact hblank (List.cons.inj (List.cons.inj (List.cons.inj hbehind).2).2).1.symm
  | [_, _, _] =>
    obtain ⟨-, -, -, rfl, rfl⟩ : _ ∧ _ ∧ _ ∧ _ ∧ _ := by simpa using hbehind
    exact hquote rfl rfl
  | a :: b :: d :: e :: more =>
    obtain ⟨-, -, rfl, rfl, -⟩ : _ ∧ _ ∧ _ ∧ _ ∧ _ := by simpa using hbehind
    have hmisses : Text.Misses [' ', '\''] (escape text) [] :=
      misses_before_apostrophe (by decide) (by simp) text
    exact hmisses.not_isInfix (by simp) ⟨before ++ [a, b], more, by simp [heq]⟩

theorem misses_after_dot (hquote : ¬['\'', '\''] <+: rest) (hdot : rest.head? ≠ some '.') :
    Text.Misses " . ''" " . " rest := by
  refine Text.misses_cons ?_ (Text.misses_cons (not_begins_emptyAfter (by decide) _)
    (Text.misses_cons ?_ (Text.misses_nil _ _)))
  · rintro ⟨behind, hbehind⟩
    have hbehind : (" . " : Text) ++ '\'' :: '\'' :: behind = " . " ++ rest := hbehind
    have hbehind : '\'' :: '\'' :: behind = rest := List.append_cancel_left hbehind
    exact hquote ⟨behind, hbehind⟩
  · rintro ⟨behind, hbehind⟩
    have hbehind : '.' :: ' ' :: '\'' :: '\'' :: behind = rest := (List.cons.inj hbehind).2
    exact hdot (hbehind ▸ rfl)

/-- Behind a dot, a literal that is not empty is no two apostrophes. -/
theorem misses_after_dot_quote (h : rest.head? ≠ some '\'') :
    Text.Misses " . ''" " . " ('\'' :: rest) := by
  refine misses_after_dot (fun hbegins => h ?_) (by simp)
  obtain ⟨behind, hbehind⟩ := (List.cons_prefix_cons.1 hbegins).2
  rw [← hbehind]
  rfl

theorem misses_after_opened {c : Char} (hdot : c ≠ '.') (hquote : c ≠ '\'')
    (text : Text) : Text.Misses " . ''" (opened text) (c :: rest) := by
  induction text using endCases with
  | nil => exact Text.misses_nil _ _
  | apostrophe init =>
    rw [opened_apostrophe]
    refine Text.misses_cons (not_begins_emptyAfter (by decide) _) ?_
    exact (misses_after_escape (by decide) (by decide) (by simp) init).append
      (Text.misses_of_not_mem (by decide))
  | other init d hd =>
    have hsplit : opened (init ++ [d]) = '\'' :: (escape (init ++ [d]) ++ '\'' :: " . ") := by
      rw [opened_concat hd, quote_eq]
      simp
    rw [hsplit]
    refine Text.misses_cons (not_begins_emptyAfter (by decide) _) ?_
    refine (misses_after_escape (by decide) (by decide) (by simp) _).append ?_
    refine Text.misses_cons (not_begins_emptyAfter (by decide) _) (misses_after_dot ?_ ?_)
    · exact fun hbegins => hquote (List.cons_prefix_cons.1 hbegins).1.symm
    · simpa using hdot

theorem misses_after_quote (text : Text) : Text.Misses " . ''" (quote text) [] := by
  refine Text.misses_cons (not_begins_emptyAfter (by decide) _) ?_
  refine (misses_after_escape (by decide) (by decide) (by simp) text).append ?_
  exact Text.misses_cons (not_begins_emptyAfter (by decide) _) (Text.misses_nil _ _)

end MixedContent

open MixedContent

/-! ### Literals joined -/

/-- Mixed content with literals joined that touch: the other parts, each with the text before it,
and the text behind all of them. -/
structure Runs where
  splices : List (Text × Part)
  last : Text

/-- What can be spliced in between literals and is left alone when empty literals are dropped. -/
structure IsSplice (term : Text) : Prop where
  first : ∃ c rest, term = c :: rest ∧ (c = '$' ∨ c = '(')
  before : ∀ rest, Text.Misses "'' . " term rest
  after : ∀ rest, Text.Misses " . ''" term rest

namespace Runs

def cons (text : Text) (part : Part) (runs : Runs) : Runs :=
  ⟨(text, part) :: runs.splices, runs.last⟩

def ofParts : (text : Text) → List Part → Runs
  | text, [] => ⟨[], text⟩
  | text, .literal more :: parts => ofParts (text ++ more) parts
  | text, .reference name :: parts => (ofParts [] parts).cons text (.reference name)
  | text, .expression found :: parts => (ofParts [] parts).cons text (.expression found)

def coveredSplice (splice : Text × Part) : Text :=
  quote splice.1 ++ (" . " ++ (splice.2.term ++ (" . " : Text)))

def covered (runs : Runs) : Text := runs.splices.flatMap coveredSplice ++ quote runs.last

theorem covered_cons (text : Text) (part : Part) (runs : Runs) :
    (runs.cons text part).covered = quote text ++
      (" . " ++ (part.term ++ (" . " ++ runs.covered))) := by
  simp only [covered, cons, coveredSplice, List.flatMap_cons, List.append_assoc]

theorem covered_ofParts (text : Text) (parts : List Part) :
    (ofParts text parts).covered =
      '\'' :: (escape text ++ (parts.flatMap Part.covered ++ ['\''])) := by
  induction parts generalizing text with
  | nil => rfl
  | cons part parts ih =>
    rw [List.flatMap_cons]
    cases part with
    | literal more =>
      rw [ofParts, ih, escape_append, List.append_assoc, List.append_assoc]
      rfl
    | reference name | expression found =>
      rw [ofParts, covered_cons, ih, quote_eq]
      unfold Part.covered splice
      simp only [List.append_assoc, List.cons_append, List.nil_append]
      rfl

def openedSplice (splice : Text × Part) : Text := opened splice.1 ++ splice.2.term

def further (splices : List (Text × Part)) (last : Text) : Text :=
  (splices.flatMap fun splice => (" . " : Text) ++ openedSplice splice) ++
    if last = [] then [] else (" . " : Text) ++ quote last

def written : Runs → Text
  | ⟨[], last⟩ => quote last
  | ⟨splice :: splices, last⟩ => openedSplice splice ++ further splices last

section

variable {splice : Text × Part} (h : IsSplice splice.2.term)
include h

/-- The first removal opens a splice and goes on behind its dot. -/
theorem remove_before_splice (rest : Text) :
    emptyBefore.remove (coveredSplice splice ++ rest) =
      openedSplice splice ++ (" . " ++ emptyBefore.remove rest) := by
  have hdot : Text.Misses "'' . " " . " rest := Text.misses_of_not_mem (by decide)
  have hterm : emptyBefore.remove (splice.2.term ++ (" . " ++ rest)) =
      splice.2.term ++ (" . " ++ emptyBefore.remove rest) := by
    rw [Pattern.remove, Pattern.replace_append (emptyBefore_beginsWith.passes (h.before _)),
      Pattern.replace_append (emptyBefore_beginsWith.passes hdot)]
    rfl
  rw [coveredSplice, List.append_assoc, List.append_assoc, List.append_assoc, remove_before_opened,
    hterm, openedSplice, List.append_assoc]

theorem remove_after_splice (rest : Text) :
    emptyAfter.remove (openedSplice splice ++ rest) = openedSplice splice ++
      emptyAfter.remove rest := by
  obtain ⟨c, behind, hterm, hc⟩ := h.first
  refine Pattern.replace_append
    (emptyAfter_beginsWith.passes (Text.Misses.append ?_ (h.after rest))) _
  rw [hterm, List.cons_append]
  obtain rfl | rfl := hc
  · exact misses_after_opened (by decide) (by decide) _
  · exact misses_after_opened (by decide) (by decide) _

theorem misses_after_dot_splice (rest : Text) :
    Text.Misses " . ''" " . " (openedSplice splice ++ rest) := by
  obtain ⟨c, behind, hterm, hc⟩ := h.first
  rw [openedSplice, hterm]
  induction splice.1 using endCases with
  | nil =>
    refine misses_after_dot (fun hbegins => ?_) ?_
    · have heq := (List.cons_prefix_cons.1 hbegins).1
      obtain rfl | rfl := hc <;> exact absurd heq (by decide)
    · obtain rfl | rfl := hc <;> simp [opened_nil]
  | apostrophe init =>
    rw [opened_apostrophe, List.cons_append, List.cons_append, List.append_assoc, List.append_assoc]
    exact misses_after_dot_quote (head?_escape_append fun _ => by simp)
  | other init d hd =>
    rw [opened_concat hd, quote_eq, List.cons_append, List.cons_append, List.cons_append,
      List.append_assoc, List.append_assoc, List.append_assoc]
    exact misses_after_dot_quote (head?_escape_append fun hnil => by simp at hnil)

end

/-- The second removal leaves the splices as the runs write them. -/
theorem remove_after_further {splices : List (Text × Part)}
    (h : ∀ splice ∈ splices, IsSplice splice.2.term) (last : Text) :
    emptyAfter.remove (" . " ++
      ((splices.flatMap fun splice => openedSplice splice ++ (" . " : Text)) ++ quote last)) =
        further splices last := by
  induction splices with
  | nil =>
    by_cases hlast : last = []
    · subst hlast
      decide +kernel
    · have hquote : Text.Misses " . ''" " . " (quote last) :=
        misses_after_dot_quote (head?_escape_append fun hnil => absurd hnil hlast)
      rw [List.flatMap_nil, List.nil_append, Pattern.remove, further, if_neg hlast,
        List.flatMap_nil, Pattern.replace_append (emptyAfter_beginsWith.passes hquote),
        Pattern.replace_eq_self _ (emptyAfter_beginsWith.passes (misses_after_quote last))]
      rfl
  | cons splice splices ih =>
    obtain ⟨hsplice, hsplices⟩ := List.forall_mem_cons.1 h
    have hdot := misses_after_dot_splice hsplice
    rw [List.flatMap_cons, List.append_assoc, List.append_assoc, Pattern.remove,
      Pattern.replace_append (emptyAfter_beginsWith.passes (hdot _)), ← Pattern.remove,
      remove_after_splice hsplice, ih hsplices]
    simp only [further, List.flatMap_cons, List.append_assoc]

/-- Dropping empty literals leaves the splices, each with what is left of the literal before it. -/
theorem dropEmpty_covered {runs : Runs} (h : ∀ splice ∈ runs.splices, IsSplice splice.2.term) :
    dropEmpty runs.covered = runs.written := by
  have hbefore : emptyBefore.remove runs.covered =
      (runs.splices.flatMap fun splice => openedSplice splice ++ (" . " : Text)) ++
      quote runs.last := by
    rw [covered, Pattern.remove, Pattern.replace_flatMap _ fun splice hsplice rest => ?_,
      ← Pattern.remove, remove_before_quote]
    rw [← Pattern.remove, remove_before_splice (h splice hsplice), List.append_assoc]
    rfl
  rw [dropEmpty_eq, hbefore]
  obtain ⟨splices, last⟩ := runs
  cases splices with
  | nil => exact Pattern.replace_eq_self _ (emptyAfter_beginsWith.passes (misses_after_quote last))
  | cons splice splices =>
    obtain ⟨hsplice, hsplices⟩ := List.forall_mem_cons.1 h
    rw [List.flatMap_cons, List.append_assoc, List.append_assoc, remove_after_splice hsplice,
      remove_after_further hsplices]
    rfl

end Runs

end LazyEmbed.Template
