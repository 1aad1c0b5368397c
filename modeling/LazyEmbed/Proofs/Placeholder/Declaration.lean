import LazyEmbed.Proofs.Text.Blank
import Mathlib.Algebra.GroupWithZero.Nat

/-!
# The declarations of a style

Between its semicolons a style has declarations, each with a property in front of the first colon
and a value behind it. Blanks around a property or a value mean nothing, and neither does a
declaration of blanks alone. So blanks at the ends of a style can go, and the declarations of two
styles with a semicolon between them are those of both.
-/

namespace LazyEmbed.Style

open Text

def declaration (text : Text) : Text × Text :=
  (trim (text.takeWhile (· ≠ ':')), trim (text.dropWhile (· ≠ ':')).tail)

def declarations (style : Text) : List (Text × Text) :=
  ((style.splitOn ';').filter fun text => !decide (IsBlanks text)).map declaration

variable {text blanks : Text}

theorem declarations_append (first second : Text) :
    declarations (first ++ ';' :: second) = declarations first ++ declarations second := by
  have hsplit : (first ++ ';' :: second).splitOn ';' = first.splitOn ';' ++ second.splitOn ';' := by
    simp only [List.splitOn_eq_splitOnP]
    exact List.splitOnP_append_cons _ _ (by decide)
  rw [declarations, hsplit, List.filter_append, List.map_append]
  rfl

theorem declarations_of_not_mem (h : ';' ∉ text) :
    declarations text = if IsBlanks text then [] else [declaration text] := by
  have hsplit : text.splitOn ';' = [text] := by
    rw [List.splitOn_eq_splitOnP, List.splitOnP_eq_singleton]
    exact fun c hc => beq_false_of_ne (ne_of_mem_of_not_mem hc h)
  rw [declarations, hsplit]
  split
  · next hblanks => simp [hblanks]
  · next hblanks => simp [hblanks]

theorem declarations_of_isBlanks (h : IsBlanks text) : declarations text = [] := by
  rw [declarations_of_not_mem (h.not_mem (by decide)), if_pos h]

/-! ### Blanks at the ends -/

theorem isBlanks_append_iff (h : IsBlanks blanks) : IsBlanks (blanks ++ text) ↔ IsBlanks text :=
  List.forall_mem_append.trans (and_iff_right h)

theorem isBlanks_append_iff' (h : IsBlanks blanks) : IsBlanks (text ++ blanks) ↔ IsBlanks text :=
  List.forall_mem_append.trans (and_iff_left h)

theorem colon_of_isBlanks (h : IsBlanks blanks) : ∀ c ∈ blanks, decide (c ≠ ':') = true :=
  Text.forall_ne_iff.2 (h.not_mem (by decide))

theorem declaration_blanks_append (h : IsBlanks blanks) (text : Text) :
    declaration (blanks ++ text) = declaration text := by
  have hcolon := colon_of_isBlanks h
  rw [declaration, List.takeWhile_append_of_pos hcolon, List.dropWhile_append_of_pos hcolon,
    trim_blanks_append h]
  rfl

theorem declaration_append_blanks (h : IsBlanks blanks) (text : Text) :
    declaration (text ++ blanks) = declaration text := by
  have hcolon := colon_of_isBlanks h
  by_cases hmem : ':' ∈ text
  · obtain ⟨property, value, rfl, hproperty⟩ := List.eq_append_cons_of_mem hmem
    have hall := Text.forall_ne_iff.2 hproperty
    rw [declaration, declaration, List.append_assoc, List.cons_append,
      Text.takeWhile_of_all hall (by decide), Text.dropWhile_of_all hall (by decide),
      Text.takeWhile_of_all hall (by decide), Text.dropWhile_of_all hall (by decide),
      List.tail_cons, List.tail_cons, trim_append_blanks h]
  · have hall := Text.forall_ne_iff.2 hmem
    have hboth : ∀ c ∈ text ++ blanks, decide (c ≠ ':') = true :=
      List.forall_mem_append.2 ⟨hall, hcolon⟩
    rw [declaration, declaration, List.takeWhile_eq_self_iff.2 hboth,
      List.dropWhile_eq_nil_iff.2 hboth, List.takeWhile_eq_self_iff.2 hall,
      List.dropWhile_eq_nil_iff.2 hall, trim_append_blanks h]

theorem declarations_blanks_append (h : IsBlanks blanks) (text : Text) :
    declarations (blanks ++ text) = declarations text := by
  have hsemicolon : ';' ∉ blanks := h.not_mem (by decide)
  have hone : ∀ text : Text, ';' ∉ text → declarations (blanks ++ text) = declarations text := by
    intro text htext
    have hboth : ';' ∉ blanks ++ text := fun hmem => (List.mem_append.1 hmem).elim hsemicolon htext
    simp only [declarations_of_not_mem hboth, declarations_of_not_mem htext, isBlanks_append_iff h,
      declaration_blanks_append h]
  by_cases hmem : ';' ∈ text
  · obtain ⟨first, second, rfl, hfirst⟩ := List.eq_append_cons_of_mem hmem
    rw [← List.append_assoc, declarations_append, declarations_append, hone first hfirst]
  · exact hone text hmem

theorem declarations_append_blanks (h : IsBlanks blanks) (text : Text) :
    declarations (text ++ blanks) = declarations text := by
  have hsemicolon : ';' ∉ blanks := h.not_mem (by decide)
  induction hlength : text.length using Nat.strong_induction_on generalizing text with
  | h length ih =>
    subst hlength
    by_cases hmem : ';' ∈ text
    · obtain ⟨first, second, rfl, -⟩ := List.eq_append_cons_of_mem hmem
      rw [List.append_assoc, List.cons_append, declarations_append, declarations_append,
        ih second.length (by simp; omega) second rfl]
    · have hboth : ';' ∉ text ++ blanks :=
        fun hmem' => (List.mem_append.1 hmem').elim hmem hsemicolon
      simp only [declarations_of_not_mem hboth, declarations_of_not_mem hmem,
        isBlanks_append_iff' h, declaration_append_blanks h]

/-! ### Lists of declarations -/

/-- A property and a value with a colon between them, and blanks in front. -/
inductive IsDeclared : Text → Prop
  | mk {lead property value : Text} (hlead : IsBlanks lead) (hproperty : property ≠ [])
      (hname : ∀ c ∈ property, c ≠ ':' ∧ c ≠ ';' ∧ isBlank c = false) (hvalue : value ≠ [])
      (hend : ';' ∉ value) : IsDeclared (lead ++ (property ++ ':' :: value))

/-- Declarations with semicolons between them. Behind the last there may be a semicolon, and
blanks. -/
inductive IsList : Text → Prop
  | blanks {text : Text} (h : IsBlanks text) : IsList text
  | last {text : Text} (h : IsDeclared text) : IsList text
  | more {part rest : Text} (h : IsDeclared part) (hrest : IsList rest) :
      IsList (part ++ ';' :: rest)

theorem IsDeclared.not_mem (h : IsDeclared text) : ';' ∉ text := by
  cases h with
  | mk hlead hproperty hname hvalue hend =>
    intro hmem
    rcases List.mem_append.1 hmem with hmem | hmem
    · exact hlead.not_mem (by decide) hmem
    · rcases List.mem_append.1 hmem with hmem | hmem
      · exact (hname ';' hmem).2.1 rfl
      · exact (List.mem_cons.1 hmem).elim (by decide) hend

/-- A single declaration is read with its name and its trimmed value. -/
theorem declarations_declared {lead property value : Text} (hlead : IsBlanks lead)
    (hname : ∀ c ∈ property, c ≠ ':' ∧ c ≠ ';' ∧ isBlank c = false) (hend : ';' ∉ value) :
    declarations (lead ++ (property ++ ':' :: value)) = [(property, trim value)] := by
  have hcolon : ∀ c ∈ property, decide (c ≠ ':') = true := fun c hc => decide_eq_true (hname c hc).1
  have hblank : ∀ c ∈ property, isBlank c = false := fun c hc => (hname c hc).2.2
  have htrim : trim property = property := trim_eq_self hblank
  have hsemicolon : ';' ∉ property ++ ':' :: value := fun hmem =>
    (List.mem_append.1 hmem).elim (fun hc => (hname ';' hc).2.1 rfl)
      fun hc => (List.mem_cons.1 hc).elim (by decide) hend
  have hnot : ¬IsBlanks (property ++ ':' :: value) := fun hblanks =>
    hblanks.not_mem (c := ':') (by decide) (List.mem_append_right _ List.mem_cons_self)
  rw [declarations_blanks_append hlead, declarations_of_not_mem hsemicolon, if_neg hnot,
    declaration, Text.takeWhile_of_all hcolon (by decide),
    Text.dropWhile_of_all hcolon (by decide), htrim]
  rfl

/-! ### Nothing gets lost -/

/-- How many characters of the text are neither blanks nor signs between properties and values. -/
def weight (text : Text) : Nat := text.countP fun c => !isBlank c && c ≠ ';' && c ≠ ':'

def weightAll (list : List (Text × Text)) : Nat :=
  (list.map fun item => weight item.1 + weight item.2).sum

theorem weight_append (first second : Text) :
    weight (first ++ second) = weight first + weight second :=
  List.countP_append

theorem weight_semicolon_cons (text : Text) : weight (';' :: text) = weight text := by
  simp [weight]

theorem weightAll_append (first second : List (Text × Text)) :
    weightAll (first ++ second) = weightAll first + weightAll second := by
  rw [weightAll, List.map_append, List.sum_append]
  rfl

theorem weight_of_isBlanks (h : IsBlanks blanks) : weight blanks = 0 := by
  rw [weight, List.countP_eq_zero]
  intro c hc
  simp [h c hc]

theorem weight_trim (text : Text) : weight (trim text) = weight text := by
  obtain ⟨before, after, hbefore, hafter, htext⟩ := exists_trim text
  have hweight : weight text = weight (before ++ (trim text ++ after)) := congrArg weight htext
  rw [weight_append, weight_append, weight_of_isBlanks hbefore,
    weight_of_isBlanks hafter] at hweight
  omega

theorem weight_declaration (text : Text) :
    weight (declaration text).1 + weight (declaration text).2 = weight text := by
  have hvalue : weight (text.dropWhile (· ≠ ':')).tail = weight (text.dropWhile (· ≠ ':')) := by
    cases hdrop : text.dropWhile (· ≠ ':') with
    | nil => rfl
    | cons c value =>
      have hhead := List.head?_dropWhile_not (· ≠ ':') text
      rw [hdrop] at hhead
      obtain rfl : c = ':' := by simpa using hhead
      simp [weight]
  rw [declaration, weight_trim, weight_trim, hvalue, ← weight_append,
    List.takeWhile_append_dropWhile]

/-- What is in a style is in its declarations. -/
theorem weightAll_declarations (text : Text) : weightAll (declarations text) = weight text := by
  induction hlength : text.length using Nat.strong_induction_on generalizing text with
  | h length ih =>
    subst hlength
    have hone : ∀ text : Text, ';' ∉ text → weightAll (declarations text) = weight text := by
      intro text htext
      rw [declarations_of_not_mem htext]
      split
      · next hblanks => exact (weight_of_isBlanks hblanks).symm
      · simpa [weightAll] using weight_declaration text
    by_cases hmem : ';' ∈ text
    · obtain ⟨first, second, rfl, hfirst⟩ := List.eq_append_cons_of_mem hmem
      have hsecond := ih second.length (by simp; omega) second rfl
      rw [declarations_append, weight_append, weight_semicolon_cons, ← hone first hfirst, ← hsecond,
        weightAll_append]
    · exact hone text hmem

end LazyEmbed.Style
