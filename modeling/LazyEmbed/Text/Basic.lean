/-!
A text is a list of characters. Everything in the library that reads, changes or prints text
works on such lists, so each law about text is an induction on a list; strings appear only as
literals and at the outer border.

The characters are Unicode scalar values. A lone surrogate, for which there are no octets in UTF-8,
is not one of them: no text here holds any, and what is shown of all texts leaves open what happens
to text that does.
-/

namespace LazyEmbed

/-- A sequence of characters, that is, of Unicode scalar values. -/
abbrev Text := List Char

/-- A string literal stands for the list of its characters. -/
instance instCoeText : Coe String (List Char) := ⟨String.toList⟩

namespace Text

instance instLawfulBEq : LawfulBEq Text := inferInstanceAs (LawfulBEq (List Char))

/-- Texts are ordered by the first characters in which they differ; a beginning of a text comes
before it. -/
instance : LE Text := List.instLE

theorem pairwise_mergeSort (texts : List Text) : texts.mergeSort.Pairwise (· ≤ ·) := by
  have htrans : ∀ a b c : Text, decide (a ≤ b) = true → decide (b ≤ c) = true →
      decide (a ≤ c) = true := fun a b c hab hbc =>
    decide_eq_true (List.le_trans (of_decide_eq_true hab) (of_decide_eq_true hbc))
  have htotal : ∀ a b : Text, (decide (a ≤ b) || decide (b ≤ a)) = true := fun a b => by
    simpa using List.le_total a b
  exact (List.pairwise_mergeSort htrans htotal texts).imp of_decide_eq_true

def afterStart? : (start text : Text) → Option Text
  | [], text => some text
  | _ :: _, [] => none
  | expected :: start, found :: text => if expected = found then afterStart? start text else none

@[simp]
theorem afterStart?_nil (text : Text) : afterStart? [] text = some text := by
  cases text <;> rfl

@[simp]
theorem afterStart?_append (start rest : Text) :
    afterStart? start (start ++ rest) = some rest := by
  induction start with
  | nil => simp
  | cons c start ih => simp [afterStart?, ih]

theorem eq_append_of_afterStart? {start text rest : Text}
    (h : afterStart? start text = some rest) : text = start ++ rest := by
  induction start generalizing text with
  | nil => simpa using h
  | cons c start ih =>
    cases text with
    | nil => simp [afterStart?] at h
    | cons d text =>
      by_cases hcd : c = d
      · subst hcd
        simp only [afterStart?, if_true] at h
        simp [ih h]
      · simp [afterStart?, hcd] at h

/-- A text begins with another exactly when that other can be taken off its front. -/
theorem afterStart?_eq_some_iff {start text rest : Text} :
    afterStart? start text = some rest ↔ text = start ++ rest :=
  ⟨eq_append_of_afterStart?, fun h => h ▸ afterStart?_append start rest⟩

def contains (part : Text) : Text → Bool
  | [] => part.isEmpty
  | c :: text => part.isPrefixOf (c :: text) || contains part text

theorem contains_iff {part text : Text} : contains part text = true ↔ part <:+: text := by
  induction text with
  | nil => simp [contains]
  | cons c text ih => simp [contains, ih, List.infix_cons_iff]

def trimBy (drop : Char → Bool) (text : Text) : Text :=
  ((text.dropWhile drop).reverse.dropWhile drop).reverse

def lines (text : Text) : List Text := text.splitOn '\n'

def ofLines (lines : List Text) : Text := lines.flatMap fun line => line ++ ['\n']

end Text

end LazyEmbed
