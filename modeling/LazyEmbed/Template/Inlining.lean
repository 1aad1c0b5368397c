import LazyEmbed.Text.Pattern
import LazyEmbed.Text.Word

/-!
Attributes written as elements. An attribute element that directly follows a start tag becomes an
attribute of that tag, which then ends where the element ended; so the next attribute element
follows the tag in its turn. Each step makes the text shorter, which is why the steps end.
-/

namespace LazyEmbed.Template

/-- A start tag, up to its closing bracket, with an attribute element directly behind it. -/
structure Inlinable where
  /-- The tag without its brackets. -/
  tag : Text
  name : Text
  value : Text

namespace Inlinable

/-- The text goes on with a namespace, that is, a word and a colon. -/
def isNamespaced (text : Text) : Bool :=
  !(text.takeWhile Text.isWord).isEmpty && (text.dropWhile Text.isWord).head? == some ':'

def body : Reader Inlinable := do
  .ahead (!isNamespaced ·)
  let tag ← .many (· ≠ '>')
  .literal "><xsl:attribute name=\""
  let name ← .many1 Text.isWord
  .literal "\">"
  let value ← .upTo (· ≠ '\n') "</xsl:attribute>"
  pure ⟨tag, name, value⟩

theorem start_ne_nil : ("<" : Text) ≠ [] := by decide

def pattern : Pattern Inlinable := .after "<" body start_ne_nil

def inlined (found : Inlinable) : Text :=
  "<" ++ found.tag ++ " " ++ found.name ++ "=\"" ++ found.value ++ "\">"

/-- What the pattern reads is the tag, the attribute element around the value, and nothing else. -/
theorem eq_append_of_run {text rest : Text} {found : Inlinable}
    (h : pattern.reader.run text = some (found, rest)) :
    text = "<" ++ found.tag ++ "><xsl:attribute name=\"" ++ found.name ++ "\">" ++ found.value
      ++ "</xsl:attribute>" ++ rest := by
  simp only [pattern, Pattern.after, body, Reader.upTo, Reader.run_bind, Reader.run_ahead,
    Reader.run_many, Reader.run_many1, Reader.run_pure, Option.bind_eq_some_iff, Prod.exists,
    Reader.run_literal_eq_some_iff, Option.ite_none_left_eq_some, Option.ite_none_right_eq_some,
    Option.some.injEq, Prod.mk.injEq] at h
  obtain ⟨-, r₁, rfl, -, r₂, ⟨-, -, rfl⟩, tag, r₃, ⟨rfl, rfl⟩, -, r₄, h₄, name, r₅, ⟨-, rfl, rfl⟩,
    -, r₆, h₆, value, r₇, ⟨_, _, r₈, h₈, rfl, rfl⟩, rfl, rfl⟩ := h
  obtain ⟨after, h₉, hstop, -⟩ := Reader.shortestRun_eq_some h₈
  have h₁₀ := Reader.run_literal_eq_some_iff.1 hstop
  have e₂ := List.takeWhile_append_dropWhile (p := fun c => decide (c ≠ '>')) (l := r₁)
  have e₅ := List.takeWhile_append_dropWhile (p := Text.isWord) (l := r₄)
  simp only [List.append_assoc]
  rw [← h₁₀, ← h₉, ← h₆, e₅, ← h₄, e₂]

end Inlinable

def inlineFirst? (text : Text) : Option Text :=
  (Inlinable.pattern.splitFirst? text).map fun (before, found, rest) =>
    before ++ found.inlined ++ rest

theorem length_lt_of_inlineFirst? {text shorter : Text} (h : inlineFirst? text = some shorter) :
    shorter.length < text.length := by
  obtain ⟨⟨before, found, rest⟩, hsplit, rfl⟩ := Option.map_eq_some_iff.1 h
  obtain ⟨tail, rfl, hrun⟩ := Pattern.splitFirst?_eq_some hsplit
  rw [Inlinable.eq_append_of_run hrun]
  unfold Inlinable.inlined
  simp
  omega

/-- Moves attribute elements into their tags, one after the other, as long as there is one. -/
def inlineAttributes (text : Text) : Text :=
  match _h : inlineFirst? text with
  | some shorter => inlineAttributes shorter
  | none => text
termination_by text.length
decreasing_by exact length_lt_of_inlineFirst? _h

end LazyEmbed.Template
