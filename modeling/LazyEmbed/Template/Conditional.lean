import LazyEmbed.Template.MixedContent

/-!
Conditionals inside an attribute value. A conditional whose branches hold no markup becomes a
ternary expression; since the result holds no markup either, an enclosing conditional can follow,
and so the innermost ones come first. The rounds end when nothing changes any more.
-/

namespace LazyEmbed.Template

/-- A conditional whose branches hold no markup. -/
structure Conditional where
  condition : Text
  holds : Text
  otherwise? : Option Text

namespace Conditional

def pattern : Pattern Conditional := .after "<xf:if is=\"" do
  let condition ← .many1 (· ≠ '"')
  .literal "\">"
  let holds ← .many1 (· ≠ '<')
  let otherwise? ← Reader.optional do
    .literal "<xf:else/>"
    .many1 (· ≠ '<')
  .literal "</xf:if>"
  pure ⟨condition, holds, otherwise?⟩

/-- The conditional as a ternary; a missing branch is the empty string. -/
def ternary (conditional : Conditional) : Except TokenFault Text := do
  let holds ← stringOfMixed conditional.holds
  let otherwise ← match conditional.otherwise? with
    | some text => stringOfMixed text
    | none => pure "''".toList
  pure ("\x7b\x7b " ++ conditional.condition ++ " ? " ++ holds ++ " : " ++ otherwise ++ " \x7d\x7d")

def foldOnce (text : Text) : Except TokenFault Text := pattern.replaceM ternary text

def foldWithin : (rounds : Nat) → Text → Except TokenFault Text
  | 0, text => pure text
  | rounds + 1, text => do
    let folded ← foldOnce text
    if folded = text then pure folded else foldWithin rounds folded

end Conditional

/-- Folds conditionals into ternaries, innermost first. A round that changes anything uses up a
conditional, so the length of the text bounds the rounds. -/
def foldConditionals (text : Text) : Except TokenFault Text :=
  Conditional.foldWithin (text.length + 1) text

end LazyEmbed.Template
