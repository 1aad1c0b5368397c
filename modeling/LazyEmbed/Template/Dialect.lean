import LazyEmbed.Template.Conditional
import LazyEmbed.Template.Expression
import LazyEmbed.Template.Inlining
import LazyEmbed.Template.Leftover
import LazyEmbed.Template.Markup

/-!
Converting a template. The fixed changes come first; then the expressions of conditions and of
values are converted, conditionals inside attribute elements are folded, and the attributes are
moved into their tags. A template in which anything is left over is refused as a whole, since half
of it would be of no use. The braces that the template had doubled come back last.
-/

namespace LazyEmbed.Template

namespace Dialect

/-- The opening of a condition: what stands between `<xf:` and `if`, and the condition. -/
def condition : Pattern (Text × Text) := .after "<xf:" do
  let further ← Reader.optional (.literal "else")
  .literal "if is=\""
  let test ← .many1 (· ≠ '"')
  pure (if further.isSome then "else".toList else [], test)

/-- `<xsl:value-of select="…"/>`, by what is selected. -/
def selection : Pattern Text := .after "<xsl:value-of select=\"" do
  .upTo (· ≠ '\n') "\"/>"

/-- An attribute element up to its closing tag: the opening tag and the content. -/
def attributeBody : Pattern (Text × Text) := .after "<xsl:attribute" do
  let inside ← .many1 (· ≠ '>')
  .literal ">"
  let (content, _) ← .shortest (· ≠ '\n')
    (.ahead fun text => "</xsl:attribute".toList.isPrefixOf text)
  pure ("<xsl:attribute" ++ inside ++ ">", content)

def convertConditions : Text → Except Fault Text :=
  condition.replaceM fun (further, test) => do
    let converted ← convertExpression test
    pure ("<xf:" ++ further ++ "if is=\"" ++ converted)

def convertSelections : Text → Except Fault Text :=
  selection.replaceM fun selected => do
    let converted ← convertExpression selected
    pure ("\x7b\x7b " ++ converted ++ " \x7d\x7d")

def foldAttributeBodies : Text → Except Fault Text :=
  attributeBody.replaceM fun (tag, content) => do
    let folded ← (foldConditionals content).mapError Fault.token
    pure (tag ++ folded)

end Dialect

open Dialect in
def convert (template : Text) : Except Fault Text := do
  let template ← convertConditions (changeMarkup template)
  let template ← convertSelections template
  let template ← foldAttributeBodies template
  let template := inlineAttributes template
  Leftover.check template
  pure (restoreBraces template)

structure Dialect where
  convert : Text → Except Fault Text

namespace Dialect

def unspecified : Dialect := ⟨fun _ => .error .noConversion⟩

def forum : Dialect := ⟨Template.convert⟩

end Dialect

end LazyEmbed.Template
