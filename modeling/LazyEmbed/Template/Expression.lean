import LazyEmbed.Html.CharRef
import LazyEmbed.Template.Fault
import LazyEmbed.Text.Digit
import LazyEmbed.Text.Word

/-!
Expressions over the attributes of a media site. The source dialect writes them as XPath; only five
shapes occur, and an expression is read by its whole text, after its character references are
decoded. In the target dialect an attribute is a variable.
-/

namespace LazyEmbed.Template

inductive Expression where
  /-- The value of an attribute, or whether it has one. -/
  | value (name : Text)
  /-- Whether an attribute is a quoted literal. -/
  | equals (name literal : Text)
  /-- Whether an attribute is greater than a number. -/
  | exceeds (name number : Text)
  /-- The height in percent of the width. -/
  | ratio
  /-- The height, enlarged by a number, in percent of the width. -/
  | paddedRatio (extra : Text)
  deriving Repr, DecidableEq

namespace Expression

def attributeName : Reader Text := do
  .literal "@"
  .many1 Text.isWord

def readValue : Reader Expression := do
  let name ← attributeName
  pure (.value name)

/-- Reads `@name='literal'`, where the literal has no line feed and goes on to the end. -/
def readEquals : Reader Expression := do
  let name ← attributeName
  .literal "='"
  let (literal, _) ← .shortest (· ≠ '\n') do
    .literal "'"
    .ahead List.isEmpty
  pure (.equals name literal)

def readExceeds : Reader Expression := do
  let name ← attributeName
  .literal ">"
  let number ← .many1 Text.isDecimal
  pure (.exceeds name number)

def readRatio : Reader Expression := do
  .literal "100*@height div@width"
  pure .ratio

def readPaddedRatio : Reader Expression := do
  .literal "100*(@height+"
  let extra ← .many1 Text.isDecimal
  .literal ")div@width"
  pure (.paddedRatio extra)

/-- The expression that a text is, character references decoded already. -/
def read? (text : Text) : Option Expression :=
  [readValue, readEquals, readExceeds, readRatio, readPaddedRatio].findSome? (·.whole? text)

def render : Expression → Text
  | value name => "$" ++ name
  | equals name literal => "$" ++ name ++ "=='" ++ literal ++ "'"
  | exceeds name number => "$" ++ name ++ ">" ++ number
  | ratio => "100*$height/$width"
  | paddedRatio extra => "100*($height+" ++ extra ++ ")/$width"

end Expression

def convertExpression (source : Text) : Except Fault Text := do
  let text ← (Html.decodeReferences source).mapError Fault.oversizedReference
  match Expression.read? text with
  | some expression => pure expression.render
  | none => throw (.unknownExpression text)

end LazyEmbed.Template
