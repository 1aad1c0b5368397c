import LazyEmbed.Json.Quoted
import LazyEmbed.Placeholder.Attributes

/-!
The payload of a placeholder: the attributes of the frame to be built from it, as a JSON list of
names and values in turn, written into an attribute between single quotes. Attribute values hold
character references already, so an ampersand gives way only where it begins none.
-/

namespace LazyEmbed.Payload

def attributeName : Text := "data-s9e-mediaembed-iframe"

/-- Reads what follows the ampersand of a character reference that ends with a semicolon. -/
def referenceBody : Reader Unit := do
  .oneOf [
    do
      let _ ← Reader.char Char.isAlpha
      let _ ← Reader.many Char.isAlphanum
      pure (),
    do
      .literal "#"
      let _ ← Reader.many1 Char.isDigit
      pure (),
    do
      .literal "#"
      let _ ← Reader.char fun c => c = 'x' || c = 'X'
      let _ ← Reader.many1 Text.isHexDigit
      pure ()]
  .literal ";"

theorem ampersand_ne_nil : ("&" : Text) ≠ [] := by decide

def loneAmpersand : Pattern Unit :=
  .after "&" (.ahead fun text => (referenceBody.run text).isNone) ampersand_ne_nil

def forSingleQuotes (text : Text) : Text :=
  (loneAmpersand.replace (fun _ => "&amp;") text).flatMap fun
    | '<' => "&lt;"
    | '>' => "&gt;"
    | '\'' => "&#39;"
    | c => [c]

/-- The attribute belongs to the frame, and not to its placeholder alone. -/
def isKept (name : Text) : Bool := !Text.contains "c2l" name

/-- Names and values of the attributes that the frame is built with, in turn. -/
def items (attributes : Attributes) : List Text :=
  (attributes.entries.filter fun (name, _) => isKept name).flatMap
    fun (name, value) => [name, value]

def render (attributes : Attributes) : Text := forSingleQuotes (Json.quoteList (items attributes))

end LazyEmbed.Payload
