import LazyEmbed.Keyed
import LazyEmbed.Text.Pattern
import LazyEmbed.Text.Word

/-!
The attributes of an element, as far as they are written as a name, an equals sign and a value
between double quotes. Values are kept as they are written, with their character references.
-/

namespace LazyEmbed

/-- Attribute values by name, in the order in which the names first occur. -/
abbrev Attributes := Keyed Text Text

namespace Attributes

def isNameChar (c : Char) : Bool := Text.isWord c || c = '-'

/-- A name and its value. The value goes on to the next double quote, which is left. -/
def pattern : Pattern (Text × Text) where
  reader := do
    let name ← .many1 isNameChar
    .literal "=\""
    let value ← .many (· ≠ '"')
    pure (name, value)
  consumes := Reader.Consumes.bind (Reader.consumes_many1 _) _

/-- The attributes of an element; of several with one name the last value counts. -/
def ofElement (element : Text) : Attributes := Keyed.ofPairs (pattern.hits element)

end Attributes

end LazyEmbed
