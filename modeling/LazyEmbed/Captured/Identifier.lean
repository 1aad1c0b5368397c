import LazyEmbed.Text.Basic

/-!
Identifiers of media items, as they are captured from an address. They are kept as they are, and
hold nothing but ASCII letters, ASCII digits, hyphens and underscores.
-/

namespace LazyEmbed.Captured

def isIdentifierChar (c : Char) : Bool := c.isAlphanum || c = '-' || c = '_'

def identifier? (value : Text) : Option Text :=
  if value ≠ [] ∧ value.all isIdentifierChar then some value else none

end LazyEmbed.Captured
