import LazyEmbed.Text.Basic

/-!
JSON values. Numbers are kept as they are written, for nobody calculates with them; the three
numbers that are none (not a number, and the two infinities) count as numbers.
-/

namespace LazyEmbed.Json

inductive Value where
  | null
  | bool (value : Bool)
  | number (literal : Text)
  | string (text : Text)
  | array (items : List Value)
  | object (members : List (Text × Value))

namespace Value

def text? : Value → Option Text
  | string text => some text
  | _ => none

/-- The number is zero: it has digits, and up to an exponent all of them are zeros. -/
def isZero (literal : Text) : Bool :=
  let digits := (literal.takeWhile fun c => c ≠ 'e' && c ≠ 'E').filter Char.isDigit
  !digits.isEmpty && digits.all (· = '0')

/-- Whether the value switches something on: null, zero and all that is empty do not. -/
def isOn : Value → Bool
  | null => false
  | bool value => value
  | number literal => !isZero literal
  | string text => !text.isEmpty
  | array items => !items.isEmpty
  | object members => !members.isEmpty

end Value

end LazyEmbed.Json
