import LazyEmbed.Html.EntityName
import LazyEmbed.Text.Decimal
import LazyEmbed.Text.Pattern

/-!
Character references in markup and what they stand for. A reference is a number, in decimal or
hexadecimal digits, or a name; the semicolon at its end may be missing. A name need not be known as
a whole: the longest known beginning of it counts, as long as it has two characters, and the rest
stays as it is. Of the numbers, some stand for other characters than their own, some for the
replacement character, and some for nothing.
-/

namespace LazyEmbed.Html

inductive CharRef where
  | decimal (digits : Text)
  | hexadecimal (digits : Text)
  /-- A possible name, with its semicolon if it has one. -/
  | named (name : Text)

namespace CharRef

/-- The longest possible name, not counting the semicolon. -/
def maxNameLength : Nat := 32

def isNameChar (c : Char) : Bool :=
  !(c = '\t' || c = '\n' || c = '\x0c' || c = ' ' || c = '<' || c = '&' || c = '#' || c = ';')

def body : Reader CharRef :=
  .oneOf [
    do
      .literal "#"
      let digits ← .many1 Char.isDigit
      let _ ← Reader.optional (.literal ";")
      pure (.decimal digits),
    do
      .literal "#"
      let _ ← Reader.char fun c => c = 'x' || c = 'X'
      let digits ← .many1 Text.isHexDigit
      let _ ← Reader.optional (.literal ";")
      pure (.hexadecimal digits),
    do
      let name ← .manyAtMost maxNameLength isNameChar
      .guard !name.isEmpty
      let semicolon ← Reader.optional (.literal ";")
      pure (.named (if semicolon.isSome then name ++ [';'] else name))]

def pattern : Pattern CharRef := .after "&" body

/-- The characters that the numbers from 128 to 159 stand for. -/
def upperControls : List Char :=
  ['\u20ac', '\u0081', '\u201a', '\u0192', '\u201e', '\u2026', '\u2020', '\u2021', '\u02c6',
    '\u2030', '\u0160', '\u2039', '\u0152', '\u008d', '\u017d', '\u008f', '\u0090', '\u2018',
    '\u2019', '\u201c', '\u201d', '\u2022', '\u2013', '\u2014', '\u02dc', '\u2122', '\u0161',
    '\u203a', '\u0153', '\u009d', '\u017e', '\u0178']

def isForbidden (n : Nat) : Bool :=
  1 ≤ n && n ≤ 8 || n = 0x0B || 0x0E ≤ n && n ≤ 0x1F || n = 0x7F ||
    0xFDD0 ≤ n && n ≤ 0xFDEF || n % 0x10000 ≥ 0xFFFE

def ofNumber (n : Nat) : Text :=
  if 0x80 ≤ n && n ≤ 0x9F then (upperControls[n - 0x80]?).toList
  else if n = 0 || 0xD800 ≤ n && n ≤ 0xDFFF || n > 0x10FFFF then ['\ufffd']
  else if isForbidden n then []
  else [Char.ofNat n]

/-- What the longest known beginning of a name stands for, with the rest of the name, if any
beginning of at least two and fewer than `length + 1` characters is known. -/
def ofBeginning? (name : Text) : (length : Nat) → Option Text
  | 0 => none
  | 1 => none
  | length + 2 =>
    match EntityName.expansion? (name.take (length + 2)) with
    | some characters => some (characters ++ name.drop (length + 2))
    | none => ofBeginning? name (length + 1)

/-- What a possible name stands for; an unknown one stands for itself. -/
def ofName (name : Text) : Text :=
  match EntityName.expansion? name with
  | some characters => characters
  | none => (ofBeginning? name (name.length - 1)).getD ('&' :: name)

def decode : CharRef → Except Text.Oversized Text
  | decimal digits => (Text.readDecimal digits).map ofNumber
  | hexadecimal digits => .ok (ofNumber (Text.hexValue digits))
  | named name => .ok (ofName name)

end CharRef

def decodeReferences (text : Text) : Except Text.Oversized Text :=
  CharRef.pattern.replaceM CharRef.decode text

end LazyEmbed.Html
