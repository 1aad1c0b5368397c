import LazyEmbed.Text.Decimal

/-!
Strings in JSON. What is written is ASCII without control characters: a character that JSON does not
let stand, and every one outside the printable ASCII characters, is escaped, by a letter of its own
if it has one and else by the numbers of its sixteen-bit units.
-/

namespace LazyEmbed.Json

def escapeLetter? : Char → Option Char
  | '"' => some '"'
  | '\\' => some '\\'
  | '\n' => some 'n'
  | '\r' => some 'r'
  | '\t' => some 't'
  | '\x08' => some 'b'
  | '\x0c' => some 'f'
  | _ => none

def escapeUnit (unit : Nat) : Text :=
  ['\\', 'u', Text.hexDigit (unit / 4096), Text.hexDigit (unit / 256 % 16),
    Text.hexDigit (unit / 16 % 16), Text.hexDigit (unit % 16)]

def escapeUnits (c : Char) : Text :=
  let n := c.toNat
  if n < 0x10000 then escapeUnit n
  else escapeUnit (0xD800 + (n - 0x10000) / 0x400) ++ escapeUnit (0xDC00 + (n - 0x10000) % 0x400)

def quoteChar (c : Char) : Text :=
  match escapeLetter? c with
  | some letter => ['\\', letter]
  | none => if 0x20 ≤ c.toNat ∧ c.toNat ≤ 0x7E then [c] else escapeUnits c

def quote (text : Text) : Text := "\"" ++ text.flatMap quoteChar ++ "\""

def quoteList (texts : List Text) : Text :=
  "[" ++ [','].intercalate (texts.map quote) ++ "]"

end LazyEmbed.Json
