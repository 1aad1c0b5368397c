import LazyEmbed.Text.Decimal
import LazyEmbed.Text.Printable

/-!
Texts as diagnostics show them: between single quotes, or between double quotes if the text holds
single quotes and no double ones, with escapes for all that could not be told apart otherwise.
-/

namespace LazyEmbed.Text

def lastHexDigits : (count n : Nat) → Text
  | 0, _ => []
  | count + 1, n => lastHexDigits count (n / 16) ++ [hexDigit (n % 16)]

def numericEscape (c : Char) : Text :=
  if c.toNat ≤ 0xFF then "\\x" ++ lastHexDigits 2 c.toNat
  else if c.toNat ≤ 0xFFFF then "\\u" ++ lastHexDigits 4 c.toNat
  else "\\U" ++ lastHexDigits 8 c.toNat

def shownChar (quote c : Char) : Text :=
  if c = quote || c = '\\' then ['\\', c]
  else if c = '\t' then "\\t"
  else if c = '\n' then "\\n"
  else if c = '\r' then "\\r"
  else if isPrintable c then [c]
  else numericEscape c

def shown (text : Text) : Text :=
  let quote := if '\'' ∈ text && '"' ∉ text then '"' else '\''
  [quote] ++ text.flatMap (shownChar quote) ++ [quote]

end LazyEmbed.Text
