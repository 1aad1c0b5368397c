import LazyEmbed.Text.Utf8

/-!
Addresses, made safe to be put into markup and requests. Characters outside a fixed set of ASCII
characters are written as the escapes of their octets, and so is a percent sign that begins no
escape. Escapes that are there already stay as they are. Every character of a text has octets to be
escaped; lone surrogates would have none, but a `Text` cannot hold them.
-/

namespace LazyEmbed.Captured.Address

/-- The characters that may stand for themselves, the percent sign aside. -/
def isSafe (c : Char) : Bool :=
  c.isAlphanum || "!#$&*+,-./:;=?@_~".toList.contains c

def escape (octet : UInt8) : Text :=
  ['%', Text.upperHexDigit (octet.toNat / 16), Text.upperHexDigit (octet.toNat % 16)]

def escapeChar (c : Char) : Text := (Utf8.encodeChar c).flatMap escape

def beginsWithDigits : Text → Bool
  | high :: low :: _ => Text.isHexDigit high && Text.isHexDigit low
  | _ => false

def encode : Text → Text
  | [] => []
  | c :: text =>
    if c = '%' && beginsWithDigits text || isSafe c then c :: encode text
    else escapeChar c ++ encode text

end LazyEmbed.Captured.Address
