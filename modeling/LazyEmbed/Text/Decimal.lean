import LazyEmbed.Text.Basic

/-!
Numbers in writing. A number may be read from any run of decimal digits that is not longer than a
fixed limit; the limit counts leading zeros, and a longer run is refused rather than read. Numbers
are printed without leading zeros. Hexadecimal digits have no such limit.
-/

namespace LazyEmbed.Text

def digitValue (c : Char) : Nat := c.toNat - '0'.toNat

def decimalValue (digits : Text) : Nat :=
  digits.foldl (fun value c => 10 * value + digitValue c) 0

def decimal (n : Nat) : Text := Nat.toDigits 10 n

/-- The longest run of decimal digits that is read as a number. -/
def maxDigits : Nat := 4300

structure Oversized where
  digits : Nat
  deriving Repr, DecidableEq

def readDecimal (digits : Text) : Except Oversized Nat :=
  if digits.length ≤ maxDigits then .ok (decimalValue digits) else .error ⟨digits.length⟩

def isHexDigit (c : Char) : Bool :=
  c.isDigit || 'a' ≤ c && c ≤ 'f' || 'A' ≤ c && c ≤ 'F'

def hexDigitValue (c : Char) : Nat :=
  if c.isDigit then c.toNat - '0'.toNat
  else if 'a' ≤ c then c.toNat - 'a'.toNat + 10
  else c.toNat - 'A'.toNat + 10

def hexValue (digits : Text) : Nat :=
  digits.foldl (fun value c => 16 * value + hexDigitValue c) 0

def hexDigit (n : Nat) : Char :=
  if n < 10 then Char.ofNat ('0'.toNat + n) else Char.ofNat ('a'.toNat + (n - 10))

def upperHexDigit (n : Nat) : Char :=
  if n < 10 then Char.ofNat ('0'.toNat + n) else Char.ofNat ('A'.toNat + (n - 10))

theorem hexDigitValue_hexDigit : ∀ n < 16, hexDigitValue (hexDigit n) = n := by decide

theorem isHexDigit_hexDigit : ∀ n < 16, isHexDigit (hexDigit n) = true := by decide

theorem hexDigitValue_upperHexDigit : ∀ n < 16, hexDigitValue (upperHexDigit n) = n := by decide

theorem isHexDigit_upperHexDigit : ∀ n < 16, isHexDigit (upperHexDigit n) = true := by decide

end LazyEmbed.Text
