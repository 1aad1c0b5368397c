import LazyEmbed.Text.Decimal

/-!
Texts as octets. Writing never fails. Reading checks every octet against what the octets before it
allow, and a failure tells where it is, which octets it concerns and which of three things is wrong:
the octets concerned are always the longest beginning of a character that is still well-formed.
The first octet of a character fixes how many follow and narrows the range of the second, which
keeps out longer spellings than needed, surrogates, and numbers that are no characters.
-/

namespace LazyEmbed

abbrev Octets := List UInt8

namespace Utf8

def encodeChar (c : Char) : Octets :=
  let n := c.toNat
  if n < 0x80 then [.ofNat n]
  else if n < 0x800 then [.ofNat (0xC0 + n / 64), .ofNat (0x80 + n % 64)]
  else if n < 0x10000 then
    [.ofNat (0xE0 + n / 4096), .ofNat (0x80 + n / 64 % 64), .ofNat (0x80 + n % 64)]
  else
    [.ofNat (0xF0 + n / 262144), .ofNat (0x80 + n / 4096 % 64), .ofNat (0x80 + n / 64 % 64),
      .ofNat (0x80 + n % 64)]

def encode (text : Text) : Octets := text.flatMap encodeChar

def size (text : Text) : Nat := (encode text).length

inductive Flaw where
  /-- No character begins with this octet. -/
  | invalidStart
  /-- An octet that goes on with a character was due and another came. -/
  | invalidContinuation
  /-- The octets end inside a character. -/
  | unexpectedEnd
  deriving Repr, DecidableEq

namespace Flaw

def describe : Flaw → Text
  | invalidStart => "invalid start byte"
  | invalidContinuation => "invalid continuation byte"
  | unexpectedEnd => "unexpected end of data"

end Flaw

/-- The first place where octets are no text. -/
structure Malformed where
  flaw : Flaw
  /-- How many octets stand before it. -/
  position : Nat
  /-- The first of the octets concerned. -/
  first : UInt8
  /-- How many octets are concerned. -/
  span : Nat
  deriving Repr, DecidableEq

namespace Malformed

def message (fault : Malformed) : Text :=
  let place : Text :=
    if fault.span = 1 then
      "byte 0x" ++ [Text.hexDigit (fault.first.toNat / 16), Text.hexDigit (fault.first.toNat % 16)]
        ++ " in position " ++ Text.decimal fault.position
    else
      "bytes in position " ++ Text.decimal fault.position ++ "-"
        ++ Text.decimal (fault.position + fault.span - 1)
  "'utf-8' codec can't decode " ++ place ++ ": " ++ fault.flaw.describe

end Malformed

/-- What the first octet of a character settles. -/
structure Start where
  /-- The leading bits of the character's number. -/
  bits : Nat
  /-- How many octets follow. -/
  following : Nat
  /-- The least and the greatest second octet. -/
  low : Nat
  high : Nat

def Start.of? (first : UInt8) : Option Start :=
  let b := first.toNat
  if b < 0x80 then some ⟨b, 0, 0x80, 0xBF⟩
  else if b < 0xC2 then none
  else if b < 0xE0 then some ⟨b - 0xC0, 1, 0x80, 0xBF⟩
  else if b < 0xF0 then
    some ⟨b - 0xE0, 2, if b = 0xE0 then 0xA0 else 0x80, if b = 0xED then 0x9F else 0xBF⟩
  else if b < 0xF5 then
    some ⟨b - 0xF0, 3, if b = 0xF0 then 0x90 else 0x80, if b = 0xF4 then 0x8F else 0xBF⟩
  else none

/-- Reads the octets that go on with a character whose number begins with `bits`. A failure tells
how many of them were read. -/
def readFollowing : (following low high bits : Nat) → Octets → Except (Flaw × Nat) (Nat × Octets)
  | 0, _, _, bits, rest => .ok (bits, rest)
  | _ + 1, _, _, _, [] => .error (.unexpectedEnd, 0)
  | following + 1, low, high, bits, octet :: rest =>
    if low ≤ octet.toNat ∧ octet.toNat ≤ high then
      (readFollowing following 0x80 0xBF (bits * 64 + (octet.toNat - 0x80)) rest).mapError
        fun (flaw, read) => (flaw, read + 1)
    else .error (.invalidContinuation, 0)

theorem length_le_of_readFollowing {following low high bits n : Nat} {octets rest : Octets}
    (h : readFollowing following low high bits octets = .ok (n, rest)) :
    rest.length ≤ octets.length := by
  induction following generalizing low high bits octets with
  | zero =>
    obtain ⟨-, rfl⟩ : bits = n ∧ octets = rest := by simpa [readFollowing] using h
    exact Nat.le_refl _
  | succ following ih =>
    cases octets with
    | nil => simp [readFollowing] at h
    | cons octet octets =>
      simp only [readFollowing] at h
      split at h
      · cases hrun : readFollowing following 0x80 0xBF (bits * 64 + (octet.toNat - 0x80)) octets
          with
        | error flaw =>
          rw [hrun] at h
          cases h
        | ok found =>
          rw [hrun] at h
          obtain rfl : found = (n, rest) := Except.ok.inj h
          exact Nat.le_succ_of_le (ih hrun)
      · simp at h

def decodeFrom (position : Nat) (octets : Octets) : Except Malformed Text :=
  match octets with
  | [] => .ok []
  | first :: octets =>
    match Start.of? first with
    | none => .error ⟨.invalidStart, position, first, 1⟩
    | some start =>
      match _h : readFollowing start.following start.low start.high start.bits octets with
      | .error (flaw, read) => .error ⟨flaw, position, first, read + 1⟩
      | .ok (n, rest) =>
        (decodeFrom (position + 1 + start.following) rest).map (Char.ofNat n :: ·)
termination_by octets.length
decreasing_by
  have := length_le_of_readFollowing _h
  simp only [List.length_cons]
  omega

def decode (octets : Octets) : Except Malformed Text := decodeFrom 0 octets

end Utf8

end LazyEmbed
