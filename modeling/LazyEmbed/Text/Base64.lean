import LazyEmbed.Text.Utf8

/-!
Octets in writing, six bits a character. Three octets make a group of four characters; a last group
of one or two octets is filled up with padding. Reading is lenient: a character outside the
alphabet is passed over, and so is padding where it completes nothing, while padding that completes
a group ends the reading, whatever stands behind it. What cannot be read is a text whose last group
is left incomplete.
-/

namespace LazyEmbed.Base64

def letter (n : Nat) : Char :=
  if n < 26 then Char.ofNat ('A'.toNat + n)
  else if n < 52 then Char.ofNat ('a'.toNat + (n - 26))
  else if n < 62 then Char.ofNat ('0'.toNat + (n - 52))
  else if n = 62 then '+'
  else '/'

def letterValue? (c : Char) : Option Nat :=
  if 'A' ≤ c ∧ c ≤ 'Z' then some (c.toNat - 'A'.toNat)
  else if 'a' ≤ c ∧ c ≤ 'z' then some (c.toNat - 'a'.toNat + 26)
  else if '0' ≤ c ∧ c ≤ '9' then some (c.toNat - '0'.toNat + 52)
  else if c = '+' then some 62
  else if c = '/' then some 63
  else none

theorem letterValue?_letter : ∀ n < 64, letterValue? (letter n) = some n := by decide

def encode : Octets → Text
  | [] => []
  | [a] => [letter (a.toNat / 4), letter (a.toNat % 4 * 16), '=', '=']
  | [a, b] =>
    [letter (a.toNat / 4), letter (a.toNat % 4 * 16 + b.toNat / 16),
      letter (b.toNat % 16 * 4), '=']
  | a :: b :: c :: rest =>
    letter (a.toNat / 4) :: letter (a.toNat % 4 * 16 + b.toNat / 16)
      :: letter (b.toNat % 16 * 4 + c.toNat / 64) :: letter (c.toNat % 64) :: encode rest

/-- The octets that are complete in a group of up to four characters, given by their bits. -/
def groupOctets : List Nat → Octets
  | [a, b] => [.ofNat (a * 4 + b / 16)]
  | [a, b, c] => [.ofNat (a * 4 + b / 16), .ofNat (b % 16 * 16 + c / 4)]
  | [a, b, c, d] => [.ofNat (a * 4 + b / 16), .ofNat (b % 16 * 16 + c / 4), .ofNat (c % 4 * 64 + d)]
  | _ => []

/-- Reads on behind the bits of an incomplete group and the padding seen since the last of them. -/
def decodeFrom (group : List Nat) (padding : Nat) : Text → Option Octets
  | [] => if group = [] then some [] else none
  | c :: text =>
    if c = '=' then
      if group.length < 2 then decodeFrom group padding text
      else if group.length + padding + 1 < 4 then decodeFrom group (padding + 1) text
      else some (groupOctets group)
    else
      match letterValue? c with
      | none => decodeFrom group padding text
      | some bits =>
        if group.length < 3 then decodeFrom (group ++ [bits]) 0 text
        else (decodeFrom [] 0 text).map (groupOctets (group ++ [bits]) ++ ·)

def decode (text : Text) : Option Octets := decodeFrom [] 0 text

end LazyEmbed.Base64
