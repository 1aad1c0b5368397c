import LazyEmbed.Text.Utf8

/-!
The MD5 digest of octets, by which stored titles are looked up. The message is padded to whole
blocks of sixteen words and folded, block by block, into a state of four words; each block goes
through sixty-four steps that differ only in their constant, their rotation, the word of the block
they take and the function by which they mix the state.
-/

namespace LazyEmbed.Md5

def constants : List UInt32 :=
  [0xD76AA478, 0xE8C7B756, 0x242070DB, 0xC1BDCEEE, 0xF57C0FAF, 0x4787C62A, 0xA8304613, 0xFD469501,
    0x698098D8, 0x8B44F7AF, 0xFFFF5BB1, 0x895CD7BE, 0x6B901122, 0xFD987193, 0xA679438E, 0x49B40821,
    0xF61E2562, 0xC040B340, 0x265E5A51, 0xE9B6C7AA, 0xD62F105D, 0x02441453, 0xD8A1E681, 0xE7D3FBC8,
    0x21E1CDE6, 0xC33707D6, 0xF4D50D87, 0x455A14ED, 0xA9E3E905, 0xFCEFA3F8, 0x676F02D9, 0x8D2A4C8A,
    0xFFFA3942, 0x8771F681, 0x6D9D6122, 0xFDE5380C, 0xA4BEEA44, 0x4BDECFA9, 0xF6BB4B60, 0xBEBFBC70,
    0x289B7EC6, 0xEAA127FA, 0xD4EF3085, 0x04881D05, 0xD9D4D039, 0xE6DB99E5, 0x1FA27CF8, 0xC4AC5665,
    0xF4292244, 0x432AFF97, 0xAB9423A7, 0xFC93A039, 0x655B59C3, 0x8F0CCC92, 0xFFEFF47D, 0x85845DD1,
    0x6FA87E4F, 0xFE2CE6E0, 0xA3014314, 0x4E0811A1, 0xF7537E82, 0xBD3AF235, 0x2AD7D2BB, 0xEB86D391]

/-- The rotations of the four rounds of sixteen steps; each round repeats its four. -/
def rotations : List (List UInt32) :=
  [[7, 12, 17, 22], [5, 9, 14, 20], [4, 11, 16, 23], [6, 10, 15, 21]]

structure State where
  a : UInt32
  b : UInt32
  c : UInt32
  d : UInt32

def State.start : State := ⟨0x67452301, 0xEFCDAB89, 0x98BADCFE, 0x10325476⟩

def rotateLeft (word amount : UInt32) : UInt32 := word <<< amount ||| word >>> (32 - amount)

def mix (round : Nat) (b c d : UInt32) : UInt32 :=
  match round with
  | 0 => (b &&& c) ||| (~~~b &&& d)
  | 1 => (d &&& b) ||| (~~~d &&& c)
  | 2 => b ^^^ c ^^^ d
  | _ => c ^^^ (b ||| ~~~d)

def wordIndex (round step : Nat) : Nat :=
  match round with
  | 0 => step
  | 1 => (5 * step + 1) % 16
  | 2 => (3 * step + 5) % 16
  | _ => 7 * step % 16

def State.step (block : List UInt32) (state : State) (step : Nat) (constant : UInt32) : State :=
  let round := step / 16
  let word := block.getD (wordIndex round step) 0
  let amount := (rotations.getD round []).getD (step % 4) 0
  let sum := state.a + mix round state.b state.c state.d + constant + word
  ⟨state.d, state.b + rotateLeft sum amount, state.b, state.c⟩

def State.absorb (state : State) (block : List UInt32) : State :=
  let last := constants.zipIdx.foldl (fun s (constant, i) => s.step block i constant) state
  ⟨state.a + last.a, state.b + last.b, state.c + last.c, state.d + last.d⟩

def lowOctets (count n : Nat) : Octets :=
  (List.range count).map fun i => UInt8.ofNat (n >>> (8 * i))

/-- The message with a single bit, zeros and its length in bits behind it. -/
def pad (message : Octets) : Octets :=
  message ++ 0x80 :: List.replicate ((119 - message.length % 64) % 64) 0
    ++ lowOctets 8 (8 * message.length)

def words : Octets → List UInt32
  | a :: b :: c :: d :: rest =>
    (a.toUInt32 ||| b.toUInt32 <<< 8 ||| c.toUInt32 <<< 16 ||| d.toUInt32 <<< 24) :: words rest
  | _ => []

/-- Folds the words, sixteen at a time, into the state; `fuel` bounds the number of blocks. -/
def absorbAll (state : State) : (fuel : Nat) → List UInt32 → State
  | 0, _ => state
  | fuel + 1, message =>
    match message with
    | [] => state
    | _ => absorbAll (state.absorb (message.take 16)) fuel (message.drop 16)

def digest (message : Octets) : Octets :=
  let blocks := words (pad message)
  let last := absorbAll .start blocks.length blocks
  [last.a, last.b, last.c, last.d].flatMap fun word => lowOctets 4 word.toNat

def hexDigest (message : Octets) : Text :=
  (digest message).flatMap fun octet =>
    [Text.hexDigit (octet.toNat / 16), Text.hexDigit (octet.toNat % 16)]

end LazyEmbed.Md5
