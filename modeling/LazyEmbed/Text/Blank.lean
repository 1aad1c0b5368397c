import LazyEmbed.Text.Basic

/-!
Which characters are blank: the Unicode space characters together with the control characters that
separate lines, fields and records. This is the set that a run of blanks in markup may hold and
that is cut off the ends of a trimmed text.
-/

namespace LazyEmbed.Text

def inRanges (ranges : List (Nat × Nat)) (c : Char) : Bool :=
  ranges.any fun (first, last) => first ≤ c.toNat && c.toNat ≤ last

def blankRanges : List (Nat × Nat) :=
  [(0x9, 0xD), (0x1C, 0x20), (0x85, 0x85), (0xA0, 0xA0), (0x1680, 0x1680), (0x2000, 0x200A),
   (0x2028, 0x2029), (0x202F, 0x202F), (0x205F, 0x205F), (0x3000, 0x3000)]

def isBlank (c : Char) : Bool := inRanges blankRanges c

def trim (text : Text) : Text := trimBy isBlank text

end LazyEmbed.Text
