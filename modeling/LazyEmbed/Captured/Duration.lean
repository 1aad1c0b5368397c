import LazyEmbed.Text.Blank
import LazyEmbed.Text.Decimal
import LazyEmbed.Text.Reader

/-!
Points in time within a media item, as they are captured from an address: hours, minutes and
seconds, each with its letter and each optional, or a plain natural number of seconds. The two
forms have no text in common, since the one ends in a letter and the other in a digit or a blank.
-/

namespace LazyEmbed.Captured

/-- A natural number without leading zeros, perhaps with a plus sign, and perhaps between blanks;
given are its digits. -/
def readNatural : Reader Text := do
  let _ ← Reader.many Text.isBlank
  let _ ← Reader.optional (.literal "+")
  let digits ← .many1 Char.isDigit
  .guard (digits.head? ≠ some '0' || digits.length = 1)
  let _ ← Reader.many Text.isBlank
  pure digits

def readPart (unit : Char) : Reader (Option Text) :=
  .optional do
    let digits ← .many1 Char.isDigit
    .literal [unit]
    pure digits

/-- Hours, minutes and seconds, in this order, of which at least one is there. -/
def readParts : Reader (Option Text × Option Text × Option Text) := do
  .ahead fun text => text.head?.any Char.isDigit
  let hours ← readPart 'h'
  let minutes ← readPart 'm'
  let seconds ← readPart 's'
  pure (hours, minutes, seconds)

def natural? (value : Text) : Except Text.Oversized (Option Nat) :=
  match readNatural.whole? value with
  | some digits => (Text.readDecimal digits).map some
  | none => .ok none

def seconds? (value : Text) : Except Text.Oversized (Option Nat) :=
  match readParts.whole? value with
  | some (hours, minutes, seconds) => do
    let hours ← Text.readDecimal (hours.getD "0")
    let minutes ← Text.readDecimal (minutes.getD "0")
    let seconds ← Text.readDecimal (seconds.getD "0")
    pure (some (hours * 3600 + minutes * 60 + seconds))
  | none => natural? value

end LazyEmbed.Captured
