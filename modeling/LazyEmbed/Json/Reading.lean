import LazyEmbed.Json.Value
import LazyEmbed.Text.Decimal
import LazyEmbed.Text.Reader

/-!
Reading JSON. Nothing is tolerated but blanks between the parts of a value, and the first thing that
is wrong is reported with its place. While a text is read, a place is told by how much of the text
is left, which every reader knows; only the report counts lines and columns from the front. Arrays
and objects are followed to a greatest depth, and what lies deeper is not looked at.

A string is read in two steps: the first yields characters and the sixteen-bit units of numeric
escapes, the second joins the units of a pair.
-/

namespace LazyEmbed.Json

inductive Problem where
  | expectedValue
  | extraData
  | expectedComma
  | expectedColon
  | expectedName
  | unterminatedString
  | controlCharacter
  | unknownEscape
  | malformedEscape
  | byteOrderMark
  deriving Repr, DecidableEq

namespace Problem

def describe : Problem → Text
  | expectedValue => "Expecting value"
  | extraData => "Extra data"
  | expectedComma => "Expecting ',' delimiter"
  | expectedColon => "Expecting ':' delimiter"
  | expectedName => "Expecting property name enclosed in double quotes"
  | unterminatedString => "Unterminated string starting at"
  | controlCharacter => "Invalid control character at"
  | unknownEscape => "Invalid \\escape"
  | malformedEscape => "Invalid \\uXXXX escape"
  | byteOrderMark => "Unexpected UTF-8 BOM (decode using utf-8-sig)"

end Problem

inductive Flaw where
  /-- Something is wrong where so many characters are left. -/
  | found (problem : Problem) (left : Nat)
  /-- An integer has too many digits. -/
  | oversized (digits : Nat)
  deriving Repr, DecidableEq

namespace Flaw

def ahead (problem : Problem) (left : Text) : Flaw := .found problem left.length

def describePlace (before : Text) : Text :=
  let line := before.count '\n' + 1
  let column := (before.reverse.takeWhile (· ≠ '\n')).length + 1
  "line " ++ Text.decimal line ++ " column " ++ Text.decimal column ++ " (char "
    ++ Text.decimal before.length ++ ")"

def message (text : Text) : Flaw → Text
  | found problem left =>
    problem.describe ++ ": " ++ describePlace (text.take (text.length - left))
  | oversized digits =>
    "Exceeds the limit (" ++ Text.decimal Text.maxDigits
      ++ " digits) for integer string conversion: value has " ++ Text.decimal digits
      ++ " digits; use sys.set_int_max_str_digits() to increase the limit"

end Flaw

inductive Failure where
  | flaw (flaw : Flaw)
  /-- An array or an object lies deeper than is followed; whether the text is JSON is left open. -/
  | tooDeep
  deriving Repr, DecidableEq

def isBlank (c : Char) : Bool := c = ' ' || c = '\t' || c = '\n' || c = '\r'

def skipBlanks (text : Text) : Text := text.dropWhile isBlank

/-! ### Strings -/

inductive StringPart where
  | char (c : Char)
  | unit (n : Nat)

def isHighUnit (n : Nat) : Bool := 0xD800 ≤ n && n ≤ 0xDBFF

def isLowUnit (n : Nat) : Bool := 0xDC00 ≤ n && n ≤ 0xDFFF

/-- The text that parts make. A high unit and a low one behind it make one character; either alone
makes none, and the replacement character stands for it. -/
def joinParts : List StringPart → Text
  | [] => []
  | .char c :: parts => c :: joinParts parts
  | .unit high :: .unit low :: parts =>
    if isHighUnit high && isLowUnit low then
      Char.ofNat (0x10000 + (high - 0xD800) * 0x400 + (low - 0xDC00)) :: joinParts parts
    else
      (if isHighUnit high || isLowUnit high then '\ufffd' else Char.ofNat high)
        :: joinParts (.unit low :: parts)
  | .unit n :: parts =>
    (if isHighUnit n || isLowUnit n then '\ufffd' else Char.ofNat n) :: joinParts parts

def escaped? : Char → Option Char
  | '"' => some '"'
  | '\\' => some '\\'
  | '/' => some '/'
  | 'b' => some '\x08'
  | 'f' => some '\x0c'
  | 'n' => some '\n'
  | 'r' => some '\r'
  | 't' => some '\t'
  | _ => none

/-- Reads the parts of a string behind its opening quote. The four digits of a numeric escape may
not be the end of the text. -/
def readParts : Text → Except Flaw (List StringPart × Text)
  | [] => .error (.ahead .unterminatedString [])
  | '"' :: rest => .ok ([], rest)
  | ['\\'] => .error (.ahead .unterminatedString [])
  | '\\' :: 'u' :: a :: b :: c :: d :: next :: rest =>
    if [a, b, c, d].all Text.isHexDigit then
      (readParts (next :: rest)).map fun (parts, left) =>
        (.unit (Text.hexValue [a, b, c, d]) :: parts, left)
    else .error (.ahead .malformedEscape ('u' :: a :: b :: c :: d :: next :: rest))
  | '\\' :: 'u' :: rest => .error (.ahead .malformedEscape ('u' :: rest))
  | '\\' :: letter :: rest =>
    match escaped? letter with
    | some c => (readParts rest).map fun (parts, left) => (.char c :: parts, left)
    | none => .error (.ahead .unknownEscape ('\\' :: letter :: rest))
  | c :: rest =>
    if c.toNat < 0x20 then .error (.ahead .controlCharacter (c :: rest))
    else (readParts rest).map fun (parts, left) => (.char c :: parts, left)

/-- Reads a string behind its opening quote. One that does not end is reported at that quote. -/
def readString (text : Text) : Except Flaw (Text × Text) :=
  match readParts text with
  | .ok (parts, left) => .ok (joinParts parts, left)
  | .error (.found .unterminatedString _) => .error (.ahead .unterminatedString ('"' :: text))
  | .error flaw => .error flaw

/-! ### Numbers and names -/

def number : Reader (Text × Option Text) := do
  let minus ← Reader.optional (.literal "-")
  let whole ← Reader.orElse
    (do .literal "0"; pure ['0'])
    (do
      let first ← Reader.char fun c => '1' ≤ c && c ≤ '9'
      let others ← .many Char.isDigit
      pure (first :: others))
  let fraction ← Reader.optional do
    .literal "."
    .many1 Char.isDigit
  let exponent ← Reader.optional do
    let mark ← Reader.char fun c => c = 'e' || c = 'E'
    let sign ← Reader.optional (.char fun c => c = '+' || c = '-')
    let digits ← .many1 Char.isDigit
    pure (mark :: sign.toList ++ digits)
  let sign : Text := if minus.isSome then ['-'] else []
  let literal := sign ++ whole ++ fraction.elim [] ('.' :: ·) ++ exponent.getD []
  pure (literal, if fraction.isNone && exponent.isNone then some whole else none)

def words : List (Text × Value) :=
  [("null", .null), ("true", .bool true), ("false", .bool false), ("NaN", .number "NaN"),
    ("Infinity", .number "Infinity"), ("-Infinity", .number "-Infinity")]

def readAtom (text : Text) : Except Flaw (Value × Text) :=
  match words.findSome? fun (word, value) => (Text.afterStart? word text).map (value, ·) with
  | some found => .ok found
  | none =>
    match number.run text with
    | none => .error (.ahead .expectedValue text)
    | some ((literal, digits), left) =>
      match digits with
      | some digits =>
        if digits.length ≤ Text.maxDigits then .ok (.number literal, left)
        else .error (.oversized digits.length)
      | none => .ok (.number literal, left)

/-! ### Values

The number of steps in which a value is read is bounded by `fuel`, of which there is always more
than can be used up: every two steps that use some take a character. How much deeper arrays and
objects may be nested is told by `room`. -/

mutual

def readValue : (fuel room : Nat) → Text → Except Failure (Value × Text)
  | 0, _, text => .error (.flaw (.ahead .expectedValue text))
  | fuel + 1, room, text =>
    match text, room with
    | '"' :: rest, _ =>
      ((readString rest).map fun (content, left) => (.string content, left)).mapError .flaw
    | '[' :: _, 0 | '\x7b' :: _, 0 => .error .tooDeep
    | '[' :: rest, room + 1 =>
      match skipBlanks rest with
      | ']' :: left => .ok (.array [], left)
      | rest => (readItems fuel room rest).map fun (items, left) => (.array items, left)
    | '\x7b' :: rest, room + 1 =>
      match skipBlanks rest with
      | '\x7d' :: left => .ok (.object [], left)
      | rest => (readMembers fuel room rest).map fun (members, left) => (.object members, left)
    | text, _ => (readAtom text).mapError .flaw

def readItems : (fuel room : Nat) → Text → Except Failure (List Value × Text)
  | 0, _, text => .error (.flaw (.ahead .expectedValue text))
  | fuel + 1, room, text => do
    let (item, rest) ← readValue fuel room text
    match skipBlanks rest with
    | ']' :: left => pure ([item], left)
    | ',' :: rest =>
      let (items, left) ← readItems fuel room (skipBlanks rest)
      pure (item :: items, left)
    | rest => .error (.flaw (.ahead .expectedComma rest))

def readMembers : (fuel room : Nat) → Text → Except Failure (List (Text × Value) × Text)
  | 0, _, text => .error (.flaw (.ahead .expectedName text))
  | fuel + 1, room, text =>
    match text with
    | '"' :: rest => do
      let (name, rest) ← (readString rest).mapError .flaw
      match skipBlanks rest with
      | ':' :: rest =>
        let (value, rest) ← readValue fuel room (skipBlanks rest)
        match skipBlanks rest with
        | '\x7d' :: left => pure ([(name, value)], left)
        | ',' :: rest =>
          let (members, left) ← readMembers fuel room (skipBlanks rest)
          pure ((name, value) :: members, left)
        | rest => .error (.flaw (.ahead .expectedComma rest))
      | rest => .error (.flaw (.ahead .expectedColon rest))
    | text => .error (.flaw (.ahead .expectedName text))

end

/-- Reads a text that is one value, perhaps between blanks, with arrays and objects nested no deeper
than given. -/
def readWithin (maxDepth : Nat) (text : Text) : Except Failure Value := do
  if text.head? = some '\ufeff' then .error (.flaw (.ahead .byteOrderMark text))
  else
    let (value, rest) ← readValue (2 * text.length + 2) maxDepth (skipBlanks text)
    match skipBlanks rest with
    | [] => pure value
    | rest => .error (.flaw (.ahead .extraData rest))

def maxDepth : Nat := 990

def read (text : Text) : Except Failure Value := readWithin maxDepth text

end LazyEmbed.Json
