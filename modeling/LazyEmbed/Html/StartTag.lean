import LazyEmbed.Html.CharRef
import LazyEmbed.Keyed
import LazyEmbed.Text.Blank
import LazyEmbed.Text.LowerCase
import LazyEmbed.Text.Reader

/-!
Start tags, read tolerantly. Attributes are set apart by blanks and slashes, and need nothing
between them where one ends with a quote. A value is quoted or goes on to the next blank or closing
bracket; a quote that is never closed opens no value. Names are in lower case, and values have
their character references decoded.
-/

namespace LazyEmbed.Html

def isQuote (c : Char) : Bool := c = '"' || c = '\''

inductive TagEnd where
  /-- The element is open. -/
  | opened
  /-- A slash before the bracket closes the element at once. -/
  | closed
  /-- What follows fits no tag; all up to here is text. -/
  | broken
  deriving DecidableEq

structure RawTag where
  name : Text
  attributes : List (Text × Option Text)
  ending : TagEnd

namespace RawTag

/-- Reads a blank, or a slash that does not close the tag. -/
def gapChar : Reader Char := Reader.orElse
  (.char Text.isBlank)
  (do
    let slash ← .char (· = '/')
    .ahead (·.head? ≠ some '>')
    pure slash)

theorem consumes_gapChar : gapChar.Consumes :=
  Reader.Consumes.orElse (Reader.consumes_char _) (Reader.Consumes.bind (Reader.consumes_char _) _)

def gap : Reader Bool := do
  let found ← Reader.unfold (fun () => do let c ← gapChar; pure (c, ()))
    (fun _ => Reader.Consumes.bind consumes_gapChar _) ()
  pure !found.isEmpty

def isBareChar (c : Char) : Bool := !(c = '>' || Text.isBlank c)

def quoted (quote : Char) : Reader Text := do
  .literal [quote]
  let value ← .many (· ≠ quote)
  .literal [quote]
  pure value

/-- Reads the value of an attribute with its equals signs; gives it with whether another attribute
may follow at once. Before a quote that is never closed the value is empty if blanks stand there,
and else begins with the last of several equals signs. -/
def value : Reader (Text × Bool) := do
  let _ ← Reader.many Text.isBlank
  let signs ← .many1 (· = '=')
  let blanks ← .many Text.isBlank
  .oneOf [
    do let text ← quoted '\''; pure (text, true),
    do let text ← quoted '"'; pure (text, true),
    do
      .ahead fun text => !text.head?.any isQuote
      let text ← .many isBareChar
      pure (text, false),
    do
      .guard !blanks.isEmpty
      pure ([], true),
    do
      .guard (signs.length ≥ 2)
      let text ← .many isBareChar
      pure ('=' :: text, false)]

/-- Reads an attribute and the gap behind it, if an attribute may begin here; gives with it whether
another may follow. -/
def attribute? (free : Bool) : Reader ((Text × Option Text) × Bool) := do
  .guard free
  let first ← .char fun c => !(Text.isBlank c || c = '/' || c = '>')
  let others ← .many fun c => !(Text.isBlank c || c = '/' || c = '=' || c = '>')
  let found ← Reader.optional value
  let apart ← gap
  let closed := match found with
    | some (_, closed) => closed
    | none => (first :: others).getLast?.any isQuote
  pure ((first :: others, found.map Prod.fst), apart || closed)

theorem consumes_attribute? (free : Bool) : (attribute? free).Consumes :=
  Reader.Consumes.bind_right _ fun _ => Reader.Consumes.bind (Reader.consumes_char _) _

def isNameChar (c : Char) : Bool :=
  !(c = '\t' || c = '\n' || c = '\r' || c = '\x0c' || c = ' ' || c = '/' || c = '>' || c = '\x00')

/-- What follows a tag and lets it be complete later, were there more text. -/
def isUnfinished (c : Char) : Bool := c.isAlpha || c = '=' || c = '/'

def reader : Reader RawTag := do
  let first ← .char Char.isAlpha
  let others ← .many isNameChar
  let apart ← gap
  let free := apart || (first :: others).getLast?.any fun c => isQuote c || Text.isBlank c
  let attributes ← Reader.unfold attribute? consumes_attribute? free
  let _ ← Reader.many Text.isBlank
  let ending ← .oneOf [
    do .literal ">"; pure .opened,
    do .literal "/>"; pure .closed,
    do .ahead (·.head?.any (!isUnfinished ·)); pure .broken]
  pure ⟨first :: others, attributes, ending⟩

end RawTag

structure StartTag where
  name : Text
  attributes : Keyed Text Text

/-- The tag with references decoded; of several attributes with one name the last counts, and a
missing value is empty. -/
def StartTag.ofRaw (raw : RawTag) : Except Text.Oversized StartTag := do
  let attributes ← raw.attributes.mapM fun (name, value) => do
    let decoded ← decodeReferences (value.getD [])
    pure (Text.lower name, decoded)
  pure ⟨Text.lower raw.name, .ofPairs attributes⟩

end LazyEmbed.Html
