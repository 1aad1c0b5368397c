import LazyEmbed.Html.StartTag

/-!
Cutting a page into tags. Comments, declarations and text hold no tags and are passed over; the
content of scripts and styles is one text up to their end tag, whatever it looks like.

A page is read in two goes. The first ends where something is not complete, such as a comment or a
tag without its end; the second begins at that place and takes such things as text, so it goes on
to the end of the page. A number sign after an ampersand that begins no complete reference ends a
go as well, and all that is left after the second go is text.
-/

namespace LazyEmbed.Html

inductive Token where
  | start (tag : StartTag)
  /-- A start tag that closes its element at once. -/
  | empty (tag : StartTag)
  /-- A script or a style with its content. -/
  | raw (tag : StartTag) (content : Text)
  | close (name : Text)

inductive Fault where
  | oversized (oversized : Text.Oversized)
  /-- A marked section is of no known kind. -/
  | rejected
  deriving Repr, DecidableEq

inductive Markup where
  | start (tag : RawTag)
  | close (name : Text)
  /-- Something that holds no tag. -/
  | nothing
  | rejected

namespace Markup

def isEndNameChar (c : Char) : Bool :=
  c.isAlphanum || c = '-' || c = '.' || c = ':' || c = '_'

/-- Reads the name of an end tag that holds nothing else but blanks around it. -/
def plainEndName : Reader Text := do
  let _ ← Reader.many Text.isBlank
  let first ← .char Char.isAlpha
  let others ← .many isEndNameChar
  let _ ← Reader.many Text.isBlank
  pure (first :: others)

/-- Reads the name at the beginning of any end tag. -/
def looseEndName : Reader Text := do
  let first ← .char Char.isAlpha
  let others ← .many RawTag.isNameChar
  pure (first :: others)

/-- Reads the end of an end tag behind the slash; without a name it holds no tag. -/
def endTag : Reader Markup := do
  .literal "/"
  let inside ← .many (· ≠ '>')
  .literal ">"
  match plainEndName.whole? inside, looseEndName.run inside with
  | some name, _ => pure (.close (Text.lower name))
  | none, some (name, _) => pure (.close (Text.lower name))
  | none, none => pure .nothing

def upToEnd (ending : Reader Unit) : Reader Markup := do
  let _ ← Reader.shortest (fun _ => true) ending
  pure .nothing

def commentEnd : Reader Unit := do
  .literal "--"
  let _ ← Reader.many Text.isBlank
  .literal ">"

def sectionEnd : Reader Unit := do
  .literal "]"
  let _ ← Reader.many Text.isBlank
  .literal "]"
  let _ ← Reader.many Text.isBlank
  .literal ">"

def conditionEnd : Reader Unit := do
  .literal "]"
  let _ ← Reader.many Text.isBlank
  .literal ">"

def sectionKinds : List Text := ["temp", "cdata", "ignore", "include", "rcdata"]

def conditionKinds : List Text := ["if", "else", "endif"]

def markedSection : Reader Markup := do
  let first ← Reader.optional (.char Char.isAlpha)
  match first with
  | none =>
    .ahead (!List.isEmpty ·)
    pure .rejected
  | some first =>
    let others ← .many fun c => c.isAlphanum || c = '-' || c = '_' || c = '.'
    let _ ← Reader.many Text.isBlank
    .ahead (!List.isEmpty ·)
    let kind := Text.lower (first :: others)
    if kind ∈ sectionKinds then upToEnd sectionEnd
    else if kind ∈ conditionKinds then upToEnd conditionEnd
    else pure .rejected

/-- Reads what stands behind an opening bracket, if it is complete. -/
def reader : Reader Markup := .look fun text =>
  match text with
  | '!' :: '-' :: '-' :: _ => do .literal "!--"; upToEnd commentEnd
  | '!' :: '[' :: _ => do .literal "!["; markedSection
  | '!' :: _ => upToEnd (.literal ">")
  | '?' :: _ => upToEnd (.literal ">")
  | '/' :: _ => endTag
  | c :: _ =>
    if c.isAlpha then do
      let tag ← RawTag.reader
      pure (if tag.ending = .broken then .nothing else .start tag)
    else pure .nothing
  | [] => pure .nothing

end Markup

def rawNames : List Text := ["script", "style"]

/-- The ASCII letter in lower case that a letter is a form of: the long s counts as an s, and an i
with or without its dot as an i. -/
def plainLetter (c : Char) : Char :=
  if c = 'ſ' then 's' else if c = 'ı' || c = 'İ' then 'i' else c.toLower

/-- Reads what looks like the end tag of an element with raw text, in any case and with any form of
the letters; gives the name as it is written. -/
def rawEndLike (name : Text) : Reader Text := do
  .literal "</"
  let _ ← Reader.many Text.isBlank
  let found ← .many fun c => (plainLetter c).isAlpha
  .guard (found.map plainLetter = name)
  let _ ← Reader.many Text.isBlank
  .literal ">"
  pure found

/-- Reads the end tag of an element with raw text; its name may be in any case, but is ASCII. -/
def rawEnd (name : Text) : Reader Unit := do
  let found ← rawEndLike name
  .guard (found.all Char.isAlpha)

def rawContent (name : Text) : Reader Text := do
  let (content, _) ← .shortest (fun _ => true) (rawEnd name)
  pure content

/-- The content where the end tag is missing: all up to the last thing that looks like it, and that
thing too; what comes after it is lost. -/
def unendedContent (name : Text) : Text → Text
  | [] => []
  | c :: rest =>
    match unendedContent name rest with
    | [] =>
      match (rawEndLike name).run (c :: rest) with
      | some (_, left) => (c :: rest).take (rest.length + 1 - left.length)
      | none => []
    | content => c :: content

/-- Reads a numeric reference behind its number sign, up to a character that cannot go on with it;
gives its digits if they are decimal. -/
def numericReference : Reader (Option Text) := .orElse
  (do
    let digits ← .many1 Char.isDigit
    .ahead (·.head?.any (!Text.isHexDigit ·))
    pure (some digits))
  (do
    let _ ← Reader.char fun c => c = 'x' || c = 'X'
    let _ ← Reader.many1 Text.isHexDigit
    .ahead (!List.isEmpty ·)
    pure none)

/-- What is left, in the second go, when a thing that is not complete is taken as text: it goes on
to its closing bracket, or else to the next opening one, or else is that one bracket. -/
def afterIncomplete (text : Text) : Text :=
  match text.dropWhile (· ≠ '>'), text.dropWhile (· ≠ '<') with
  | _ :: rest, _ => rest
  | [], [] => text
  | [], rest => rest

theorem length_afterIncomplete_le (text : Text) : (afterIncomplete text).length ≤ text.length := by
  have hclose := (List.dropWhile_suffix (l := text) (· ≠ '>')).length_le
  have hopen := (List.dropWhile_suffix (l := text) (· ≠ '<')).length_le
  unfold afterIncomplete
  split
  · next h =>
    simp only [h, List.length_cons] at hclose
    omega
  · exact Nat.le_refl _
  · exact hopen

def tokensFrom (second : Bool) (text : Text) : Except Fault (List Token) :=
  match text with
  | [] => pure []
  | '<' :: rest =>
    match _h : Markup.reader.run rest with
    | none => if second then tokensFrom true (afterIncomplete rest)
        else tokensFrom true ('<' :: rest)
    | some (.rejected, _) => throw .rejected
    | some (.nothing, left) => tokensFrom second left
    | some (.close name, left) => (tokensFrom second left).map (.close name :: ·)
    | some (.start raw, left) => do
      let tag ← (StartTag.ofRaw raw).mapError .oversized
      if raw.ending = .closed then (tokensFrom second left).map (.empty tag :: ·)
      else if tag.name ∈ rawNames then
        match _hr : (rawContent tag.name).run left with
        | some (content, left) => (tokensFrom second left).map (.raw tag content :: ·)
        | none => pure [.raw tag (unendedContent tag.name left)]
      else (tokensFrom second left).map (.start tag :: ·)
  | '&' :: '#' :: rest =>
    match numericReference.run rest with
    | some (digits, _) => do
      let _ ← (Text.readDecimal (digits.getD [])).mapError .oversized
      tokensFrom second rest
    | none =>
      if second then pure []
      else if ';' ∈ rest then tokensFrom true rest
      else pure []
  | _ :: rest => tokensFrom second rest
termination_by 2 * text.length + if second then 0 else 1
decreasing_by
  · have := length_afterIncomplete_le rest
    simp only [List.length_cons]
    split <;> omega
  · simp_all
  all_goals simp only [List.length_cons]
  · have := Reader.length_le_of_run _h
    split <;> omega
  · have := Reader.length_le_of_run _h
    split <;> omega
  · have := Reader.length_le_of_run _h
    split <;> omega
  · have := Reader.length_le_of_run _h
    have := Reader.length_le_of_run _hr
    split <;> omega
  · have := Reader.length_le_of_run _h
    split <;> omega
  · split <;> omega
  · simp_all
    omega
  · split <;> omega

def tokens (page : Text) : Except Fault (List Token) := tokensFrom false page

end LazyEmbed.Html
