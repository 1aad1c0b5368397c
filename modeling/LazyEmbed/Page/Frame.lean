import LazyEmbed.Text.Blank
import LazyEmbed.Text.Pattern

/-!
Frames of embedded media in a page. A frame is marked itself, or stands in a marked wrapper, which
is two nested elements. A frame at the end of a template is built by other scripts and is no
matter of ours. What does not have the expected shape is left alone.
-/

namespace LazyEmbed.Page

/-- The beginning of the attribute that marks a frame or a wrapper. -/
def marker : Text := "data-s9e-mediaembed=\""

/-- A frame with the beginning of its wrapper, which is empty for a frame that is marked itself. -/
structure Frame where
  wrapper : Text
  element : Text

namespace Frame

def afterWrappers (text : Text) : Text :=
  match _h : Text.afterStart? "</span>" text with
  | some rest => afterWrappers rest
  | none => text
termination_by text.length
decreasing_by
  rw [Text.eq_append_of_afterStart? _h]
  simp
  omega

/-- Nothing but closing tags of wrappers and blanks is left to the end of a template. -/
def endsTemplate (text : Text) : Bool :=
  "</template>".toList.isPrefixOf ((afterWrappers text).dropWhile Text.isBlank)

/-- The text goes on with the marker of a frame, and its value with any character but a quote. -/
def isMarked (text : Text) : Bool :=
  match Text.afterStart? (" " ++ marker) text with
  | some (c :: _) => c ≠ '"'
  | _ => false

/-- Reads the attributes of a frame, which has no content, and its closing tag. -/
def attributes : Reader Text := do
  let inside ← .many (· ≠ '>')
  .literal "></iframe>"
  .ahead (!endsTemplate ·)
  pure inside

def elementText (attributes : Text) : Text := "<iframe" ++ attributes ++ "></iframe>"

def readWrapped : Reader Frame := do
  .literal "span data-s9e-mediaembed=\""
  let outer ← .many1 (· ≠ '>')
  .literal "><span"
  let inner ← .many (· ≠ '>')
  .literal "><iframe"
  let inside ← attributes
  pure ⟨"<span data-s9e-mediaembed=\"" ++ outer ++ "><span" ++ inner ++ ">", elementText inside⟩

def readMarked : Reader Frame := do
  .literal "iframe"
  .ahead isMarked
  let inside ← attributes
  pure ⟨[], elementText inside⟩

def pattern : Pattern Frame := .after "<" (readWrapped.orElse readMarked)

end Frame

end LazyEmbed.Page
