import LazyEmbed.Placeholder.Attributes
import LazyEmbed.Text.Blank

/-!
Embeds that load on a click. Such a frame says in attributes of its own what to load and which
media item it shows; its style may give the background of the placeholder that stands in for it.
The background is a declaration of the style; it moves into an attribute of its own, so that the
placeholder can drop it when the frame comes.
-/

namespace LazyEmbed.ClickToLoad

def siteName : Text := "data-s9e-mediaembed-c2l"

def mediaName : Text := "data-s9e-mediaembed-c2l-oembed-id"

def sourceName : Text := "data-s9e-mediaembed-c2l-src"

def backgroundName : Text := "data-s9e-mediaembed-c2l-background"

inductive StylePart where
  /-- A background declaration, by its value. -/
  | background (value : Text)
  /-- Any other word. -/
  | word (text : Text)

namespace StylePart

/-- Reads a whole word, or a background declaration where a word begins, and the semicolon that
ends it. Since words are read as a whole, no declaration is found inside one. -/
def pattern : Pattern StylePart where
  reader := Reader.orElse
    (do
      .literal "background:"
      let value ← .many1 (· ≠ ';')
      let _ ← Reader.optional (.literal ";")
      pure (.background value))
    (do
      let text ← .many1 Text.isWord
      pure (.word text))
  consumes := Reader.Consumes.orElse
    (Reader.Consumes.bind (Reader.consumes_literal (by decide)) _)
    (Reader.Consumes.bind (Reader.consumes_many1 _) _)

def background? : StylePart → Option Text
  | background value => some value
  | word _ => none

def otherText : StylePart → Text
  | background _ => []
  | word text => text

end StylePart

def background? (style : Text) : Option Text :=
  (StylePart.pattern.hits style).findSome? StylePart.background?

def withoutBackground (style : Text) : Text := StylePart.pattern.replace StylePart.otherText style

def promoteSource (attributes : Attributes) : Attributes :=
  match attributes.get? sourceName with
  | some source => attributes.put "src" source
  | none => attributes

/-- Moves the background of a frame that loads on a click out of its style. A style of which
nothing is left is dropped. -/
def extractBackground (attributes : Attributes) : Attributes :=
  match attributes.contains siteName, attributes.get? "style" with
  | true, some style =>
    match background? style with
    | some value =>
      let attributes := attributes.put backgroundName ("background:" ++ Text.trim value)
      let style := Text.trim (withoutBackground style)
      if style = [] then attributes.erase "style" else attributes.put "style" style
    | none => attributes
  | _, _ => attributes

def setApart (attributes : Attributes) : Attributes :=
  extractBackground (promoteSource attributes)

end LazyEmbed.ClickToLoad
