import LazyEmbed.Html.Token

/-!
The elements of a page, each with the names of those it is in. No element ends but by an end tag: of
its own, or of one around it. The exceptions are elements that never have content and those that
their start tag closes: they end where they begin, and nothing is ever inside them.
-/

namespace LazyEmbed.Html

structure Element where
  name : Text
  attributes : Keyed Text Text
  /-- The names of the elements it is in, the innermost first. -/
  ancestors : List Text
  /-- The raw text of a script or a style; empty for other elements. -/
  content : Text

def voidNames : List Text :=
  ["area", "base", "basefont", "bgsound", "br", "col", "command", "embed", "frame", "hr", "image",
    "img", "input", "isindex", "keygen", "link", "menuitem", "meta", "nextid", "param", "source",
    "spacer", "track", "wbr"]

/-- The names of the elements that have not ended, the innermost first. -/
abbrev Nesting := List Text

namespace Nesting

def around? (name : Text) : Nesting → Option Nesting
  | [] => none
  | inner :: outer => if inner = name then some outer else around? name outer

/-- After an end tag: it ends the nearest element of its name, with all that is open inside it. If
there is none, the tag is passed over. -/
def close (nesting : Nesting) (name : Text) : Nesting := (around? name nesting).getD nesting

def element (nesting : Nesting) (tag : StartTag) (content : Text) : Element :=
  ⟨tag.name, tag.attributes, nesting, content⟩

def begun? (nesting : Nesting) : Token → Option Element
  | .start tag => some (nesting.element tag [])
  | .empty tag => some (nesting.element tag [])
  | .raw tag content => some (nesting.element tag content)
  | .close _ => none

def after (nesting : Nesting) : Token → Nesting
  | .start tag => if tag.name ∈ voidNames then nesting else tag.name :: nesting
  | .empty _ => nesting
  | .raw _ _ => nesting
  | .close name => nesting.close name

end Nesting

def elementsFrom (nesting : Nesting) : List Token → List Element
  | [] => []
  | token :: tokens => (nesting.begun? token).toList ++ elementsFrom (nesting.after token) tokens

def elements (page : Text) : Except Fault (List Element) :=
  (tokens page).map (elementsFrom [])

end LazyEmbed.Html
