import LazyEmbed.Html.Escape
import LazyEmbed.Keyed
import LazyEmbed.Placeholder.ClickToLoad
import LazyEmbed.Text.Blank

/-!
Titles in the page. A tag that names a site and one of its media items gets the title behind the
two, if the title is known; a title attribute that the tag has already goes in any case.
-/

namespace LazyEmbed.Title

def attributeName : Text := "data-s9e-mediaembed-c2l-oembed-title"

/-- Titles by site and media item; an item may be known to have none, and then its title is
empty. -/
abbrev Titles := Keyed Text (Keyed Text Text)

namespace Titles

def get? (titles : Titles) (site media : Text) : Option Text :=
  (Keyed.get? titles site).bind (·.get? media)

def put (titles : Titles) (site media title : Text) : Titles :=
  Keyed.put titles site (((Keyed.get? titles site).getD .empty).put media title)

end Titles

/-- The part of a tag from the attribute that names the site to the closing bracket. -/
structure Tag where
  site : Text
  /-- What stands between the attribute of the site and that of the item. -/
  between : Text
  media : Text
  /-- What stands behind the attribute of the item, with the closing bracket. -/
  rest : Text

namespace Tag

/-- A name of a site or an item holds neither double quotes nor brackets. -/
def isNameChar (c : Char) : Bool := !(c = '"' || c = '<' || c = '>')

/-- The part from the nearest attribute of an item with a tag that closes behind it. -/
def pattern : Pattern Tag := .after "data-s9e-mediaembed-c2l=\"" do
  let site ← .many1 isNameChar
  .literal "\""
  let (between, media, rest) ← .shortest (· ≠ '>') do
    .literal "data-s9e-mediaembed-c2l-oembed-id=\""
    let media ← .many1 isNameChar
    .literal "\""
    let rest ← .many fun c => !(c = '<' || c = '>')
    .literal ">"
    pure (media, rest ++ ">")
  pure ⟨site, between, media, rest⟩

def head (tag : Tag) : Text :=
  ClickToLoad.siteName ++ "=\"" ++ tag.site ++ "\"" ++ tag.between ++ ClickToLoad.mediaName ++ "=\""
    ++ tag.media ++ "\""

def titleAttribute : Pattern Unit where
  reader := do
    let _ ← Reader.char Text.isBlank
    .literal (attributeName ++ "=\"")
    let _ ← Reader.many (· ≠ '"')
    .literal "\""
  consumes := Reader.Consumes.bind (Reader.consumes_char _) _

def renderTitle (title : Text) : Text :=
  " " ++ attributeName ++ "=\"" ++ Html.forAnyQuotes title ++ "\""

def retitled (titles : Titles) (tag : Tag) : Text :=
  let title := (titles.get? tag.site tag.media).elim [] renderTitle
  titleAttribute.remove tag.head ++ title ++ titleAttribute.remove tag.rest

end Tag

def retitle (titles : Titles) (page : Text) : Text := Tag.pattern.replace (Tag.retitled titles) page

end LazyEmbed.Title
