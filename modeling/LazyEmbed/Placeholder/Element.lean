import LazyEmbed.Html.Escape
import LazyEmbed.Placeholder.ClickToLoad
import LazyEmbed.Placeholder.Payload

/-!
The placeholder of a frame: an empty element that carries, besides the payload, the few attributes
that style it, mark it, and describe what it loads on a click.
-/

namespace LazyEmbed.Placeholder

def markName : Text := "data-s9e-mediaembed"

def attributeNames : List Text :=
  [markName, ClickToLoad.siteName, ClickToLoad.backgroundName, ClickToLoad.mediaName, "style"]

def renderAttribute (name value : Text) : Text :=
  " " ++ name ++ "=\"" ++ Html.forDoubleQuotes value ++ "\""

def renderAttributes (attributes : Attributes) : Text :=
  attributeNames.flatMap fun name =>
    match attributes.get? name with
    | some value => renderAttribute name value
    | none => []

def render (attributes : Attributes) : Text :=
  "<span" ++ renderAttributes attributes ++ " " ++ Payload.attributeName ++ "='"
    ++ Payload.render attributes ++ "'></span>"

/-- The attributes that the placeholder of a frame is made of. A frame with an interface of its own
is not to be told to run a script when it has loaded. -/
def attributesOf (frame : Text) : Attributes :=
  let attributes := ClickToLoad.setApart (Attributes.ofElement frame)
  if attributes.contains "data-s9e-mediaembed-api" then attributes.erase "onload" else attributes

def ofFrame (frame : Text) : Text := render (attributesOf frame)

/-- The site and the media item of a frame that loads on a click and can have a title. -/
def mediaOf? (frame : Text) : Option (Text × Text) :=
  let attributes := attributesOf frame
  match attributes.get? ClickToLoad.siteName, attributes.get? ClickToLoad.mediaName with
  | some site, some media => some (site, media)
  | _, _ => none

end LazyEmbed.Placeholder
