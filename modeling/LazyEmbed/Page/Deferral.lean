import LazyEmbed.Page.Frame
import LazyEmbed.Page.Loader
import LazyEmbed.Placeholder.Element
import LazyEmbed.Title.Session

/-!
Deferring the frames of a page. Every frame of embedded media gives way to a placeholder, the
placeholders get the titles that are known or can be got, and a page in which a frame was replaced
gets the script that builds the frames. A page without the marker is left as it is, and nobody is
asked anything.
-/

namespace LazyEmbed.Page

/-- A frame's wrapper with the placeholder in place of the frame. -/
def replaceFrame (frame : Frame) : Text := frame.wrapper ++ Placeholder.ofFrame frame.element

def replaceFrames (page : Text) : Text := Frame.pattern.replace replaceFrame page

def frames (page : Text) : List Frame := Frame.pattern.hits page

def recordFrame (session : Title.Session) (element : Text) : Title.Session :=
  match Placeholder.mediaOf? element with
  | some (site, media) => session.addCandidate site media
  | none => session

def sessionOf (page : Text) : Title.Session :=
  (frames page).foldl (fun session frame => recordFrame session frame.element) .start

/-- Defers the frames of a page, with random numbers for the choices that may have to be made. -/
def deferWith (host : Title.Host) (numbers : List Int) (page : Text) : Title.Outcome :=
  if Text.contains marker page then
    let outcome := (sessionOf page).entitle host numbers (replaceFrames page)
    if (frames page).isEmpty then outcome
    else { outcome with page := outcome.page ++ loaderElement }
  else { page, session := .start, numbers, events := [] }

/-- Defers the frames of a page with nobody to ask. -/
def defer (page : Text) : Text :=
  (deferWith { store := none, service := none, now := 0 } [] page).page

end LazyEmbed.Page
