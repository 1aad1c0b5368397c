import LazyEmbed.Files.TextFile
import LazyEmbed.Page.Deferral
import LazyEmbed.Site.Settings
import LazyEmbed.Text.LowerCase

/-!
Deferring the frames of pages that a site has written. A file is written again only if its text
changes, and nothing but the text counts: a file with other line ends than line feeds keeps them as
long as its text stays the same.
-/

namespace LazyEmbed.Site

structure Outcome where
  tree : Files.Tree
  /-- The file was written again. -/
  written : Bool
  /-- What was asked of the host. -/
  events : List Title.Event

def isPage (path : Files.Path) : Bool :=
  Text.lower (Files.suffix path.name) = ".html".toList

/-- Defers the frames of the page at a path, unless it is no page or the settings forbid it. -/
def deferFile (settings : Settings) (now : Int) (numbers : List Int) (tree : Files.Tree)
    (path : Files.Path) : Except Files.TextFault Outcome :=
  if settings.values.isEnabled && isPage path then do
    let page ← tree.readText path
    let outcome := Page.deferWith (settings.host now) numbers page
    if outcome.page = page then pure ⟨tree, false, outcome.events⟩
    else do
      let tree ← tree.writeText path outcome.page now
      pure ⟨tree, true, outcome.events⟩
  else pure ⟨tree, false, []⟩

structure Listeners where
  /-- The frames of written pages are to be deferred. -/
  deferring : Bool

namespace Listeners

def nobody : Listeners := ⟨false⟩

def register (_ : Listeners) : Listeners := ⟨true⟩

def announce (listeners : Listeners) (settings : Settings) (now : Int) (numbers : List Int)
    (tree : Files.Tree) (path : Files.Path) : Except Files.TextFault Outcome :=
  if listeners.deferring then deferFile settings now numbers tree path
  else pure ⟨tree, false, []⟩

end Listeners

end LazyEmbed.Site
