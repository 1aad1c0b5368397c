import LazyEmbed.Text.Pattern
import LazyEmbed.Text.Word

/-!
The fixed changes of a template. They need no knowledge of what an expression means: doubled braces
are set aside as references, variables and conditionals get the spelling of the target dialect,
empty frames get a closing tag, and live-preview hints go. Closing tags of a choice are told apart
by the tags next to them, so there must be nothing between these.
-/

namespace LazyEmbed.Template

abbrev Change := Text → Text

namespace Markup

def swap (old new : Text) (h : old ≠ [] := by decide) : Change :=
  (Pattern.fixed old h).replace fun _ => new

/-- `{@name}` -/
def bracedAttribute : Pattern Text := .after "\x7b@" do
  let name ← .many1 Text.isWord
  .literal "\x7d"
  pure name

/-- `<xsl:value-of select="@name"/>` -/
def selectedAttribute : Pattern Text := .after "<xsl:value-of select=\"@" do
  let name ← .many1 Text.isWord
  .literal "\"/>"
  pure name

def variableText (name : Text) : Text := "\x7b$" ++ name ++ "\x7d"

/-- `<iframe …/>`, by what stands between the name and the slash, which is never nothing. -/
def emptyFrame : Pattern Text := .after "<iframe" do
  let inside ← .many (· ≠ '>')
  .literal ">"
  .guard (inside.getLast? == some '/' && inside.length ≥ 2)
  pure inside.dropLast

/-- ` data-s9e-livepreview…="…"` -/
def livePreview : Pattern Unit := .after " data-s9e-livepreview" do
  let _ ← Reader.many (· ≠ '=')
  .literal "=\""
  let _ ← Reader.many (· ≠ '"')
  .literal "\""

def opening (start : Text) (h : start ≠ [] := by decide) : Pattern Text := .after start (h := h) do
  let test ← .many1 (· ≠ '"')
  .literal "\">"
  pure test

end Markup

open Markup in
/-- The changes, in the order in which they are applied. -/
def changes : List Change := [
  swap "\x7b\x7b" "&#123;",
  swap "\x7d\x7d" "&#125;",
  bracedAttribute.replace variableText,
  selectedAttribute.replace variableText,
  emptyFrame.replace fun inside => "<iframe" ++ inside ++ "></iframe>",
  livePreview.remove,
  (opening "<xsl:if test=\"").replace fun test => "<xf:if is=\"" ++ test ++ "\">",
  swap "</xsl:if>" "</xf:if>",
  (opening "<xsl:choose><xsl:when test=\"").replace fun test => "<xf:if is=\"" ++ test ++ "\">",
  (opening "</xsl:when><xsl:when test=\"").replace fun test =>
    "<xf:elseif is=\"" ++ test ++ "\">",
  swap "</xsl:when><xsl:otherwise>" "<xf:else/>",
  swap "</xsl:otherwise></xsl:choose>" "</xf:if>",
  swap "</xsl:when></xsl:choose>" "</xf:if>"]

def changeMarkup (template : Text) : Text :=
  changes.foldl (fun text change => change text) template

def restoreBraces : Change := Markup.swap "&#125;" "\x7d" ∘ Markup.swap "&#123;" "\x7b"

end LazyEmbed.Template
