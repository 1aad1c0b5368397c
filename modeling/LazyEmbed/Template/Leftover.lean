import LazyEmbed.Template.Fault
import LazyEmbed.Text.Pattern

/-!
What must not be left in a converted template: an element of the source dialect, or a lone opening
brace, which begins neither a variable nor an expression. Braces are looked at in runs, since a
brace next to another is no lone one on either side.
-/

namespace LazyEmbed.Template.Leftover

def element : Pattern Text := .after "<xsl:" do
  let inside ← .many (· ≠ '>')
  let closing ← Reader.optional (.literal ">")
  pure ("<xsl:" ++ inside ++ if closing.isSome then ['>'] else [])

/-- A run of opening braces. A single one that no dollar sign follows gives the text from it to the
next closing brace; any other run gives nothing. -/
def braces : Pattern (Option Text) where
  reader := do
    let run ← .many1 (· = '\x7b')
    let lone ← Reader.orElse
      (do .guard (run.length = 1); .ahead (·.head? ≠ some '$'); pure true)
      (pure false)
    if lone then do
      let inside ← .many (· ≠ '\x7d')
      let closing ← Reader.optional (.literal "\x7d")
      pure (some (run ++ inside ++ if closing.isSome then ['\x7d'] else []))
    else pure none
  consumes := Reader.Consumes.bind (Reader.consumes_many1 _) _

def element? (template : Text) : Option Text := (element.hits template).head?

def brace? (template : Text) : Option Text := (braces.hits template).findSome? id

/-- Refuses a template in which something is left over; an element is reported before a brace. -/
def check (template : Text) : Except Fault Unit :=
  match element? template, brace? template with
  | some fragment, _ => .error (.foreignElement fragment)
  | none, some fragment => .error (.loneBrace fragment)
  | none, none => .ok ()

end LazyEmbed.Template.Leftover
