import LazyEmbed.Template.Fault
import LazyEmbed.Text.Base64
import LazyEmbed.Text.Pattern
import LazyEmbed.Text.Word

/-!
Text that mixes literal characters, variables and expressions, as one string expression: quoted
literals, variables and parenthesised expressions, joined by dots. While the literal characters are
quoted, expressions are hidden as tokens, which are their octets in Base64 between two NUL
characters; no quoting can harm them there. In the end empty literals next to a dot are dropped.
-/

namespace LazyEmbed.Template.MixedContent

/-- The character on both sides of a hidden expression. -/
def mark : Char := '\x00'

theorem openBraces_ne_nil : ("\x7b\x7b" : Text) ≠ [] := by decide

/-- An expression between double braces, without the blanks around it. Read is its text up to the
nearest place where the closing braces follow, at most with blanks before them. -/
def expression : Pattern Text := .after "\x7b\x7b" (do
  let _ ← Reader.many Text.isBlank
  let (found, _) ← .shortest (· ≠ '\n') do
    let _ ← Reader.many Text.isBlank
    .literal "\x7d\x7d"
  pure found) openBraces_ne_nil

def braced : Pattern Text := .after "\x7b$" do
  let name ← .many1 Text.isWord
  .literal "\x7d"
  pure ('$' :: name)

def token : Pattern Text := .after [mark] do
  let letters ← .many1 (· ≠ mark)
  .literal [mark]
  pure letters

def hide (expression : Text) : Text :=
  mark :: Base64.encode (Utf8.encode expression) ++ [mark]

def reveal (letters : Text) : Except TokenFault Text :=
  if letters.any (128 ≤ ·.toNat) then .error .notAscii
  else
    match Base64.decode letters with
    | none => .error .notBase64
    | some octets => (Utf8.decode octets).mapError .notText

def quote (text : Text) : Text :=
  "'" ++ (text.flatMap fun
    | '\\' => "\\\\"
    | '\'' => "\\'"
    | c => [c]) ++ "'"

/-- Ends a literal, joins the term to it, and begins the next literal. -/
def splice (term : Text) : Text := "' . " ++ term ++ " . '"

def dropEmpty (text : Text) : Text :=
  (Pattern.fixed " . ''").remove ((Pattern.fixed "'' . ").remove text)

end MixedContent

open MixedContent in
def stringOfMixed (text : Text) : Except TokenFault Text := do
  let quoted := quote (expression.replace hide text)
  let spliced := braced.replace splice quoted
  let revealed ← token.replaceM
    (fun letters => (reveal letters).map fun found => splice ("(" ++ found ++ ")")) spliced
  pure (dropEmpty revealed)

end LazyEmbed.Template
