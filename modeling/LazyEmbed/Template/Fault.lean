import LazyEmbed.Text.Utf8

/-!
Why a template cannot be converted. The first three causes are the template's own and name the text
they concern; the others are limits of the reading of references and of hidden expressions.
-/

namespace LazyEmbed.Template

inductive TokenFault where
  /-- It holds characters beyond ASCII. -/
  | notAscii
  /-- Its last group of letters is incomplete. -/
  | notBase64
  /-- Its octets are no text. -/
  | notText (malformed : Utf8.Malformed)
  deriving Repr, DecidableEq

inductive Fault where
  /-- An expression has none of the supported shapes. -/
  | unknownExpression (expression : Text)
  /-- An element of the source dialect is left over. -/
  | foreignElement (fragment : Text)
  /-- A lone opening brace is left over. -/
  | loneBrace (fragment : Text)
  /-- A numeric reference is too long to be read. -/
  | oversizedReference (oversized : Text.Oversized)
  | token (fault : TokenFault)
  /-- The dialect has no conversion. -/
  | noConversion
  deriving Repr, DecidableEq

namespace Fault

def fragment : Fault → Text
  | unknownExpression expression => expression
  | foreignElement fragment => fragment
  | loneBrace fragment => fragment
  | _ => []

def isAboutTemplate : Fault → Bool
  | unknownExpression _ => true
  | foreignElement _ => true
  | loneBrace _ => true
  | _ => false

def message : Fault → Text
  | unknownExpression expression => "Cannot convert " ++ expression
  | foreignElement fragment => "Cannot transpile XSL element '" ++ fragment ++ "'"
  | loneBrace fragment =>
    "Cannot transpile attribute value template '" ++ fragment ++ "'"
  | _ => []

end Fault

end LazyEmbed.Template
