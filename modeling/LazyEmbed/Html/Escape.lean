import LazyEmbed.Text.Basic

/-!
Writing text into markup. Which characters have to give way depends on where the text goes: the
content of an element, an attribute between double quotes, or an attribute between quotes of either
kind.
-/

namespace LazyEmbed.Html

def forDoubleQuotes (text : Text) : Text :=
  text.flatMap fun
    | '&' => "&amp;"
    | '<' => "&lt;"
    | '>' => "&gt;"
    | '"' => "&quot;"
    | c => [c]

def forAnyQuotes (text : Text) : Text :=
  text.flatMap fun
    | '&' => "&amp;"
    | '<' => "&lt;"
    | '>' => "&gt;"
    | '"' => "&quot;"
    | '\'' => "&#x27;"
    | c => [c]

end LazyEmbed.Html
