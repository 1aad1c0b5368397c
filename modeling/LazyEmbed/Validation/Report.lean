import LazyEmbed.Validation.Page

/-!
The report on the pages of a site. Only pages with issues are told, by their names in ascending
order, each with its issues in the order in which they were found.
-/

namespace LazyEmbed.Validation

structure Finding where
  source : Text
  messages : List Text
  deriving Repr, DecidableEq

def sortFindings (findings : List Finding) : List Finding :=
  findings.mergeSort fun a b => a.source ≤ b.source

def issueCount (findings : List Finding) : Nat := (findings.flatMap (·.messages)).length

def rule : Text := List.replicate 70 '='

def reportHead : List Text := [[], rule, "MEDIA EMBED VALIDATION REPORT", rule]

def Finding.lines (finding : Finding) : List Text :=
  ("  " ++ finding.source ++ ":") :: finding.messages.map ("    - ".toList ++ ·)

def summary (findings : List Finding) : Text :=
  "[ERROR] " ++ Text.decimal (issueCount findings) ++ " issue(s) in "
    ++ Text.decimal findings.length ++ " file(s):"

def reportLines (findings : List Finding) : List Text :=
  if findings.isEmpty then
    reportHead ++ [[], "[OK] All media embed placeholders validated successfully."]
  else
    reportHead ++ [[], summary findings, []] ++ (sortFindings findings).flatMap Finding.lines

def exitCode (findings : List Finding) : Nat := if findings.isEmpty then 0 else 1

end LazyEmbed.Validation
