import LazyEmbed.Html.Element
import LazyEmbed.Placeholder.Element
import LazyEmbed.Validation.Payload

/-!
Checking a page. Every placeholder must have a payload that the script can use, no marked frame may
be left outside templates, and a page with placeholders must have the script, which no page may have
twice. A page that cannot be taken apart, or holds a payload that cannot be judged, is not checked.
-/

namespace LazyEmbed.Validation

inductive Issue where
  | payload (problem : PayloadProblem) (payload : Text)
  /-- A marked frame, by its source. -/
  | frameLeft (source : Text)
  | scriptMissing
  | scriptRepeated (count : Nat)

def shownPayload : Nat := 80

def Issue.message : Issue → Text
  | payload problem text => problem.message text ++ ": " ++ text.take shownPayload
  | frameLeft source => "Iframe left in place: " ++ source
  | scriptMissing => "Bootstrap script missing"
  | scriptRepeated count => "Bootstrap script appended " ++ Text.decimal count ++ " times"

def scriptSignature : Text := "\"data-s9e-mediaembed\",\"s9e-miniplayer\""

def payload? (element : Html.Element) : Option Text :=
  if element.name = "span".toList then element.attributes.get? Payload.attributeName else none

/-- A marked frame that no template keeps. -/
def isFrameLeft (element : Html.Element) : Bool :=
  element.name = "iframe".toList && element.attributes.contains Placeholder.markName
    && !element.ancestors.contains "template".toList

def isLoader (element : Html.Element) : Bool :=
  element.name = "script".toList && Text.contains scriptSignature element.content

def scriptIssue? (placeholders scripts : Nat) : Option Issue :=
  if scripts = 0 then if placeholders = 0 then none else some .scriptMissing
  else if scripts = 1 then none
  else some (.scriptRepeated scripts)

inductive Fault where
  /-- The page cannot be taken apart. -/
  | page (fault : Html.Fault)
  | payload (fault : PayloadFault)

def payloadIssues : List Text → Except PayloadFault (List Issue)
  | [] => .ok []
  | text :: texts => do
    let problem ← payloadProblem? text
    let issues ← payloadIssues texts
    pure ((problem.map (.payload · text)).toList ++ issues)

def issuesOf (elements : List Html.Element) : Except PayloadFault (List Issue) := do
  let payloads := elements.filterMap payload?
  let lefts := elements.filter isFrameLeft
  let issues ← payloadIssues payloads
  pure (issues
    ++ lefts.map (fun frame => .frameLeft ((frame.attributes.get? "src").getD []))
    ++ (scriptIssue? payloads.length (elements.filter isLoader).length).toList)

def checkPage (page : Text) : Except Fault (List Issue) := do
  let elements ← (Html.elements page).mapError .page
  (issuesOf elements).mapError .payload

end LazyEmbed.Validation
