import LazyEmbed.Json.Reading

/-!
Checking a payload. The script that builds frames expects a JSON list of strings, names and values
in turn; anything else is a problem, of which the first is told. A payload whose values are nested
too deeply is not judged.
-/

namespace LazyEmbed.Validation

inductive PayloadProblem where
  /-- The payload is not JSON. -/
  | invalid (flaw : Json.Flaw)
  | notList
  | oddCount
  | notStrings

inductive PayloadFault where
  /-- Values are nested deeper than they are followed. -/
  | tooDeep
  deriving Repr, DecidableEq

def valueProblem? : Json.Value → Option PayloadProblem
  | .array items =>
    if items.length % 2 ≠ 0 then some .oddCount
    else if items.all (·.text?.isSome) then none
    else some .notStrings
  | _ => some .notList

/-- What is wrong with a payload, if anything, where values are followed to the given depth. -/
def payloadProblemWithin? (maxDepth : Nat) (payload : Text) :
    Except PayloadFault (Option PayloadProblem) :=
  match Json.readWithin maxDepth payload with
  | .ok value => .ok (valueProblem? value)
  | .error (.flaw flaw) => .ok (some (.invalid flaw))
  | .error .tooDeep => .error .tooDeep

def payloadProblem? (payload : Text) : Except PayloadFault (Option PayloadProblem) :=
  payloadProblemWithin? Json.maxDepth payload

def PayloadProblem.message (payload : Text) : PayloadProblem → Text
  | invalid flaw => "Invalid JSON payload: " ++ flaw.message payload
  | notList => "Payload is not a list"
  | oddCount => "Payload has an odd number of entries"
  | notStrings => "Payload contains non-string entries"

end LazyEmbed.Validation
