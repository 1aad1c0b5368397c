import LazyEmbed.Text.LowerCase

/-!
Hosts that an embed may be loaded from. An allow-list names one host a line. Neither the case of
letters nor blanks around a line matter, and the answer is always in lower case.
-/

namespace LazyEmbed.Captured

def defaultHosts : Text := "mastodon.social"

def hostsOf (allowed : Text) : List Text :=
  (Text.lines allowed).map fun line => Text.lower (Text.trim line)

def allowedHost? (value : Text) (allowed : Text) : Option Text :=
  let host := Text.lower value
  if host ≠ [] ∧ host ∈ hostsOf allowed then some host else none

/-- The host that a captured value is, by the configured allow-list. An allow-list that is missing
or empty counts as not configured. -/
def configuredHost? (value : Text) (configured : Option Text) : Option Text :=
  match configured with
  | some (c :: allowed) => allowedHost? value (c :: allowed)
  | _ => allowedHost? value defaultHosts

end LazyEmbed.Captured
