import LazyEmbed.Captured.Host
import LazyEmbed.Json.Value
import LazyEmbed.Keyed
import LazyEmbed.Title.Session

/-!
The settings of a site. They are values by their names; only the store and the service that know
titles are more than values, and are held apart.
-/

namespace LazyEmbed.Site

inductive Fault where
  /-- A text was due. -/
  | notText (name : Text)

abbrev Values := Keyed Text Json.Value

namespace Values

/-- Frames are deferred unless the setting says otherwise. -/
def isEnabled (values : Values) : Bool := (values.get? "MEDIAEMBED_ENABLED").elim true (·.isOn)

/-- The text of a setting, if the setting is switched on. -/
def text? (values : Values) (name : Text) : Except Fault (Option Text) :=
  match values.get? name with
  | none => .ok none
  | some value =>
    if value.isOn then
      match value.text? with
      | some text => .ok (some text)
      | none => .error (.notText name)
    else .ok none

def allowedHost? (values : Values) (value : Text) : Except Fault (Option Text) := do
  let configured ← values.text? "MEDIAEMBED_MASTODON_HOSTS"
  pure (Captured.configuredHost? value configured)

def demo : Values := .ofPairs [
  ("SITENAME", .string "mediaembed demo"),
  ("SITEURL", .string ""),
  ("PATH", .string "content"),
  ("ARTICLE_PATHS", .array [.string "articles"]),
  ("PAGE_PATHS", .array [.string "pages"]),
  ("TIMEZONE", .string "UTC"),
  ("DEFAULT_LANG", .string "en"),
  ("PLUGIN_PATHS", .array [.string "pelican-plugins"]),
  ("PLUGINS", .array [.string "media_embed"]),
  ("MEDIAEMBED_ENABLED", .bool true),
  ("MEDIAEMBED_MASTODON_HOSTS", .string "mastodon.social"),
  ("MEDIAEMBED_OEMBED_STORE", .null),
  ("MEDIAEMBED_OEMBED_SERVICE", .null),
  ("RELATIVE_URLS", .bool true)]

end Values

structure Settings where
  values : Values
  store : Option (List Text → List Title.Record)
  service : Option Title.Service

namespace Settings

def default : Settings := ⟨.empty, none, none⟩

def host (settings : Settings) (now : Int) : Title.Host := ⟨settings.store, settings.service, now⟩

end Settings

end LazyEmbed.Site
