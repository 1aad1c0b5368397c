import LazyEmbed.Digest.Md5

/-!
Records of media items, as a store keeps them: the title if one is known, and what is known about
failures to get it. A record is found by a digest of the site and the item.
-/

namespace LazyEmbed.Title

structure Record where
  media : Text
  site : Text
  title : Option Text := none
  /-- How often fetching the title has failed. -/
  failures : Int := 0
  /-- When fetching it failed last, in seconds. -/
  lastFailure : Int := 0
  deriving Repr, DecidableEq

def itemDigest (site media : Text) : Text := Md5.hexDigest (Utf8.encode (site ++ media))

def maxFailures : Int := 10

/-- The seconds between a failure and the next attempt. -/
def retryDelay : Int := 3600

/-- The title is still unknown, and another attempt at it is due. -/
def Record.isFetchDue (record : Record) (now : Int) : Bool :=
  record.title.isNone && record.failures < maxFailures && record.lastFailure ≤ now - retryDelay

end LazyEmbed.Title
