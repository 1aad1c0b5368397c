import LazyEmbed.Title.Session

/-!
Stores and services whose answers are given by tables.
-/

namespace LazyEmbed.Title

/-- The records of a table that some of the digests belong to, in the order of the table. -/
def recordsByDigest (records : List Record) (digests : List Text) : List Record :=
  records.filter fun record => digests.contains (itemDigest record.site record.media)

structure TitleRow where
  site : Text
  media : Text
  title : Option Text

/-- The service that knows the titles of a table, of which later rows count before earlier ones;
a broken one fails in any case. -/
def Service.ofRows (active : Int) (broken : Bool) (rows : List TitleRow) : Service where
  active
  fetch site media :=
    if broken then .failed
    else
      match rows.reverse.find? fun row => row.site = site ∧ row.media = media with
      | some row => .found row.title
      | none => .nothing

end LazyEmbed.Title
