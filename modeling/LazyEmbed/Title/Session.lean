import LazyEmbed.Title.Record
import LazyEmbed.Title.Tag

/-!
Getting titles for one page. While its frames are replaced, the media items that can have a title
are recorded as candidates. Then the store is asked once for all of them; an item whose record says
that no fetch is due stops being a candidate. Of the others, the service fetches the title of at
most one, chosen at random, first among the sites and then among the items of the site, and only
while few fetches are in progress. The store, the service, the choices and the time come from
outside, and every request to them is an event of the outcome.
-/

namespace LazyEmbed.Title

inductive Reply where
  | failed
  | nothing
  | found (title : Option Text)

structure Service where
  /-- How many fetches are in progress. -/
  active : Int
  fetch : (site media : Text) → Reply

structure Host where
  /-- The records found by digests, if there is a store. -/
  store : Option (List Text → List Record)
  service : Option Service
  /-- The time, in seconds. -/
  now : Int

inductive Event where
  | lookup (digests : List Text)
  | choice (options : List Text)
  | fetch (site media : Text)
  deriving Repr, DecidableEq

def fetchLimit : Int := 2

/-- Media items by site, both in the order in which they were recorded. -/
abbrev Candidates := Keyed Text (List Text)

namespace Candidates

def add (candidates : Candidates) (site media : Text) : Candidates :=
  let known := (candidates.get? site).getD []
  candidates.put site (if media ∈ known then known else known ++ [media])

def drop (candidates : Candidates) (site media : Text) : Candidates :=
  match candidates.get? site with
  | some known => candidates.put site (known.filter (· ≠ media))
  | none => candidates

def pairs (candidates : Candidates) : List (Text × Text) :=
  candidates.entries.flatMap fun (site, known) => known.map fun media => (site, media)

def digests (candidates : Candidates) : List Text :=
  candidates.pairs.map fun (site, media) => itemDigest site media

def sites (candidates : Candidates) : List Text :=
  ((candidates.entries.filter fun (_, known) => !known.isEmpty).map Prod.fst).mergeSort

def mediaOf (candidates : Candidates) (site : Text) : List Text :=
  ((candidates.get? site).getD []).mergeSort

end Candidates

structure Session where
  candidates : Candidates
  titles : Titles

/-- The element of the list that a random number picks; numbers go round. -/
def pick? (options : List Text) (number : Int) : Option Text :=
  options[(number % options.length).toNat]?

namespace Session

def start : Session := ⟨.empty, .empty⟩

def addCandidate (session : Session) (site media : Text) : Session :=
  { session with candidates := session.candidates.add site media }

/-- What a record tells: the title, and whether the item is still a candidate. -/
def learn (now : Int) (session : Session) (record : Record) : Session where
  titles := session.titles.put record.site record.media (record.title.getD [])
  candidates :=
    if record.isFetchDue now then session.candidates
    else session.candidates.drop record.site record.media

def askStore (host : Host) (session : Session) : Session × List Event :=
  match host.store, session.candidates.digests with
  | none, _ => (session, [])
  | _, [] => (session, [])
  | some find, digests => ((find digests).foldl (learn host.now) session, [.lookup digests])

/-- Fetches the title of one candidate, if there is any and the service is free. The random numbers
are taken from `numbers`, and are zero when there are no more. -/
def askService (host : Host) (numbers : List Int) (session : Session) :
    Session × List Int × List Event :=
  let idle := (session, numbers, [])
  match host.service with
  | none => idle
  | some service =>
    if service.active ≥ fetchLimit then idle
    else
      let sites := session.candidates.sites
      match pick? sites (numbers.headD 0) with
      | none => idle
      | some site =>
        let known := session.candidates.mediaOf site
        match pick? known (numbers.tail.headD 0) with
        | none => idle
        | some media =>
          let titles := match service.fetch site media with
            | .found title => session.titles.put site media (title.getD [])
            | _ => session.titles
          ({ session with titles }, numbers.drop 2,
            [.choice sites, .choice known, .fetch site media])

end Session

structure Outcome where
  page : Text
  session : Session
  /-- The random numbers that are left. -/
  numbers : List Int
  events : List Event

/-- Gets titles for the candidates and puts every known title into the page. -/
def Session.entitle (host : Host) (numbers : List Int) (session : Session) (page : Text) :
    Outcome :=
  let (session, lookups) := session.askStore host
  let (session, numbers, fetches) := session.askService host numbers
  { page := retitle session.titles page
    session := { session with candidates := .empty }
    numbers
    events := lookups ++ fetches }

end LazyEmbed.Title
