import LazyEmbed.Proofs.Keyed
import LazyEmbed.Title.Session
import Mathlib.Tactic.Set

/-!
# What a session fetches

All that a session knows of its candidates is which pairs of a site and an item it has: recording
adds one pair, a record of the store takes away its own pair or none, and the end of a page takes
away all. So after any sequence of calls the candidates of a page are the pairs recorded since the
page before, and those left when the store has answered are the ones that none of its records speaks
against. The service is asked for one of them if there is one, and only then are there lists to
choose from.
-/

namespace LazyEmbed.Title

variable {candidates : Candidates} {session : Session} {site media other item : Text}

/-! ### Candidates -/

namespace Candidates

def Has (candidates : Candidates) (site media : Text) : Prop :=
  media ∈ (candidates.get? site).getD []

theorem has_add : (candidates.add site media).Has other item ↔
    (other = site ∧ item = media) ∨ candidates.Has other item := by
  unfold Has add
  by_cases hsite : other = site
  · subst hsite
    rw [Keyed.get?_put_self, Option.getD_some]
    split
    · next hknown =>
      constructor
      · exact .inr
      · rintro (⟨-, rfl⟩ | hitem)
        · exact hknown
        · exact hitem
    · rw [List.mem_append, List.mem_singleton, or_comm]
      simp
  · rw [Keyed.get?_put_of_ne _ _ hsite]
    simp [hsite]

theorem has_drop : (candidates.drop site media).Has other item ↔
    candidates.Has other item ∧ ¬(other = site ∧ item = media) := by
  unfold Has drop
  by_cases hsite : other = site
  · subst hsite
    cases hget : candidates.get? other with
    | none => simp [hget]
    | some known => simp
  · cases hget : candidates.get? site with
    | none => simp [hsite]
    | some known => simp [Keyed.get?_put_of_ne _ _ hsite, hsite]

theorem not_has_empty : ¬Has .empty site media := by
  simp [Has, Keyed.get?, Keyed.empty]

theorem has_iff : candidates.Has site media ↔
    ∃ known, (site, known) ∈ candidates.entries ∧ media ∈ known := by
  simp only [Has, ← Keyed.get?_eq_some_iff]
  cases candidates.get? site <;> simp

theorem mem_pairs : (site, media) ∈ candidates.pairs ↔ candidates.Has site media := by
  rw [has_iff, pairs, List.mem_flatMap]
  constructor
  · rintro ⟨⟨_, known⟩, hentry, hmem⟩
    obtain ⟨_, hmedia, heq⟩ := List.mem_map.1 hmem
    obtain ⟨rfl, rfl⟩ := Prod.mk.inj heq
    exact ⟨known, hentry, hmedia⟩
  · rintro ⟨known, hentry, hmedia⟩
    exact ⟨_, hentry, List.mem_map_of_mem hmedia⟩

theorem mem_digests {digest : Text} : digest ∈ candidates.digests ↔
    ∃ site media, candidates.Has site media ∧ itemDigest site media = digest := by
  simp only [digests, List.mem_map, Prod.exists, mem_pairs]

theorem mem_sites : site ∈ candidates.sites ↔ ∃ media, candidates.Has site media := by
  simp only [sites, List.mem_mergeSort, List.mem_map, List.mem_filter, has_iff]
  constructor
  · rintro ⟨⟨_, known⟩, ⟨hentry, hne⟩, rfl⟩
    obtain ⟨media, hmedia⟩ := List.exists_mem_of_ne_nil known (by simpa using hne)
    exact ⟨media, known, hentry, hmedia⟩
  · rintro ⟨media, known, hentry, hmedia⟩
    exact ⟨_, ⟨hentry, by simpa using List.ne_nil_of_mem hmedia⟩, rfl⟩

theorem mem_mediaOf : media ∈ candidates.mediaOf site ↔ candidates.Has site media :=
  List.mem_mergeSort

end Candidates

/-! ### The store -/

theorem Record.isFetchDue_iff {record : Record} {now : Int} :
    record.isFetchDue now = true ↔
      record.title = none ∧ record.failures < 10 ∧ record.lastFailure ≤ now - 3600 := by
  simp only [isFetchDue, Bool.and_eq_true, decide_eq_true_eq, Option.isNone_iff_eq_none, and_assoc]
  rfl

def Record.Forbids (record : Record) (now : Int) (site media : Text) : Prop :=
  record.site = site ∧ record.media = media ∧ record.isFetchDue now = false

namespace Session

theorem has_learn {now : Int} {record : Record} :
    (learn now session record).candidates.Has site media ↔
      session.candidates.Has site media ∧ ¬record.Forbids now site media := by
  unfold learn Record.Forbids
  split
  · next hdue => simp [hdue]
  · next hdue =>
    rw [Candidates.has_drop]
    simp [hdue, eq_comm]

theorem has_foldl_learn {now : Int} {records : List Record} :
    (records.foldl (learn now) session).candidates.Has site media ↔
      session.candidates.Has site media ∧ ∀ record ∈ records, ¬record.Forbids now site media := by
  induction records generalizing session with
  | nil => simp
  | cons record records ih => rw [List.foldl_cons, ih, has_learn, List.forall_mem_cons, and_assoc]

end Session

/-- The records that the store returned for the lookups among the events. -/
def Event.returned (host : Host) (events : List Event) : List Record :=
  events.flatMap fun event => match host.store, event with
    | some find, .lookup digests => find digests
    | _, _ => []

def Event.choices (events : List Event) : List (List Text) :=
  events.filterMap fun
    | .choice options => some options
    | _ => none

def Event.isFetch : Event → Bool
  | .fetch _ _ => true
  | _ => false

namespace Session

/-- The store is asked once, for all candidates, or the session stays as it is. -/
theorem askStore_cases (host : Host) (session : Session) :
    (∃ find, host.store = some find ∧ session.candidates.digests ≠ [] ∧
      session.askStore host = ((find session.candidates.digests).foldl (learn host.now) session,
        [.lookup session.candidates.digests])) ∨
    session.askStore host = (session, []) := by
  unfold askStore
  cases hstore : host.store with
  | none => exact .inr rfl
  | some find =>
    cases hdigests : session.candidates.digests with
    | nil => exact .inr rfl
    | cons digest digests => exact .inl ⟨find, rfl, List.cons_ne_nil _ _, rfl⟩

/-- What is left of the candidates are those that no returned record speaks against. -/
theorem has_askStore (host : Host) (session : Session) :
    (session.askStore host).1.candidates.Has site media ↔
      session.candidates.Has site media ∧
        ∀ record ∈ Event.returned host (session.askStore host).2,
          ¬record.Forbids host.now site media := by
  obtain ⟨find, hstore, -, heq⟩ | heq := askStore_cases host session
  · rw [heq, has_foldl_learn]
    simp [Event.returned, hstore]
  · simp [heq, Event.returned]

end Session

/-! ### The service -/

theorem exists_pick? {options : List Text} (h : options ≠ []) (number : Int) :
    ∃ option ∈ options, pick? options number = some option := by
  have hlength : 0 < options.length := List.length_pos_iff.2 h
  have hindex : (number % options.length).toNat < options.length := by
    have hpos := Int.emod_nonneg number (b := options.length) (by omega)
    have hlt := Int.emod_lt_of_pos number (b := options.length) (by omega)
    omega
  exact ⟨_, List.getElem_mem hindex, List.getElem?_eq_getElem hindex⟩

/-- The service may be asked: there is one, and fewer than two fetches are in progress. -/
def Host.IsFree (host : Host) : Prop :=
  ∃ service, host.service = some service ∧ service.active < 2

/-- The service fetches one candidate of a free host, or nothing happens. -/
theorem Session.askService_cases (host : Host) (numbers : List Int) (session : Session) :
    ((session.askService host numbers).2.2 = [] ∧
      (¬host.IsFree ∨ ∀ site media, ¬session.candidates.Has site media)) ∨
    (host.IsFree ∧ ∃ site ∈ session.candidates.sites, ∃ media ∈ session.candidates.mediaOf site,
      (session.askService host numbers).2.2 =
        [.choice session.candidates.sites, .choice (session.candidates.mediaOf site),
          .fetch site media]) := by
  have hlimit : fetchLimit = 2 := rfl
  cases hservice : host.service with
  | none => exact .inl ⟨by simp [askService, hservice], .inl (by simp [Host.IsFree, hservice])⟩
  | some service =>
    by_cases hactive : service.active ≥ fetchLimit
    · refine .inl ⟨by simp [askService, hservice, hactive], .inl ?_⟩
      simp only [Host.IsFree, hservice, Option.some.injEq, exists_eq_left']
      omega
    · have hfree : host.IsFree := ⟨service, hservice, by omega⟩
      by_cases hsites : session.candidates.sites = []
      · refine .inl ⟨by simp [askService, hservice, hactive, hsites, pick?],
          .inr fun site media hhas => ?_⟩
        have hsite := Candidates.mem_sites.2 ⟨media, hhas⟩
        simp [hsites] at hsite
      · obtain ⟨site, hsite, hpick⟩ := exists_pick? hsites (numbers.headD 0)
        obtain ⟨media, hhas⟩ := Candidates.mem_sites.1 hsite
        have hknown : session.candidates.mediaOf site ≠ [] :=
          List.ne_nil_of_mem (Candidates.mem_mediaOf.2 hhas)
        obtain ⟨media, hmedia, hpick'⟩ := exists_pick? hknown (numbers.tail.headD 0)
        refine .inr ⟨hfree, site, hsite, media, hmedia, ?_⟩
        simp only [askService, hservice, if_neg hactive, hpick, hpick']

theorem Session.lookup_not_mem_askService (host : Host) (numbers : List Int) (session : Session)
    (digests : List Text) : .lookup digests ∉ (session.askService host numbers).2.2 := by
  obtain ⟨heq, -⟩ | ⟨-, _, -, _, -, heq⟩ := askService_cases host numbers session
  · simp [heq]
  · simp [heq]

/-! ### Sequences of calls -/

/-- What a session is called for: to record a candidate, or to give a page its titles. -/
inductive Call where
  | record (site media : Text)
  | page (host : Host) (numbers : List Int) (text : Text)

namespace Call

def next (session : Session) : Call → Session
  | record site media => session.addCandidate site media
  | page host numbers text => (session.entitle host numbers text).session

def sessionAfter (calls : List Call) : Session := calls.foldl next .start

def recordedNext (pairs : List (Text × Text)) : Call → List (Text × Text)
  | record site media => pairs ++ [(site, media)]
  | page _ _ _ => []

def recorded (calls : List Call) : List (Text × Text) := calls.foldl recordedNext []

/-- The candidates a call leaves are those recorded before, less the ones it has settled. -/
theorem has_next {session : Session} {pairs : List (Text × Text)}
    (h : ∀ site media, session.candidates.Has site media ↔ (site, media) ∈ pairs) (call : Call) :
    ∀ site media, (next session call).candidates.Has site media ↔
      (site, media) ∈ recordedNext pairs call := by
  intro site media
  cases call with
  | record newSite newMedia =>
    simp only [next, Session.addCandidate, Candidates.has_add, h, recordedNext, List.mem_append,
      List.mem_singleton, Prod.mk.injEq]
    exact or_comm
  | page host numbers text => simp [next, Session.entitle, Candidates.not_has_empty, recordedNext]

/-- The candidates of a page are the pairs recorded since the page before. -/
theorem has_sessionAfter (calls : List Call) :
    (sessionAfter calls).candidates.Has site media ↔ (site, media) ∈ recorded calls := by
  suffices hfold : ∀ start pairs,
      (∀ site media, start.candidates.Has site media ↔ (site, media) ∈ pairs) →
      ∀ site media, (calls.foldl next start).candidates.Has site media ↔
        (site, media) ∈ calls.foldl recordedNext pairs from
    hfold .start [] (by simp [Session.start, Candidates.not_has_empty]) site media
  induction calls with
  | nil => exact fun _ _ h => h
  | cons call calls ih => exact fun start pairs h => ih _ _ (has_next h call)

end Call

structure IsChoice (options : List Text) (qualifies : Text → Prop) : Prop where
  ne_nil : options ≠ []
  ascending : options.Pairwise (· ≤ ·)
  mem_iff : ∀ option, option ∈ options ↔ qualifies option

def requests (calls : List Call) (host : Host) (numbers : List Int) (text : Text) : List Event :=
  ((Call.sessionAfter calls).entitle host numbers text).events

/-- The pair was recorded since the last page, and of the records returned for this one, all that
are of the pair lack a title, have failed fewer than ten times, and not in the last hour. -/
def Eligible (calls : List Call) (host : Host) (events : List Event) (site media : Text) : Prop :=
  (site, media) ∈ Call.recorded calls ∧
    ∀ record ∈ Event.returned host events, record.site = site → record.media = media →
      record.title = none ∧ record.failures < 10 ∧ record.lastFailure ≤ host.now - 3600

theorem returned_append_of_no_lookup {host : Host} {lookups others : List Event}
    (h : ∀ digests, .lookup digests ∉ others) :
    Event.returned host (lookups ++ others) = Event.returned host lookups := by
  have hothers : Event.returned host others = [] := by
    refine List.flatMap_eq_nil_iff.2 fun event hevent => ?_
    cases event with
    | lookup digests => exact absurd hevent (h digests)
    | choice options => cases host.store <;> rfl
    | fetch site media => cases host.store <;> rfl
  rw [Event.returned, List.flatMap_append, ← Event.returned, ← Event.returned, hothers,
    List.append_nil]

/-- Either the page asks the store alone, for the service is not free or no pair is eligible, or it
goes on to a choice among the eligible pairs and a fetch. -/
theorem requests_cases (calls : List Call) (host : Host) (numbers : List Int) (text : Text)
    {eligible : Text → Text → Prop}
    (heligible : Eligible calls host (requests calls host numbers text) = eligible) :
    ∃ lookups, (∀ event ∈ lookups, ∃ digests, event = .lookup digests) ∧
      ((requests calls host numbers text = lookups ∧
          (¬host.IsFree ∨ ∀ site media, ¬eligible site media)) ∨
        (host.IsFree ∧ ∃ sites known site media,
          requests calls host numbers text =
            lookups ++ [.choice sites, .choice known, .fetch site media] ∧
          IsChoice sites (fun site => ∃ media, eligible site media) ∧
          IsChoice known (eligible site) ∧ eligible site media)) := by
  set asked := (Call.sessionAfter calls).askStore host with hasked
  set fetches := (asked.1.askService host numbers).2.2 with hfetches
  have hrequests : requests calls host numbers text = asked.2 ++ fetches := rfl
  have hlookups : ∀ event ∈ asked.2, ∃ digests, event = .lookup digests := by
    obtain ⟨find, -, -, heq⟩ | heq := Session.askStore_cases host (Call.sessionAfter calls)
    · simp [hasked, heq]
    · simp [hasked, heq]
  have hhas : ∀ site media, asked.1.candidates.Has site media ↔ eligible site media := by
    intro site media
    rw [Session.has_askStore, Call.has_sessionAfter, ← heligible, Eligible, hrequests,
      returned_append_of_no_lookup (Session.lookup_not_mem_askService host numbers asked.1)]
    simp only [Record.Forbids, not_and, Bool.not_eq_false, Record.isFetchDue_iff]
    rfl
  refine ⟨asked.2, hlookups, ?_⟩
  obtain ⟨heq, hnone⟩ | ⟨hfree, site, hsite, media, hmedia, heq⟩ :=
    Session.askService_cases host numbers asked.1
  · refine .inl ⟨by rw [hrequests, hfetches, heq, List.append_nil], ?_⟩
    simpa only [hhas] using hnone
  · have hchosen := Candidates.mem_mediaOf.1 hmedia
    refine .inr ⟨hfree, _, _, site, media, by rw [hrequests, hfetches, heq], ?_, ?_,
      (hhas _ _).1 hchosen⟩
    · refine ⟨List.ne_nil_of_mem hsite, Text.pairwise_mergeSort _, fun option => ?_⟩
      simp only [Candidates.mem_sites, hhas]
    · refine ⟨List.ne_nil_of_mem hmedia, Text.pairwise_mergeSort _, fun option => ?_⟩
      rw [Candidates.mem_mediaOf, hhas]

/-- A page asks the service for at most one title, and does so exactly if the service is free and
there is an eligible pair. That pair is eligible, and it is chosen from the sites that have one and
then from the eligible items of the site; no other choice is made. -/
theorem requests_fetch (calls : List Call) (host : Host) (numbers : List Int) (text : Text) :
    let events := requests calls host numbers text
    events.countP Event.isFetch ≤ 1 ∧
    ((∃ site media, .fetch site media ∈ events) ↔
      host.IsFree ∧ ∃ site media, Eligible calls host events site media) ∧
    (∀ site media, .fetch site media ∈ events → Eligible calls host events site media ∧
      ∃ sites known, Event.choices events = [sites, known] ∧
        IsChoice sites (fun site => ∃ media, Eligible calls host events site media) ∧
        IsChoice known (Eligible calls host events site)) ∧
    ((∀ site media, .fetch site media ∉ events) → Event.choices events = []) := by
  intro events
  obtain ⟨lookups, hlookups, hcases⟩ := requests_cases calls host numbers text rfl
  have hcount : lookups.countP Event.isFetch = 0 := by
    refine List.countP_eq_zero.2 fun event hevent => ?_
    obtain ⟨digests, rfl⟩ := hlookups event hevent
    exact Bool.false_ne_true
  have hfetch : ∀ site media, .fetch site media ∉ lookups := by
    intro site media hmem
    obtain ⟨digests, heq⟩ := hlookups _ hmem
    exact Event.noConfusion heq
  have hchoices : Event.choices lookups = [] := by
    refine List.filterMap_eq_nil_iff.2 fun event hevent => ?_
    obtain ⟨digests, rfl⟩ := hlookups event hevent
    rfl
  obtain ⟨hevents, hnone⟩ | ⟨hfree, sites, known, site, media, hevents, hsites, hknown, hchosen⟩ :=
    hcases
  · have hempty : ∀ site media, .fetch site media ∉ events := by
      simpa only [events, hevents] using hfetch
    refine ⟨?_, ⟨?_, ?_⟩, fun site media hmem => absurd hmem (hempty site media), fun _ => ?_⟩
    · simp only [events, hevents, hcount, Nat.zero_le]
    · rintro ⟨site, media, hmem⟩
      exact absurd hmem (hempty site media)
    · rintro ⟨hfree, site, media, heligible⟩
      obtain hbusy | hno := hnone
      · exact absurd hfree hbusy
      · exact absurd heligible (hno site media)
    · simp only [events, hevents, hchoices]
  · have hmem : ∀ other item, .fetch other item ∈ events ↔ other = site ∧ item = media := by
      intro other item
      simp [events, hevents, hfetch]
    have hlists : Event.choices events = [sites, known] := by
      simp only [events, hevents, Event.choices, List.filterMap_append] at hchoices ⊢
      rw [hchoices]
      rfl
    refine ⟨?_, ⟨fun _ => ⟨hfree, site, media, hchosen⟩,
      fun _ => ⟨site, media, (hmem _ _).2 ⟨rfl, rfl⟩⟩⟩, fun other item hother => ?_,
      fun hno => absurd ((hmem site media).2 ⟨rfl, rfl⟩) (hno site media)⟩
    · simp [events, hevents, hcount, Event.isFetch]
    · obtain ⟨rfl, rfl⟩ := (hmem other item).1 hother
      exact ⟨hchosen, sites, known, hlists, hsites, hknown⟩

end LazyEmbed.Title
