import LazyEmbed.Proofs.Title.Fetching
import Mathlib.Data.List.Basic
import Mathlib.Data.List.Induction

/-!
# What titles a session knows

A title is known under the very site and item of the record that told it, or under those that the
service was asked for. So a page changes what is known of a pair only if its lookup returned a
record of this pair, and then the last one counts, or if it fetched this pair and got an answer,
which counts before the store's. A service that fails might as well not be there. What a session
knows after a run is what it was told last.
-/

namespace LazyEmbed.Title

variable {site media other item title : Text} {session : Session} {host : Host} {numbers : List Int}

theorem Titles.get?_put (titles : Titles) (site media title other item : Text) :
    (titles.put site media title).get? other item =
      if other = site ∧ item = media then some title else titles.get? other item := by
  unfold Titles.get? Titles.put
  by_cases hsite : other = site
  · subst hsite
    rw [Keyed.get?_put_self, Option.bind_some]
    by_cases hitem : item = media
    · subst hitem
      simp
    · rw [Keyed.get?_put_of_ne _ _ hitem, if_neg (fun h => hitem h.2)]
      cases Keyed.get? titles other with
      | none => rfl
      | some known => rfl
  · rw [Keyed.get?_put_of_ne _ _ hsite, if_neg (fun h => hsite h.1)]

def Record.isOf (site media : Text) (record : Record) : Bool :=
  record.site = site ∧ record.media = media

namespace Session

theorem get?_learn (now : Int) (session : Session) (record : Record) :
    (learn now session record).titles.get? other item =
      if record.isOf other item then some (record.title.getD [])
        else session.titles.get? other item := by
  rw [learn, Titles.get?_put]
  simp only [Record.isOf, decide_eq_true_eq, @eq_comm _ other, @eq_comm _ item]

/-- The last record of a pair counts. -/
theorem get?_foldl_learn (now : Int) (records : List Record) (session : Session) :
    (records.foldl (learn now) session).titles.get? other item =
      ((records.filter (Record.isOf other item)).getLast?.map fun record => record.title.getD []).or
        (session.titles.get? other item) := by
  induction records generalizing session with
  | nil => rfl
  | cons record records ih =>
    rw [List.foldl_cons, ih, get?_learn, List.filter_cons]
    split
    · cases hothers : records.filter (Record.isOf other item) with
      | nil => rfl
      | cons second others => simp [List.getLast?_eq_some_getLast]
    · rfl

end Session

/-! ### What a page tells -/

def Reply.title? : Reply → Option (Option Text)
  | .found title => some title
  | _ => none

namespace Event

def fetchedTitle? (host : Host) (events : List Event) (site media : Text) : Option (Option Text) :=
  if .fetch site media ∈ events then host.service.bind fun service =>
    (service.fetch site media).title?
  else none

/-- The title of the last record of the pair among those that the store returned. -/
def storedTitle? (host : Host) (events : List Event) (site media : Text) : Option (Option Text) :=
  ((returned host events).filter (Record.isOf site media)).getLast?.map Record.title

/-- The title that was told of the pair, which is empty for a pair that has none. -/
def told? (host : Host) (events : List Event) (site media : Text) : Option Text :=
  ((fetchedTitle? host events site media).or (storedTitle? host events site media)).map (·.getD [])

end Event

def Host.recordsOf (host : Host) (digests : List Text) : List Record :=
  match host.store with
  | some find => find digests
  | none => []

namespace Session

/-- A session that has candidates learns from the records that the store returns for all of them. -/
theorem askStore_eq (host : Host) (session : Session) : (session.askStore host).1 =
    if session.candidates.digests = [] then session
    else (host.recordsOf session.candidates.digests).foldl (learn host.now) session := by
  unfold askStore Host.recordsOf
  cases host.store with
  | none => exact (ite_self session).symm
  | some find =>
    cases session.candidates.digests with
    | nil => rfl
    | cons digest digests => rw [if_neg (List.cons_ne_nil digest digests)]

/-- Either the service is not asked, or it is asked for one candidate and its answer is all that
changes. -/
theorem askService_eq (host : Host) (numbers : List Int) (session : Session) :
    session.askService host numbers = (session, numbers, []) ∨
    ∃ service sites known site media, host.service = some service ∧
    session.candidates.Has site media ∧ session.askService host numbers = ({ session with
            titles := match service.fetch site media with
              | .found title => session.titles.put site media (title.getD [])
              | _ => session.titles },
          numbers.drop 2, [.choice sites, .choice known, .fetch site media]) := by
  unfold askService
  cases hservice : host.service with
  | none => exact .inl rfl
  | some service =>
    by_cases hbusy : service.active ≥ fetchLimit
    · exact .inl (by simp only [if_pos hbusy])
    simp only [if_neg hbusy]
    cases hsite : pick? session.candidates.sites (numbers.headD 0) with
    | none => exact .inl rfl
    | some site =>
      cases hmedia : pick? (session.candidates.mediaOf site) (numbers.tail.headD 0) with
      | none =>
        left
        simp only [hmedia]
      | some media =>
        have hhas := Candidates.mem_mediaOf.1 (List.mem_of_getElem? hmedia)
        exact .inr ⟨service, _, _, site, media, rfl, hhas, by simp only [hmedia]; rfl⟩

theorem get?_askStore (host : Host) (session : Session) (site media : Text) :
    (session.askStore host).1.titles.get? site media =
      ((Event.storedTitle? host (session.askStore host).2 site media).map (·.getD [])).or
        (session.titles.get? site media) := by
  obtain ⟨find, hstore, -, heq⟩ | heq := askStore_cases host session
  · rw [heq, get?_foldl_learn]
    simp [Event.storedTitle?, Event.returned, hstore, Function.comp_def]
  · simp [heq, Event.storedTitle?, Event.returned]

/-- A title fetched now goes before the one the session had. -/
theorem get?_askService (host : Host) (numbers : List Int) (session : Session) (site media : Text) :
    (session.askService host numbers).1.titles.get? site media =
      ((Event.fetchedTitle? host (session.askService host numbers).2.2 site media).map
      (·.getD [])).or (session.titles.get? site media) := by
  obtain heq | ⟨service, sites, known, other, item, hservice, -, heq⟩ :=
    askService_eq host numbers session
  · simp [heq, Event.fetchedTitle?]
  · have hmem : Event.fetch site media ∈ [.choice sites, .choice known, .fetch other item] ↔
        site = other ∧ media = item := by simp
    simp only [heq, Event.fetchedTitle?, hservice, Option.bind_some, hmem]
    by_cases hpair : site = other ∧ media = item
    · obtain ⟨rfl, rfl⟩ := hpair
      cases service.fetch site media <;> simp [Reply.title?, Titles.get?_put]
    · cases service.fetch other item <;> simp [Titles.get?_put, hpair]

/-- An answer without a title changes nothing. -/
theorem askService_of_untold {host : Host} {numbers : List Int}
    (h : ∀ site media, Event.fetchedTitle? host (session.askService host numbers).2.2 site media =
      none) : (session.askService host numbers).1 = session := by
  obtain heq | ⟨service, sites, known, site, media, hservice, -, heq⟩ :=
    askService_eq host numbers session
  · rw [heq]
  · have hnone := h site media
    rw [heq] at hnone ⊢
    simp only [Event.fetchedTitle?, List.mem_cons, or_true, true_or, if_true, hservice,
      Option.bind_some] at hnone
    cases hfetch : service.fetch site media with
    | found title => simp [hfetch, Reply.title?] at hnone
    | failed => rfl
    | nothing => rfl

theorem mem_askStore (host : Host) (session : Session) {event : Event}
    (h : event ∈ (session.askStore host).2) : ∃ digests, event = .lookup digests := by
  obtain ⟨find, -, -, heq⟩ | heq := askStore_cases host session
  · rw [heq, List.mem_singleton] at h
    exact ⟨_, h⟩
  · simp [heq] at h

theorem fetchedTitle?_entitle (host : Host) (numbers : List Int) (session : Session)
    (page site media : Text) :
    Event.fetchedTitle? host (session.entitle host numbers page).events site media =
      Event.fetchedTitle? host ((session.askStore host).1.askService host numbers).2.2
      site media := by
  have hmem : Event.fetch site media ∈ (session.entitle host numbers page).events ↔
      Event.fetch site media ∈ ((session.askStore host).1.askService host numbers).2.2 := by
    refine List.mem_append.trans (or_iff_right fun hlookup => ?_)
    obtain ⟨digests, heq⟩ := mem_askStore host session hlookup
    cases heq
  simp only [Event.fetchedTitle?, hmem]

theorem storedTitle?_entitle (host : Host) (numbers : List Int) (session : Session)
    (page site media : Text) :
    Event.storedTitle? host (session.entitle host numbers page).events site media =
      Event.storedTitle? host (session.askStore host).2 site media := by
  have hreturned : Event.returned host (session.entitle host numbers page).events =
      Event.returned host (session.askStore host).2 :=
    returned_append_of_no_lookup (lookup_not_mem_askService host numbers (session.askStore host).1)
  simp only [Event.storedTitle?, hreturned]

/-- What a page tells of a pair is known from then on, and of any other pair what was known
before. -/
theorem get?_titles_entitle (host : Host) (numbers : List Int) (session : Session)
    (page site media : Text) :
    (session.entitle host numbers page).session.titles.get? site media =
      (Event.told? host (session.entitle host numbers page).events site media).or
      (session.titles.get? site media) := by
  calc (session.entitle host numbers page).session.titles.get? site media
      = ((session.askStore host).1.askService host numbers).1.titles.get? site media := rfl
    _ = _ := by
      rw [get?_askService, get?_askStore, Event.told?, fetchedTitle?_entitle, storedTitle?_entitle]
      cases Event.fetchedTitle? host _ site media <;> simp

/-- The store is asked for all candidates at once, if there is a store and there are candidates. -/
theorem lookup_mem_askStore {host : Host} {session : Session} {digests : List Text} :
    .lookup digests ∈ (session.askStore host).2 ↔
      host.store.isSome = true ∧ session.candidates.pairs ≠ [] ∧
        digests = session.candidates.pairs.map fun pair => itemDigest pair.1 pair.2 := by
  have hdigests : session.candidates.digests =
      session.candidates.pairs.map fun pair => itemDigest pair.1 pair.2 := rfl
  unfold askStore
  cases host.store with
  | none => simp
  | some find =>
    rw [hdigests]
    cases session.candidates.pairs with
    | nil => simp
    | cons pair pairs => simp

theorem lookup_mem_entitle {host : Host} {numbers : List Int} {session : Session} {page : Text}
    {digests : List Text} :
    .lookup digests ∈ (session.entitle host numbers page).events ↔
      host.store.isSome = true ∧ session.candidates.pairs ≠ [] ∧
        digests = session.candidates.pairs.map fun pair => itemDigest pair.1 pair.2 := by
  rw [← lookup_mem_askStore]
  exact List.mem_append.trans (or_iff_left (lookup_not_mem_askService host numbers _ digests))

/-- A page that is told nothing by the service comes out as if there were none. -/
theorem entitle_of_untold {host : Host} {numbers : List Int} {page : Text}
    (h : ∀ site media,
      Event.fetchedTitle? host (session.entitle host numbers page).events site media = none) :
    (session.entitle host numbers page).session =
      (session.entitle { host with service := none } numbers page).session ∧
      (session.entitle host numbers page).page =
        (session.entitle { host with service := none } numbers page).page := by
  simp only [fetchedTitle?_entitle] at h
  have hsame := askService_of_untold h
  simp only [entitle, hsame]
  exact ⟨rfl, rfl⟩

end Session

/-- After a page the titles of the pairs that it was told of are known, what the service found
before what the store returned last; all other entries stay, no candidate is left, and a service
that finds nothing might as well not be there. A store is asked for all candidates, if there are
any. -/
theorem Session.entitle_learns (host : Host) (numbers : List Int) (session : Session)
    (page : Text) :
    let outcome := session.entitle host numbers page
    (∀ site media, outcome.session.titles.get? site media =
      (((Event.fetchedTitle? host outcome.events site media).or
        (Event.storedTitle? host outcome.events site media)).map (·.getD [])).or
          (session.titles.get? site media)) ∧
    outcome.session.candidates = .empty ∧
    ((∀ site media, Event.fetchedTitle? host outcome.events site media = none) →
      let alone := session.entitle { host with service := none } numbers page
      outcome.session = alone.session ∧ outcome.page = alone.page) ∧
    ∀ digests, .lookup digests ∈ outcome.events ↔
      host.store.isSome = true ∧ session.candidates.pairs ≠ [] ∧
        digests = session.candidates.pairs.map fun pair => itemDigest pair.1 pair.2 :=
  ⟨get?_titles_entitle host numbers session page, rfl, entitle_of_untold,
    fun _ => lookup_mem_entitle⟩

/-- The service is asked, and fails. -/
theorem Session.entitle_learns_failed :
    let host : Host := ⟨none, some ⟨0, fun _ _ => .failed⟩, 0⟩
    let outcome := (start.addCandidate "s" "m").entitle host [] "page"
    let alone := (start.addCandidate "s" "m").entitle { host with service := none } [] "page"
    Event.fetch "s" "m" ∈ outcome.events ∧ outcome.session = alone.session ∧
      outcome.page = alone.page := by
  intro host outcome alone
  refine ⟨by decide +kernel, (entitle_learns host [] _ "page").2.2.1 fun site media => ?_⟩
  unfold Event.fetchedTitle?
  split
  · rfl
  · rfl

/-! ### What a run tells -/

namespace Call

/-- What a call tells of a pair when it comes after the others. -/
def told? (earlier : List Call) (site media : Text) : Call → Option Text
  | record _ _ => none
  | page host numbers text => Event.told? host (requests earlier host numbers text) site media

theorem sessionAfter_concat (calls : List Call) (call : Call) :
    sessionAfter (calls ++ [call]) = next (sessionAfter calls) call := by
  rw [sessionAfter, List.foldl_append, ← sessionAfter, List.foldl_cons, List.foldl_nil]

theorem get?_next (calls : List Call) (call : Call) (site media : Text) :
    (next (sessionAfter calls) call).titles.get? site media =
      (call.told? calls site media).or ((sessionAfter calls).titles.get? site media) := by
  cases call with
  | record newSite newMedia => rfl
  | page host numbers text => exact Session.get?_titles_entitle host numbers _ text site media

/-- Some call tells the title of the pair, and no call after it tells any. -/
def Latest (calls : List Call) (site media title : Text) : Prop :=
  ∃ earlier call later, calls = earlier ++ call :: later ∧
    call.told? earlier site media = some title ∧ ∀ between other rest,
    later = between ++ other :: rest → other.told? (earlier ++ call :: between) site media = none

/-- The latest title is what the last call tells, or what was the latest one before it if that call
tells nothing. -/
theorem latest_concat_iff {calls : List Call} {call : Call} :
    Latest (calls ++ [call]) site media title ↔
      call.told? calls site media = some title ∨
        call.told? calls site media = none ∧ Latest calls site media title := by
  constructor
  · rintro ⟨earlier, other, later, heq, htold, hlater⟩
    obtain rfl | ⟨between, last, rfl⟩ := List.eq_nil_or_concat' later
    · obtain ⟨rfl, rfl⟩ := List.append_singleton_inj.1 heq
      exact .inl htold
    · rw [← List.cons_append, ← List.append_assoc] at heq
      obtain ⟨rfl, rfl⟩ := List.append_singleton_inj.1 heq
      exact .inr ⟨hlater between call [] rfl, earlier, other, between, rfl, htold,
        fun first next rest hrest => hlater first next (rest ++ [call]) (by simp [hrest])⟩
  · rintro (htold | ⟨hnone, earlier, other, later, rfl, htold, hlater⟩)
    · exact ⟨calls, call, [], rfl, htold, by simp⟩
    refine ⟨earlier, other, later ++ [call], by simp, htold, fun between next rest heq => ?_⟩
    obtain rfl | ⟨behind, last, rfl⟩ := List.eq_nil_or_concat' rest
    · obtain ⟨rfl, rfl⟩ := List.append_singleton_inj.1 heq
      exact hnone
    · rw [← List.cons_append, ← List.append_assoc] at heq
      obtain ⟨rfl, -⟩ := List.append_singleton_inj.1 heq
      exact hlater between next behind rfl

/-- What a session knows after a run is what it was told last. -/
theorem get?_sessionAfter_eq_some_iff (calls : List Call) :
    (sessionAfter calls).titles.get? site media = some title ↔ Latest calls site media title := by
  induction calls using List.reverseRecOn with
  | nil =>
    have hnone : (sessionAfter []).titles.get? site media = none := rfl
    simp [hnone, Latest]
  | append_singleton calls call ih =>
    rw [sessionAfter_concat, get?_next, Option.or_eq_some_iff, ih, latest_concat_iff]

end Call

/-! ### A page with one candidate -/

/-- The store, or else the service, tells the title of the pair: the one record that is returned of
it has the title, or there is none and the service has time to fetch the title. -/
def Host.Tells (host : Host) (site media title : Text) : Prop :=
  (∃ record, (host.recordsOf [itemDigest site media]).filter (Record.isOf site media) = [record] ∧
    record.title = some title) ∨
  ((host.recordsOf [itemDigest site media]).filter (Record.isOf site media) = [] ∧
    ∃ service, host.service = some service ∧ service.active < fetchLimit ∧
      service.fetch site media = .found (some title))

namespace Session

def titlesWith (host : Host) (numbers : List Int) (session : Session) : Titles :=
  ((session.askStore host).1.askService host numbers).1.titles

def ofPair (site media : Text) : Session := start.addCandidate site media

theorem has_ofPair :
    (ofPair site media).candidates.Has other item ↔ other = site ∧ item = media := by
  rw [ofPair, addCandidate, Candidates.has_add, start]
  simp only [Candidates.not_has_empty, or_false]

theorem askStore_ofPair (host : Host) (site media : Text) :
    ((ofPair site media).askStore host).1 =
      (host.recordsOf [itemDigest site media]).foldl (learn host.now) (ofPair site media) := by
  have hdigests : (ofPair site media).candidates.digests = [itemDigest site media] := rfl
  rw [askStore_eq, hdigests, if_neg (List.cons_ne_nil _ _)]

theorem askService_of_no_candidate (h : ∀ site media, ¬session.candidates.Has site media) :
    (session.askService host numbers).1 = session := by
  obtain heq | ⟨-, -, -, site, media, -, hhas, -⟩ := askService_eq host numbers session
  · rw [heq]
  · exact absurd hhas (h site media)

/-- Whatever the random numbers are, the only candidate is chosen. -/
theorem askService_of_one_candidate {service : Service}
    (h : ∀ other item, session.candidates.Has other item ↔ other = site ∧ item = media)
    (hservice : host.service = some service) (hactive : service.active < fetchLimit)
    (hfetch : service.fetch site media = .found (some title)) :
    (session.askService host numbers).1.titles = session.titles.put site media title := by
  have hhas : session.candidates.Has site media := (h site media).2 ⟨rfl, rfl⟩
  have hsites : session.candidates.sites ≠ [] :=
    List.ne_nil_of_mem (Candidates.mem_sites.2 ⟨media, hhas⟩)
  obtain ⟨chosen, hchosen, hpick⟩ := exists_pick? hsites (numbers.headD 0)
  obtain ⟨other, hother⟩ := Candidates.mem_sites.1 hchosen
  obtain rfl := ((h chosen other).1 hother).1
  have hknown : session.candidates.mediaOf chosen ≠ [] :=
    List.ne_nil_of_mem (Candidates.mem_mediaOf.2 hhas)
  obtain ⟨item, hitem, hpick'⟩ := exists_pick? hknown (numbers.tail.headD 0)
  obtain rfl := ((h chosen item).1 (Candidates.mem_mediaOf.1 hitem)).2
  have hbusy : ¬service.active ≥ fetchLimit := by omega
  simp only [askService, hservice, if_neg hbusy, hpick, hpick', hfetch, Option.getD_some]

/-- The title is known under the pair itself; under any other pair only what the store has added is
known. -/
theorem get?_titlesWith_ofPair (h : host.Tells site media title) (other item : Text) :
    ((ofPair site media).titlesWith host numbers).get? other item =
      if other = site ∧ item = media then some title
      else ((host.recordsOf [itemDigest site media]).filter (Record.isOf other item)).getLast?.map
        fun record => record.title.getD [] := by
  have hempty : ∀ other item, (ofPair site media).titles.get? other item = none := fun _ _ => rfl
  rw [titlesWith, askStore_ofPair]
  rcases h with ⟨record, hrecord, htitle⟩ | ⟨hnone, service, hservice, hactive, hfetch⟩
  · have hmem : record ∈ host.recordsOf [itemDigest site media] ∧ record.isOf site media = true :=
      List.mem_filter.1 (hrecord ▸ List.mem_singleton_self record)
    have hforbids : record.Forbids host.now site media := by
      have hpair := hmem.2
      simp only [Record.isOf, decide_eq_true_eq] at hpair
      exact ⟨hpair.1, hpair.2, by simp [Record.isFetchDue, htitle]⟩
    have hgone : ∀ other item, ¬((host.recordsOf [itemDigest site media]).foldl (learn host.now)
        (ofPair site media)).candidates.Has other item := by
      intro other item hhas
      obtain ⟨hpair, hall⟩ := has_foldl_learn.1 hhas
      obtain ⟨rfl, rfl⟩ := has_ofPair.1 hpair
      exact hall record hmem.1 hforbids
    rw [askService_of_no_candidate hgone, get?_foldl_learn, hempty, Option.or_none]
    split
    · next hpair =>
      obtain ⟨rfl, rfl⟩ := hpair
      simp [hrecord, htitle]
    · rfl
  · have hstill : ∀ other item, ((host.recordsOf [itemDigest site media]).foldl (learn host.now)
        (ofPair site media)).candidates.Has other item ↔ other = site ∧ item = media := by
      intro other item
      rw [has_foldl_learn, has_ofPair, and_iff_left_iff_imp]
      rintro ⟨rfl, rfl⟩ record hmem ⟨hsite, hmedia, -⟩
      have hfound :
          record ∈ (host.recordsOf [itemDigest other item]).filter (Record.isOf other item) :=
        List.mem_filter.2 ⟨hmem, by simp [Record.isOf, hsite, hmedia]⟩
      rw [hnone] at hfound
      exact List.not_mem_nil hfound
    rw [askService_of_one_candidate hstill hservice hactive hfetch, Titles.get?_put,
      get?_foldl_learn, hempty, Option.or_none]

end Session

end LazyEmbed.Title
