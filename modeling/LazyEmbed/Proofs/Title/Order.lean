import LazyEmbed.Proofs.Title.Known
import LazyEmbed.Title.Table
import Mathlib.Tactic.Tauto

/-!
# The order of candidates does not matter

Candidates are kept in the order in which they were recorded, and records take some of them away in
between. But a store that looks up a set of digests does not see the order, and what is chosen from
is sorted. So two sessions whose candidates differ in order alone stay so while records come in, and
ask the service alike.
-/

namespace LazyEmbed.Title

namespace Candidates

variable {candidates first second : Candidates} {site media other : Text}

def itemsOf (candidates : Candidates) (site : Text) : List Text := (candidates.get? site).getD []

theorem itemsOf_add : (candidates.add site media).itemsOf other =
    if other = site ∧ media ∉ candidates.itemsOf site then candidates.itemsOf other ++ [media]
    else candidates.itemsOf other := by
  unfold itemsOf add
  by_cases hsite : other = site
  · subst hsite
    rw [Keyed.get?_put_self, Option.getD_some]
    by_cases hknown : media ∈ (candidates.get? other).getD []
    · rw [if_pos hknown, if_neg (by simp [hknown])]
    · rw [if_neg hknown, if_pos ⟨rfl, hknown⟩]
  · rw [Keyed.get?_put_of_ne _ _ hsite, if_neg (by simp [hsite])]

theorem itemsOf_drop : (candidates.drop site media).itemsOf other =
    if other = site then (candidates.itemsOf other).filter (· ≠ media)
      else candidates.itemsOf other := by
  unfold itemsOf drop
  by_cases hsite : other = site
  · subst hsite
    cases hget : candidates.get? other with
    | none => simp [hget]
    | some known => simp
  · cases hget : candidates.get? site with
    | none => rw [if_neg hsite]
    | some known => rw [Keyed.get?_put_of_ne _ _ hsite, if_neg hsite]

/-! ### Candidates in another order -/

def Same (first second : Candidates) : Prop :=
  ∀ site, (first.itemsOf site).Perm (second.itemsOf site)

namespace Same

variable (h : first.Same second)
include h

theorem has_iff : first.Has site media ↔ second.Has site media := (h site).mem_iff

theorem drop (site media : Text) : (first.drop site media).Same (second.drop site media) := by
  intro other
  rw [itemsOf_drop, itemsOf_drop]
  split
  · exact (h other).filter _
  · exact h other

theorem mem_digests_iff (digest : Text) : digest ∈ first.digests ↔ digest ∈ second.digests := by
  simp only [mem_digests, h.has_iff]

theorem sites_eq : first.sites = second.sites := by
  have hnodup : ∀ candidates : Candidates, candidates.sites.Nodup := by
    intro candidates
    apply (List.mergeSort_perm _ _).nodup_iff.2
    exact candidates.keys_nodup.sublist (List.filter_sublist.map Prod.fst)
  have hperm : first.sites.Perm second.sites := by
    apply (List.perm_ext_iff_of_nodup (hnodup first) (hnodup second)).2
    intro site
    simp only [mem_sites, h.has_iff]
  exact hperm.eq_of_pairwise (fun _ _ _ _ => List.le_antisymm) (Text.pairwise_mergeSort _)
    (Text.pairwise_mergeSort _)

theorem mediaOf_eq (site : Text) : first.mediaOf site = second.mediaOf site := by
  have hperm : (first.mediaOf site).Perm (second.mediaOf site) :=
    (List.mergeSort_perm _ _).trans ((h site).trans (List.mergeSort_perm _ _).symm)
  exact hperm.eq_of_pairwise (fun _ _ _ _ => List.le_antisymm) (Text.pairwise_mergeSort _)
    (Text.pairwise_mergeSort _)

end Same

/-! ### Recording -/

def addAll (candidates : Candidates) (pairs : List (Text × Text)) : Candidates :=
  pairs.foldl (fun candidates (site, media) => candidates.add site media) candidates

/-- Behind the items that a site has already come the new ones, each once. -/
theorem exists_itemsOf_addAll (candidates : Candidates) (pairs : List (Text × Text)) (site : Text) :
    ∃ fresh, (candidates.addAll pairs).itemsOf site = candidates.itemsOf site ++ fresh ∧
      fresh.Nodup ∧ ∀ media, media ∈ fresh ↔ (site, media) ∈ pairs ∧
      media ∉ candidates.itemsOf site := by
  induction pairs generalizing candidates with
  | nil => exact ⟨[], by simp [addAll], List.nodup_nil, by simp⟩
  | cons pair pairs ih =>
    obtain ⟨fresh, hitems, hnodup, hmem⟩ := ih (candidates.add pair.1 pair.2)
    rw [itemsOf_add] at hitems hmem
    by_cases hnew : site = pair.1 ∧ pair.2 ∉ candidates.itemsOf pair.1
    · rw [if_pos hnew] at hitems hmem
      obtain ⟨rfl, hnew⟩ := hnew
      refine ⟨pair.2 :: fresh, ?_, ?_, fun media => ?_⟩
      · rw [addAll, List.foldl_cons, ← addAll, hitems, List.append_assoc, List.singleton_append]
      · refine List.nodup_cons.2 ⟨fun hfresh => ?_, hnodup⟩
        exact ((hmem pair.2).1 hfresh).2 (List.mem_append_right _ (List.mem_singleton_self _))
      · simp only [List.mem_cons, hmem, List.mem_append, List.not_mem_nil, or_false,
          not_or, Prod.ext_iff]
        by_cases hmedia : media = pair.2
        · simp [hmedia, hnew]
        · simp [hmedia]
    · rw [if_neg hnew] at hitems hmem
      refine ⟨fresh, ?_, hnodup, fun media => ?_⟩
      · rw [addAll, List.foldl_cons, ← addAll, hitems]
      · rw [hmem, List.mem_cons, and_congr_left_iff]
        intro hmedia
        refine (or_iff_right ?_).symm
        rintro rfl
        exact hnew ⟨rfl, hmedia⟩

/-- All that counts of the pairs recorded is which they are. -/
theorem same_addAll {pairs others : List (Text × Text)} (h : ∀ pair, pair ∈ pairs ↔ pair ∈ others)
    (candidates : Candidates) : (candidates.addAll pairs).Same (candidates.addAll others) := by
  intro site
  obtain ⟨fresh, hitems, hnodup, hmem⟩ := exists_itemsOf_addAll candidates pairs site
  obtain ⟨new, hothers, hnewNodup, hnew⟩ := exists_itemsOf_addAll candidates others site
  rw [hitems, hothers]
  apply List.Perm.append_left
  apply (List.perm_ext_iff_of_nodup hnodup hnewNodup).2
  intro media
  rw [hmem, hnew, h]

end Candidates

/-! ### Sessions that differ in the order of their candidates -/

/-- The store answers alike to digests that are the same as a set. -/
def Host.LooksUpSets (host : Host) : Prop :=
  ∀ find, host.store = some find → ∀ digests others : List Text,
    (∀ digest, digest ∈ digests ↔ digest ∈ others) → find digests = find others

namespace Session

/-- The same titles are known, and the candidates are the same in any order. -/
structure Alike (first second : Session) : Prop where
  candidates : first.candidates.Same second.candidates
  titles : first.titles = second.titles

variable {first second : Session} {host : Host}

theorem Alike.learn (h : first.Alike second) (now : Int) (record : Record) :
    (learn now first record).Alike (learn now second record) where
  candidates := by
    unfold Session.learn
    split
    · exact h.candidates
    · exact h.candidates.drop record.site record.media
  titles := by
    unfold Session.learn
    rw [h.titles]

theorem Alike.foldl_learn (h : first.Alike second) (now : Int) (records : List Record) :
    (records.foldl (Session.learn now) first).Alike (records.foldl (Session.learn now) second) := by
  induction records generalizing first second with
  | nil => exact h
  | cons record records ih => exact ih (h.learn now record)

/-- The store makes no difference between the two. -/
theorem Alike.askStore (h : first.Alike second) (hstore : host.LooksUpSets) :
    (first.askStore host).1.Alike (second.askStore host).1 := by
  have hdigests := h.candidates.mem_digests_iff
  have hnil : first.candidates.digests = [] ↔ second.candidates.digests = [] := by
    simp only [List.eq_nil_iff_forall_not_mem, hdigests]
  have hrecords :
      host.recordsOf first.candidates.digests = host.recordsOf second.candidates.digests := by
    unfold Host.recordsOf
    cases hfind : host.store with
    | none => rfl
    | some find => exact hstore find hfind _ _ hdigests
  rw [askStore_eq, askStore_eq, hrecords]
  by_cases hnone : first.candidates.digests = []
  · rw [if_pos hnone, if_pos (hnil.1 hnone)]
    exact h
  · rw [if_neg hnone, if_neg (mt hnil.2 hnone)]
    exact h.foldl_learn host.now _

/-- The service is asked for the same, and what it answers is kept alike. -/
theorem Alike.askService (h : first.Alike second) (host : Host) (numbers : List Int) :
    (first.askService host numbers).1.titles = (second.askService host numbers).1.titles ∧
      (first.askService host numbers).2 = (second.askService host numbers).2 := by
  unfold Session.askService
  rw [h.titles, h.candidates.sites_eq]
  simp only [h.candidates.mediaOf_eq]
  cases host.service with
  | none => exact ⟨h.titles, rfl⟩
  | some service =>
    by_cases hbusy : service.active ≥ fetchLimit
    · simp only [if_pos hbusy]
      exact ⟨h.titles, trivial⟩
    · simp only [if_neg hbusy]
      cases pick? second.candidates.sites (numbers.headD 0) with
      | none => exact ⟨h.titles, rfl⟩
      | some site =>
        cases hmedia : pick? (second.candidates.mediaOf site) (numbers.tail.headD 0) with
        | none =>
          simp only [hmedia]
          exact ⟨h.titles, trivial⟩
        | some media =>
          simp only [hmedia]
          trivial

/-- The choices of a call are those of its fetch. -/
theorem choices_entitle (host : Host) (numbers : List Int) (session : Session) (page : Text) :
    Event.choices (session.entitle host numbers page).events =
      Event.choices ((session.askStore host).1.askService host numbers).2.2 := by
  have hlookups : Event.choices (session.askStore host).2 = [] := by
    apply List.filterMap_eq_nil_iff.2
    intro event hevent
    obtain ⟨digests, rfl⟩ := mem_askStore host session hevent
    rfl
  calc Event.choices (session.entitle host numbers page).events
      = Event.choices (session.askStore host).2 ++
          Event.choices ((session.askStore host).1.askService host numbers).2.2 :=
            List.filterMap_append
    _ = _ := by rw [hlookups, List.nil_append]

/-- The fetches of a call are those of the service, asked behind the store. -/
theorem fetches_entitle (host : Host) (numbers : List Int) (session : Session) (page : Text) :
    (session.entitle host numbers page).events.filter Event.isFetch =
      ((session.askStore host).1.askService host numbers).2.2.filter Event.isFetch := by
  have hlookups : (session.askStore host).2.filter Event.isFetch = [] := by
    apply List.filter_eq_nil_iff.2
    intro event hevent
    obtain ⟨digests, rfl⟩ := mem_askStore host session hevent
    exact Bool.false_ne_true
  calc (session.entitle host numbers page).events.filter Event.isFetch
      = (session.askStore host).2.filter Event.isFetch ++
          ((session.askStore host).1.askService host numbers).2.2.filter Event.isFetch :=
            List.filter_append _ _
    _ = _ := by rw [hlookups, List.nil_append]

def recordAll (session : Session) (pairs : List (Text × Text)) : Session :=
  pairs.foldl (fun session (site, media) => session.addCandidate site media) session

theorem recordAll_eq (session : Session) (pairs : List (Text × Text)) :
    session.recordAll pairs = { session with candidates := session.candidates.addAll pairs } := by
  induction pairs generalizing session with
  | nil => rfl
  | cons pair pairs ih => exact ih (session.addCandidate pair.1 pair.2)

theorem alike_recordAll {pairs others : List (Text × Text)}
    (h : ∀ pair, pair ∈ pairs ↔ pair ∈ others) (session : Session) :
    (session.recordAll pairs).Alike (session.recordAll others) := by
  rw [recordAll_eq, recordAll_eq]
  exact ⟨Candidates.same_addAll h session.candidates, rfl⟩

/-- If the same pairs are recorded, a page comes out the same, with the same choices and the same
fetch, and the session knows the same titles. -/
theorem entitle_recordAll {pairs others : List (Text × Text)}
    (hpairs : ∀ pair, pair ∈ pairs ↔ pair ∈ others)
    (hstore : host.LooksUpSets) (session : Session) (numbers : List Int) (page : Text) :
    let outcome := (session.recordAll pairs).entitle host numbers page
    let other := (session.recordAll others).entitle host numbers page
    outcome.page = other.page ∧ Event.choices outcome.events = Event.choices other.events ∧
      outcome.events.filter Event.isFetch = other.events.filter Event.isFetch ∧
      outcome.session = other.session ∧ outcome.numbers = other.numbers := by
  intro outcome other
  have hasked := ((alike_recordAll hpairs session).askStore hstore).askService host numbers
  obtain ⟨htitles, hrest⟩ := hasked
  refine ⟨?_, ?_, ?_, ?_, congrArg Prod.fst hrest⟩
  · exact congrArg (retitle · page) htitles
  · rw [choices_entitle, choices_entitle, hrest]
  · rw [fetches_entitle, fetches_entitle, hrest]
  · exact congrArg (Session.mk .empty) htitles

/-- The store has a table, and three pairs are recorded in two orders, one of them twice. -/
theorem entitle_recordAll_table :
    let find := fun digests => recordsByDigest [⟨"b", "x", none, 12, 0⟩] digests
    let host : Host := ⟨some find, some ⟨0, fun _ _ => .found (some "title")⟩, 0⟩
    let outcome := (start.recordAll [("x", "a"), ("x", "b"), ("y", "c")]).entitle host [1, 0] "page"
    let other :=
      (start.recordAll [("y", "c"), ("x", "b"), ("x", "a"), ("x", "b")]).entitle host [1, 0] "page"
    outcome.page = other.page ∧ Event.choices outcome.events = Event.choices other.events ∧
      outcome.events.filter Event.isFetch = other.events.filter Event.isFetch ∧
      outcome.session = other.session ∧ outcome.numbers = other.numbers := by
  intro find host outcome other
  have hstore : host.LooksUpSets := by
    intro _ heq digests others hsame
    obtain rfl := Option.some.inj heq
    apply List.filter_congr
    intro record _
    rw [Bool.eq_iff_iff, List.contains_iff_mem, List.contains_iff_mem]
    exact hsame _
  have hpairs : ∀ pair : Text × Text, pair ∈ [(("x" : Text), ("a" : Text)), ("x", "b"),
      ("y", "c")] ↔ pair ∈ [(("y" : Text), ("c" : Text)), ("x", "b"), ("x", "a"), ("x", "b")] := by
    have hsame : ∀ first second third pair : Text × Text,
        pair ∈ [first, second, third] ↔ pair ∈ [third, second, first, second] := by
      intro first second third pair
      simp only [List.mem_cons, List.not_mem_nil, or_false]
      tauto
    exact hsame _ _ _
  exact entitle_recordAll hpairs hstore start [1, 0] "page"

end Session

end LazyEmbed.Title
