import LazyEmbed.Proofs.Page.Repeated
import LazyEmbed.Proofs.Title.Order
import Mathlib.Data.List.Nodup

/-!
# What the store is asked for

The items of a page are recorded frame by frame, each under its site. So the sites come in the order
of their first items, and the items of a site in the order of their first frames; an item that is
there already is not recorded again. All of them are looked up with one request, and without any the
store is not asked.
-/

namespace LazyEmbed

namespace Title

def Event.lookups (events : List Event) : List (List Text) :=
  events.filterMap fun
    | .lookup digests => some digests
    | _ => none

/-- The pairs without repetitions, site by site: the sites in the order in which they first come,
and so are the items of each. -/
def bySite (pairs : List (Text × Text)) : List (Text × Text) :=
  (pairs.map Prod.fst).eraseDups.flatMap fun site =>
    ((pairs.filter fun pair => pair.1 = site).map Prod.snd).eraseDups.map fun media => (site, media)

variable {pairs : List (Text × Text)}

theorem mem_bySite {pair : Text × Text} : pair ∈ bySite pairs ↔ pair ∈ pairs := by
  simp only [bySite, List.mem_flatMap, List.mem_map, List.mem_eraseDups, List.mem_filter,
    decide_eq_true_eq]
  constructor
  · rintro ⟨_, -, _, ⟨other, ⟨hother, rfl⟩, rfl⟩, rfl⟩
    exact hother
  · intro hpair
    exact ⟨pair.1, ⟨pair, hpair, rfl⟩, pair.2, ⟨pair, ⟨hpair, rfl⟩, rfl⟩, rfl⟩

/-- The pairs in the order of the query are distinct. -/
theorem nodup_bySite (pairs : List (Text × Text)) : (bySite pairs).Nodup := by
  rw [bySite, List.nodup_flatMap]
  constructor
  · intro site _
    exact (nodup_eraseDups _).map fun _ _ heq => (Prod.mk.inj heq).2
  · refine (nodup_eraseDups _).imp fun {first second} hne => ?_
    apply List.disjoint_iff_ne.2
    rintro _ hfirst _ hsecond rfl
    obtain ⟨media, -, rfl⟩ := List.mem_map.1 hfirst
    obtain ⟨other, -, heq⟩ := List.mem_map.1 hsecond
    exact hne (Prod.mk.inj heq).1.symm

/-! ### Recording -/

namespace Candidates

theorem addAll_concat (candidates : Candidates) (pairs : List (Text × Text)) (pair : Text × Text) :
    candidates.addAll (pairs ++ [pair]) = (candidates.addAll pairs).add pair.1 pair.2 := by
  rw [addAll, List.foldl_append]
  rfl

theorem keys_addAll (pairs : List (Text × Text)) :
    (addAll .empty pairs).keys = (pairs.map Prod.fst).eraseDups := by
  induction pairs using List.reverseRecOn with
  | nil => rfl
  | append_singleton pairs pair ih =>
    rw [addAll_concat, add, List.map_append, List.map_cons, List.map_nil, eraseDups_concat]
    by_cases hknown : pair.1 ∈ pairs.map Prod.fst
    · rw [if_pos hknown, Keyed.keys_put_of_mem _ (by rwa [ih, List.mem_eraseDups]), ih]
    · rw [if_neg hknown, Keyed.keys_put_of_not_mem _ (by rwa [ih, List.mem_eraseDups]), ih]

/-- The items of a site are those recorded with it, each at its first occurrence. -/
theorem itemsOf_addAll (pairs : List (Text × Text)) (site : Text) :
    (addAll .empty pairs).itemsOf site =
      ((pairs.filter fun pair => pair.1 = site).map Prod.snd).eraseDups := by
  induction pairs using List.reverseRecOn with
  | nil => rfl
  | append_singleton pairs pair ih =>
    rw [addAll_concat, itemsOf_add, List.filter_append]
    by_cases hsite : site = pair.1
    · subst hsite
      rw [List.filter_cons_of_pos (by simp), List.filter_nil, List.map_append, List.map_cons,
        List.map_nil, eraseDups_concat, ih]
      by_cases hknown : pair.2 ∈ (pairs.filter fun other => other.1 = pair.1).map Prod.snd
      · rw [if_pos hknown, if_neg fun hnew => hnew.2 (List.mem_eraseDups.2 hknown)]
      · rw [if_neg hknown, if_pos ⟨rfl, fun hmem => hknown (List.mem_eraseDups.1 hmem)⟩]
    · rw [if_neg (by simp [hsite]), List.filter_cons_of_neg (by simpa using Ne.symm hsite),
        List.filter_nil, List.append_nil, ih]

/-- Recording puts the pairs in order site by site. -/
theorem pairs_addAll (pairs : List (Text × Text)) : (addAll .empty pairs).pairs = bySite pairs := by
  rw [Candidates.pairs, Keyed.entries_eq_map _ [], List.flatMap_map, keys_addAll, bySite]
  refine List.flatMap_congr fun site _ => ?_
  rw [← itemsOf_addAll]
  rfl

end Candidates

example : bySite [("x", "a"), ("y", "c"), ("x", "b"), ("y", "c")] =
    ([("x", "a"), ("x", "b"), ("y", "c")] : List (Text × Text)) := by decide

theorem Session.lookups_askService (host : Host) (numbers : List Int) (session : Session) :
    Event.lookups (session.askService host numbers).2.2 = [] := by
  apply List.filterMap_eq_nil_iff.2
  intro event hevent
  cases event with
  | lookup digests => exact absurd hevent (lookup_not_mem_askService host numbers session digests)
  | choice options => rfl
  | fetch site media => rfl

/-- A page is one request to the store, if there are candidates. -/
theorem Session.lookups_entitle (find : List Text → List Record)
    (service : Option Service) (now : Int)
    (numbers : List Int) (session : Session) (page : Text) :
    Event.lookups (session.entitle ⟨some find, service, now⟩ numbers page).events =
      if session.candidates.digests = [] then [] else [session.candidates.digests] := by
  have hasked : Event.lookups (session.askStore ⟨some find, service, now⟩).2 =
      if session.candidates.digests = [] then [] else [session.candidates.digests] := by
    unfold askStore
    cases session.candidates.digests with
    | nil => rfl
    | cons digest digests => rfl
  calc Event.lookups (session.entitle ⟨some find, service, now⟩ numbers page).events
      = Event.lookups (session.askStore ⟨some find, service, now⟩).2 ++ Event.lookups
          ((session.askStore ⟨some find, service, now⟩).1.askService
            ⟨some find, service, now⟩ numbers).2.2 :=
        List.filterMap_append
    _ = _ := by rw [hasked, lookups_askService, List.append_nil]

end Title

namespace Page

open Title

/-- The frames of a page are those that placeholders are written for, one for each in its place. -/
theorem exists_cuts_frames (page : Text) :
    ∃ (cuts : List (Text × Frame)) (last : Text), cuts.map Prod.snd = frames page ∧
      page = (cuts.flatMap fun cut => cut.1 ++ (cut.2.wrapper ++ cut.2.element)) ++ last ∧
      replaceFrames page =
        (cuts.flatMap fun cut => cut.1 ++ (cut.2.wrapper ++ Placeholder.ofFrame cut.2.element)) ++
          last := by
  have hsource : ∀ text (frame : Frame) rest,
      Frame.pattern.reader.run text = some (frame, rest) →
        text = frame.wrapper ++ frame.element ++ rest := by
    intro text frame rest hrun
    rw [text_of_reads (run_eq_some_iff.1 hrun), List.append_assoc]
  obtain ⟨cuts, last, hframes, hpage, hreplace⟩ := Frame.pattern.exists_cuts hsource page
  exact ⟨cuts, last, hframes, hpage, hreplace replaceFrame⟩

def itemOf? (frame : Frame) : Option (Text × Text) := do
  let site ← (Attributes.ofElement frame.element).get? ClickToLoad.siteName
  let media ← (Attributes.ofElement frame.element).get? ClickToLoad.mediaName
  pure (site, media)

def items (page : Text) : List (Text × Text) := (frames page).filterMap itemOf?

theorem mediaOf?_element (frame : Frame) : Placeholder.mediaOf? frame.element = itemOf? frame := by
  unfold Placeholder.mediaOf? itemOf?
  simp only
  rw [Placeholder.get?_attributesOf_itemName _ (by simp),
    Placeholder.get?_attributesOf_itemName _ (by simp)]
  cases (Attributes.ofElement frame.element).get? ClickToLoad.siteName with
  | none => rfl
  | some site => cases (Attributes.ofElement frame.element).get? ClickToLoad.mediaName <;> rfl

/-- The session of a page is the start with the items of the page recorded in their order. -/
theorem sessionOf_eq (page : Text) : sessionOf page = Session.start.recordAll (items page) := by
  have hframe : ∀ session frame, recordFrame session frame.element =
      ((itemOf? frame).map fun pair => session.addCandidate pair.1 pair.2).getD session := by
    intro session frame
    rw [recordFrame, mediaOf?_element]
    cases itemOf? frame <;> rfl
  have hframes : ∀ (frames : List Frame) (session : Session),
      frames.foldl (fun session frame => recordFrame session frame.element) session =
        session.recordAll (frames.filterMap itemOf?) := by
    intro frames
    induction frames with
    | nil => exact fun session => rfl
    | cons frame frames ih =>
      intro session
      rw [List.foldl_cons, ih, hframe, List.filterMap_cons]
      cases itemOf? frame <;> rfl
  exact hframes (frames page) .start

theorem digests_sessionOf (page : Text) :
    (sessionOf page).candidates.digests = (bySite (items page)).map fun pair =>
      itemDigest pair.1 pair.2 := by
  rw [sessionOf_eq, Session.recordAll_eq, Candidates.digests, ← Candidates.pairs_addAll]
  rfl

/-- The store is asked once for all items of a page, each once, and for nothing else; without items
it is not asked. -/
theorem lookups_deferWith (find : List Text → List Record) (service : Option Service) (now : Int)
    (numbers : List Int) (page : Text) :
    Event.lookups (deferWith ⟨some find, service, now⟩ numbers page).events =
        (if items page = [] then [] else [(bySite (items page)).map fun pair =>
          itemDigest pair.1 pair.2]) ∧
      (bySite (items page)).Nodup ∧ ∀ pair, pair ∈ bySite (items page) ↔ pair ∈ items page := by
  refine ⟨?_, nodup_bySite _, fun pair => mem_bySite⟩
  by_cases hmarker : Text.contains marker page = true
  · have hevents : (deferWith ⟨some find, service, now⟩ numbers page).events =
        ((sessionOf page).entitle ⟨some find, service,
        now⟩ numbers (replaceFrames page)).events := by
      rw [deferWith, if_pos hmarker]
      cases (frames page).isEmpty <;> rfl
    have hnil : (sessionOf page).candidates.digests = [] ↔ items page = [] := by
      rw [digests_sessionOf, List.map_eq_nil_iff]
      simp only [List.eq_nil_iff_forall_not_mem, mem_bySite]
    rw [hevents, Session.lookups_entitle]
    by_cases hitems : items page = []
    · rw [if_pos hitems, if_pos (hnil.2 hitems)]
    · rw [if_neg hitems, if_neg (mt hnil.1 hitems), digests_sessionOf]
  · have hitems : items page = [] := by
      rw [items, frames_eq_nil_of_unmarked (mt Text.contains_iff.2 hmarker)]
      rfl
    rw [deferWith, if_neg hmarker, if_pos hitems]
    rfl

end Page

end LazyEmbed
