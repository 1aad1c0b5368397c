import LazyEmbed.Keyed
import Mathlib.Data.List.Induction

/-!
# Keys in the order of their first writing

Keys are distinct, so a map is its keys in their order and what is found under each. Of pairs that
are written one after the other a key keeps the place where it first came and has the value that
came last. What is done under one key leaves the entries under all others as they are, in their
order.
-/

namespace LazyEmbed

section

variable {α : Type} [BEq α] [LawfulBEq α]

theorem eraseDups_concat (items : List α) (item : α) :
    (items ++ [item]).eraseDups = if item ∈ items then items.eraseDups
      else items.eraseDups ++ [item] := by
  rw [List.eraseDups_append]
  split
  · next hmem => simp [List.removeAll, hmem]
  · next hmem => simp [List.removeAll, hmem, List.eraseDups_cons]

theorem nodup_eraseDups (items : List α) : items.eraseDups.Nodup := by
  induction items using List.reverseRecOn with
  | nil => exact List.nodup_nil
  | append_singleton items item ih =>
    rw [eraseDups_concat]
    split
    · exact ih
    · next hnew =>
      refine List.nodup_append.2 ⟨ih, by simp, fun first hfirst second hsecond heq => hnew ?_⟩
      rw [← List.mem_singleton.1 hsecond, ← heq]
      exact List.mem_eraseDups.1 hfirst

end

namespace Keyed

variable {κ α : Type} {map second : Keyed κ α}

theorem ext_entries (h : map.entries = second.entries) : map = second := by
  cases map
  cases second
  obtain rfl := h
  rfl

variable [DecidableEq κ] {key other : κ} {value : α}

/-- A lookup finds exactly what the entries hold, since no key is there twice. -/
theorem get?_eq_some_iff : map.get? key = some value ↔ (key, value) ∈ map.entries := by
  have hlookup : ∀ entries : List (κ × α), (entries.map Prod.fst).Nodup →
      (entries.lookup key = some value ↔ (key, value) ∈ entries) := by
    intro entries hnodup
    induction entries with
    | nil => simp
    | cons entry entries ih =>
      obtain ⟨first, found⟩ := entry
      rw [List.map_cons, List.nodup_cons] at hnodup
      obtain ⟨hnew, hothers⟩ := hnodup
      by_cases heq : key = first
      · subst heq
        have hnot : (key, value) ∉ entries := fun hmem => hnew (List.mem_map.2 ⟨_, hmem, rfl⟩)
        simp [hnot, eq_comm]
      · have hbeq : (key == first) = false := by simpa using heq
        simp [List.lookup_cons, hbeq, ih hothers, heq]
  exact hlookup map.entries map.keys_nodup

/-- The entries are the keys, each with the value under it. -/
theorem entries_eq_map (map : Keyed κ α) (default : α) :
    map.entries = map.keys.map fun key => (key, (map.get? key).getD default) := by
  rw [keys, List.map_map]
  have hsame : ∀ entry ∈ map.entries,
      ((fun key => (key, (map.get? key).getD default)) ∘ Prod.fst) entry = id entry := by
    rintro ⟨key, value⟩ hentry
    simp [get?_eq_some_iff.2 hentry]
  rw [List.map_congr_left hsame, List.map_id]

theorem contains_eq_isSome (map : Keyed κ α) (key : κ) :
    map.contains key = (map.get? key).isSome := by
  rw [Bool.eq_iff_iff, contains_eq_true_iff, ← Option.ne_none_iff_isSome, ne_eq,
    get?_eq_none_iff, not_not]

/-! ### One key written or dropped -/

theorem mem_keys_put : other ∈ (map.put key value).keys ↔ other = key ∨ other ∈ map.keys := by
  by_cases h : key ∈ map.keys
  · rw [keys_put_of_mem value h]
    exact ⟨.inr, fun hor => hor.elim (fun heq => heq ▸ h) id⟩
  · rw [keys_put_of_not_mem value h, List.mem_append, List.mem_singleton, or_comm]

/-- Writing what is there already changes nothing. -/
theorem put_eq_self (h : map.get? key = some value) : map.put key value = map := by
  have hmem : key ∈ map.keys := by
    by_contra hnot
    rw [get?_eq_none_iff.2 hnot] at h
    cases h
  apply ext_entries
  rw [put, dif_pos (contains_eq_true_iff.2 hmem), update]
  have hsame : ∀ entry ∈ map.entries,
      (entry.1, if entry.1 = key then value else entry.2) = id entry := by
    rintro ⟨other, found⟩ hentry
    by_cases heq : other = key
    · subst heq
      rw [get?_eq_some_iff.2 hentry, Option.some_inj] at h
      simp [h]
    · simp [heq]
  exact (List.map_congr_left hsame).trans (List.map_id _)

/-- A value put under a key that is filtered out leaves what is kept as it was. -/
theorem keep_put {test : κ → Bool} (h : test key = false) (map : Keyed κ α) (value : α) :
    (map.put key value).keep test = map.keep test := by
  apply ext_entries
  unfold put keep
  split
  · have hsame : ∀ entry ∈ map.entries.filter fun entry => test entry.1,
        (entry.1, if entry.1 = key then value else entry.2) = id entry := by
      intro entry hentry
      have hne : entry.1 ≠ key := by
        rintro rfl
        exact Bool.noConfusion (h.symm.trans (List.mem_filter.1 hentry).2)
      rw [if_neg hne]
      rfl
    simp only [update, List.filter_map, Function.comp_def]
    exact (List.map_congr_left hsame).trans (List.map_id _)
  · simp [List.filter_append, h]

theorem keep_erase {test : κ → Bool} (h : test key = false) (map : Keyed κ α) :
    (map.erase key).keep test = map.keep test := by
  apply ext_entries
  simp only [erase, keep, List.filter_filter]
  refine List.filter_congr fun entry _ => ?_
  by_cases heq : entry.1 = key
  · simp [heq, h]
  · simp [heq]

theorem mem_keys_of_mem_keys_erase (h : other ∈ (map.erase key).keys) : other ∈ map.keys := by
  rw [keys_erase] at h
  exact (List.mem_filter.1 h).1

theorem get?_erase_of_ne (h : other ≠ key) : (map.erase key).get? other = map.get? other := by
  have hfilter : ∀ entries : List (κ × α),
      (entries.filter fun entry => entry.1 ≠ key).lookup other = entries.lookup other := by
    intro entries
    induction entries with
    | nil => rfl
    | cons entry entries ih =>
      obtain ⟨first, found⟩ := entry
      rw [List.filter_cons]
      split
      · rw [List.lookup_cons, List.lookup_cons, ih]
      · next hkey =>
        have hfirst : first = key := by simpa using hkey
        have hbeq : (other == first) = false := by simpa [hfirst] using h
        rw [ih, List.lookup_cons, hbeq]
  exact hfilter map.entries

@[simp]
theorem get?_erase_self (map : Keyed κ α) (key : κ) : (map.erase key).get? key = none := by
  simp [get?_eq_none_iff, keys_erase]

/-! ### Pairs written one after the other -/

theorem ofPairs_concat (pairs : List (κ × α)) (pair : κ × α) :
    ofPairs (pairs ++ [pair]) = (ofPairs pairs).put pair.1 pair.2 := by
  rw [ofPairs, List.foldl_append]
  rfl

/-- A key has its place where it first comes. -/
theorem keys_ofPairs [BEq κ] [LawfulBEq κ] (pairs : List (κ × α)) :
    (ofPairs pairs).keys = (pairs.map Prod.fst).eraseDups := by
  induction pairs using List.reverseRecOn with
  | nil => rfl
  | append_singleton pairs pair ih =>
    rw [ofPairs_concat, List.map_append, List.map_cons, List.map_nil, eraseDups_concat]
    split
    · next hmem =>
      rw [keys_put_of_mem _ (by rwa [ih, List.mem_eraseDups]), ih]
    · next hnew =>
      rw [keys_put_of_not_mem _ (by rwa [ih, List.mem_eraseDups]), ih]

/-- Of several pairs with one key the last counts. -/
theorem get?_ofPairs (pairs : List (κ × α)) (key : κ) :
    (ofPairs pairs).get? key = (pairs.filter fun pair => pair.1 = key).getLast?.map Prod.snd := by
  induction pairs using List.reverseRecOn with
  | nil => rfl
  | append_singleton pairs pair ih =>
    rw [ofPairs_concat, List.filter_append]
    by_cases hkey : pair.1 = key
    · subst hkey
      simp
    · rw [get?_put_of_ne _ _ (Ne.symm hkey), ih]
      simp [hkey]

theorem forall_keys_ofPairs {holds : κ → Prop} {pairs : List (κ × α)}
    (h : ∀ pair ∈ pairs, holds pair.1) : ∀ name ∈ (ofPairs pairs).keys, holds name := by
  intro name hname
  rw [keys_ofPairs, List.mem_eraseDups] at hname
  obtain ⟨pair, hpair, rfl⟩ := List.mem_map.1 hname
  exact h pair hpair

end Keyed

end LazyEmbed
