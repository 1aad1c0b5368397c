/-!
Entries under distinct keys, in the order in which the keys first came. Writing under a key that is
there already leaves the entry in its place. The keys are distinct by construction, so an entry is
the same as a key and its value.
-/

namespace LazyEmbed

structure Keyed (κ α : Type) where
  entries : List (κ × α)
  keys_nodup : (entries.map Prod.fst).Nodup

namespace Keyed

variable {κ α : Type}

def keys (map : Keyed κ α) : List κ := map.entries.map Prod.fst

theorem nodup_keys (map : Keyed κ α) : map.keys.Nodup := map.keys_nodup

def empty : Keyed κ α := ⟨[], by simp⟩

instance : Inhabited (Keyed κ α) := ⟨empty⟩

def keep (map : Keyed κ α) (test : κ → Bool) : Keyed κ α where
  entries := map.entries.filter fun entry => test entry.1
  keys_nodup := map.keys_nodup.sublist ((List.filter_sublist (l := map.entries)).map Prod.fst)

theorem keys_keep (map : Keyed κ α) (test : κ → Bool) :
    (map.keep test).keys = map.keys.filter test := by
  simp [keep, keys, List.filter_map, Function.comp_def]

variable [DecidableEq κ]

def get? (map : Keyed κ α) (key : κ) : Option α := map.entries.lookup key

def contains (map : Keyed κ α) (key : κ) : Bool := map.entries.any (·.1 == key)

theorem contains_eq_true_iff {map : Keyed κ α} {key : κ} :
    map.contains key = true ↔ key ∈ map.keys := by
  simp [contains, keys]

def update (map : Keyed κ α) (key : κ) (change : α → α) : Keyed κ α where
  entries := map.entries.map fun entry =>
    (entry.1, if entry.1 = key then change entry.2 else entry.2)
  keys_nodup := by
    rw [List.map_map]
    exact map.keys_nodup

/-- Writes a value under a key: in its place if the key is there, and else at the end. -/
def put (map : Keyed κ α) (key : κ) (value : α) : Keyed κ α :=
  if h : map.contains key = true then map.update key fun _ => value
  else
    { entries := map.entries ++ [(key, value)]
      keys_nodup := by
        rw [contains_eq_true_iff] at h
        rw [List.map_append, List.nodup_append]
        refine ⟨map.keys_nodup, by simp, ?_⟩
        rintro a ha b hb rfl
        simp only [List.map_cons, List.map_nil, List.mem_singleton] at hb
        exact h (hb ▸ ha) }

def erase (map : Keyed κ α) (key : κ) : Keyed κ α := map.keep (· ≠ key)

def ofPairs (pairs : List (κ × α)) : Keyed κ α :=
  pairs.foldl (fun map (key, value) => map.put key value) empty

theorem keys_update (map : Keyed κ α) (key : κ) (change : α → α) :
    (map.update key change).keys = map.keys := by
  simp [update, keys]

theorem keys_put_of_mem {map : Keyed κ α} {key : κ} (value : α) (h : key ∈ map.keys) :
    (map.put key value).keys = map.keys := by
  rw [put, dif_pos (contains_eq_true_iff.2 h), keys_update]

theorem keys_put_of_not_mem {map : Keyed κ α} {key : κ} (value : α) (h : key ∉ map.keys) :
    (map.put key value).keys = map.keys ++ [key] := by
  rw [put, dif_neg (mt contains_eq_true_iff.1 h)]
  simp [keys]

theorem keys_erase (map : Keyed κ α) (key : κ) :
    (map.erase key).keys = map.keys.filter (· ≠ key) := keys_keep map _

theorem get?_eq_none_iff {map : Keyed κ α} {key : κ} : map.get? key = none ↔ key ∉ map.keys := by
  simp only [get?, keys, List.lookup_eq_none_iff, List.mem_map, Prod.exists, exists_and_right,
    exists_eq_right, not_exists, Prod.forall, bne_iff_ne, ne_eq]
  constructor
  · intro h value hmem
    exact absurd rfl (h key value hmem)
  · rintro h other value hmem rfl
    exact h value hmem

theorem get?_update (map : Keyed κ α) (key other : κ) (change : α → α) :
    (map.update key change).get? other =
      (map.get? other).map fun value => if other = key then change value else value := by
  have hmap : ∀ entries : List (κ × α),
      (entries.map fun entry =>
        (entry.1, if entry.1 = key then change entry.2 else entry.2)).lookup other =
        (entries.lookup other).map fun value => if other = key then change value else value := by
    intro entries
    induction entries with
    | nil => rfl
    | cons entry entries ih =>
      obtain ⟨first, value⟩ := entry
      by_cases heq : other = first
      · simp [heq]
      · have hbeq : (other == first) = false := by simpa using heq
        simpa [List.lookup_cons, hbeq] using ih
  exact hmap map.entries

@[simp]
theorem get?_put_self (map : Keyed κ α) (key : κ) (value : α) :
    (map.put key value).get? key = some value := by
  by_cases h : key ∈ map.keys
  · rw [put, dif_pos (contains_eq_true_iff.2 h), get?_update]
    cases hget : map.get? key with
    | none => exact absurd h (get?_eq_none_iff.1 hget)
    | some _ => simp
  · rw [put, dif_neg (mt contains_eq_true_iff.1 h)]
    have hnone : map.entries.lookup key = none := get?_eq_none_iff.2 h
    simp [get?, List.lookup_append, hnone]

theorem get?_put_of_ne (map : Keyed κ α) {key other : κ} (value : α) (h : other ≠ key) :
    (map.put key value).get? other = map.get? other := by
  have hbeq : (other == key) = false := by simpa using h
  unfold put
  split
  · simp [get?_update, h]
  · simp [get?, List.lookup_append, List.lookup_cons, hbeq]

end Keyed

end LazyEmbed
