import LazyEmbed.Proofs.Files.Tree
import Mathlib.Data.List.Nodup

/-!
# What is found again

What is in a directory is told by the entries there are, whatever they hold. So a directory in which
nothing has been written is listed as before, each of its names leads where it led, and to make it
once more changes nothing.
-/

namespace LazyEmbed.Files.Tree

variable {tree later : Tree} {path : Path} {place other : Place} {name : Text} {listed : List Text}

/-! ## Names in a directory -/

def namesAt (tree : Tree) (place : Place) : List Text :=
  tree.entries.keys.filterMap fun other => if other ≠ [] ∧ other.dropLast = place then
    other.getLast? else none

theorem nameAt_eq_some_iff :
    (if other ≠ [] ∧ other.dropLast = place then other.getLast? else none) = some name ↔
      other = place ++ [name] := by
  constructor
  · intro h
    split at h
    · rename_i hother
      rw [← hother.2, ← List.dropLast_append_getLast? name h]
      simp
    · cases h
  · rintro rfl
    simp

theorem mem_namesAt : name ∈ tree.namesAt place ↔ (tree.at? (place ++ [name])).isSome = true := by
  have hne : place ++ [name] ≠ [] := by simp
  simp only [namesAt, List.mem_filterMap, nameAt_eq_some_iff, exists_eq_right]
  rw [at?, if_neg hne, Option.isSome_iff_ne_none, ne_eq, Keyed.get?_eq_none_iff, Decidable.not_not]

theorem nodup_namesAt (tree : Tree) (place : Place) : (tree.namesAt place).Nodup := by
  refine List.Nodup.filterMap (fun first second name hfirst hsecond => ?_) tree.entries.nodup_keys
  rw [Option.mem_def, nameAt_eq_some_iff] at hfirst hsecond
  rw [hfirst, hsecond]

/-- A listing succeeds on directories only and gives the names directly below, sorted. -/
theorem list_eq_ok_iff :
    tree.list path = .ok listed ↔ ∃ place, tree.placeOf path = .ok place ∧ tree.HasDirectory place ∧
      listed = (tree.namesAt place).mergeSort := by
  unfold list HasDirectory
  rcases hplace : tree.placeOf path with fault | place
  · constructor
    · intro h
      cases h
    · rintro ⟨place, hplace, -⟩
      cases hplace
  · rcases hat : tree.at? place with _ | ⟨time⟩ | ⟨content, time⟩ <;>
      simp [bind, Except.bind, hat, pure, Except.pure, namesAt, eq_comm]

/-- What is in a directory is told in ascending order. -/
theorem list_pairwise (h : tree.list path = .ok listed) : listed.Pairwise (· ≤ ·) := by
  obtain ⟨place, -, -, rfl⟩ := list_eq_ok_iff.1 h
  exact Text.pairwise_mergeSort _

theorem at?_eq_none_of_list (hpath : tree.placeOf path = .ok place) (h : tree.list path = .ok [])
    (name : Text) : tree.at? (place ++ [name]) = none := by
  obtain ⟨found, hfound, -, hnames⟩ := list_eq_ok_iff.1 h
  obtain rfl := Except.ok.inj (hpath.symm.trans hfound)
  have hnone : tree.namesAt place = [] := by
    rw [← List.length_eq_zero_iff, ← List.length_mergeSort, ← hnames, List.length_nil]
  have hnot : ¬name ∈ tree.namesAt place := by simp [hnone]
  rwa [mem_namesAt, Option.not_isSome_iff_eq_none] at hnot

/-! ## What is below a place -/

theorem belowAt_eq_some_iff {names : Place} :
    (if place.isPrefixOf other ∧ other ≠ place then some (other.drop place.length)
      else none) = some names ↔
      names ≠ [] ∧ other = place ++ names := by
  constructor
  · intro h
    split at h
    · rename_i hother
      obtain ⟨left, rfl⟩ := List.isPrefixOf_iff_prefix.1 hother.1
      rw [List.drop_left, Option.some.injEq] at h
      subst h
      refine ⟨fun hnil => hother.2 ?_, rfl⟩
      rw [hnil, List.append_nil]
    · cases h
  · rintro ⟨hne, rfl⟩
    rw [if_pos ⟨List.isPrefixOf_iff_prefix.2 (List.prefix_append place names), by simpa using hne⟩,
      List.drop_left]

/-- What lies below a place is exactly what the tree has at longer places. -/
theorem mem_below {names : Place} :
    names ∈ tree.below place ↔ names ≠ [] ∧ (tree.at? (place ++ names)).isSome = true := by
  simp only [below, List.mem_mergeSort, List.mem_filterMap, belowAt_eq_some_iff]
  constructor
  · rintro ⟨other, hother, hne, rfl⟩
    refine ⟨hne, ?_⟩
    rwa [at?, if_neg (by simp [hne]), Option.isSome_iff_ne_none, ne_eq, Keyed.get?_eq_none_iff,
      Decidable.not_not]
  · rintro ⟨hne, hsome⟩
    refine ⟨place ++ names, ?_, hne, rfl⟩
    rwa [at?, if_neg (by simp [hne]), Option.isSome_iff_ne_none, ne_eq, Keyed.get?_eq_none_iff,
      Decidable.not_not] at hsome

theorem nodup_below (tree : Tree) (place : Place) : (tree.below place).Nodup := by
  rw [below, (List.mergeSort_perm _ _).nodup_iff]
  refine List.Nodup.filterMap (fun first second names hfirst hsecond => ?_) tree.entries.nodup_keys
  rw [Option.mem_def, belowAt_eq_some_iff] at hfirst hsecond
  rw [hfirst.2, hsecond.2]

/-- Names without slashes come back from between the slashes that they were joined by. -/
theorem joined_injective {names others : Place} (hne : names ≠ []) (hothers : others ≠ [])
    (hnames : ∀ name ∈ names, '/' ∉ name) (hslash : ∀ name ∈ others, '/' ∉ name)
    (h : Path.joined names = Path.joined others) : names = others := by
  calc names
      = (Path.joined names).splitOn '/' := (List.splitOn_intercalate '/' hnames hne).symm
    _ = (Path.joined others).splitOn '/' := by rw [h]
    _ = others := List.splitOn_intercalate '/' hslash hothers

/-! ## Trees that differ elsewhere -/

theorem follow_append (place : Place) (names others : List Text) :
    tree.follow place (names ++ others) = (tree.follow place names).bind fun reached =>
      tree.follow reached others := by
  induction names generalizing place with
  | nil => rfl
  | cons name names ih =>
    rw [List.cons_append, follow, follow]
    rcases tree.at? place with _ | ⟨time⟩ | ⟨content, time⟩
    · rfl
    · by_cases hsize : Utf8.size name ≤ maxNameSize
      · simp only [if_pos hsize, ih]
      · simp only [if_neg hsize, Except.bind]
    · rfl

theorem follow_name (h : tree.HasDirectory place) (name : Text) :
    tree.follow place [name] = if Utf8.size name ≤ maxNameSize then .ok (step place name)
      else .error .tooLong := by
  obtain ⟨time, hat⟩ := h
  rw [follow, hat]
  rfl

/-- A name in a directory leads to what is under it there. -/
theorem eq_of_placeOf_child (hpath : tree.placeOf path = .ok place) (hname : name ≠ Path.up)
    (h : tree.placeOf (path.child name) = .ok other) : other = place ++ [name] := by
  obtain ⟨-, -, hfollow⟩ := placeOf_eq_ok_iff.1 h
  obtain ⟨reached, hreached, hlast⟩ := follow_append_eq_ok_iff.1 hfollow
  obtain ⟨-, -, hstep⟩ := follow_cons_eq_ok_iff.1 hlast
  obtain rfl := Except.ok.inj ((placeOf_eq_ok_iff.1 hpath).2.2.symm.trans hreached)
  rw [step, if_neg hname] at hstep
  exact (Except.ok.inj hstep).symm

theorem hasFile_eq (tree : Tree) (path : Path) : tree.hasFile path = match tree.placeOf path with
    | .ok place => .ok ((tree.at? place).any Entry.isFile)
    | .error .tooLong => .error .tooLong
    | .error _ => .ok false := by
  unfold hasFile
  cases hplace : tree.placeOf path with
  | error fault =>
    have hentry : tree.entry path = .error fault := by
      rw [entry, hplace]
      rfl
    rw [hentry]
    cases fault <;> rfl
  | ok place =>
    rw [entry_eq_of_placeOf hplace]
    cases hat : tree.at? place <;> simp [hat]

namespace DiffersAt

variable {places : Place → Prop} (h : DiffersAt places tree later)
include h

/-- Elsewhere there are the same files and the same directories. -/
theorem map_isFile_at? (hplace : ¬places place) :
    (later.at? place).map Entry.isFile = (tree.at? place).map Entry.isFile := by
  by_cases hdirectory : tree.HasDirectory place
  · obtain ⟨first, hfirst⟩ := h.directory hdirectory
    obtain ⟨second, hsecond⟩ := hdirectory
    rw [hfirst, hsecond]
    rfl
  · rw [h.other hplace hdirectory]

theorem isSome_at? (hplace : ¬places place) :
    (later.at? place).isSome = (tree.at? place).isSome := by
  simpa using congrArg Option.isSome (h.map_isFile_at? hplace)

theorem list (hlist : tree.list path = .ok listed)
    (hplaces : ∀ place, tree.placeOf path = .ok place → ∀ name, ¬places (place ++ [name])) :
    later.list path = .ok listed := by
  obtain ⟨place, hplace, hthere, rfl⟩ := list_eq_ok_iff.1 hlist
  refine list_eq_ok_iff.2 ⟨place, h.placeOf hplace, h.directory hthere, ?_⟩
  have hperm : (tree.namesAt place).Perm (later.namesAt place) := by
    rw [List.perm_ext_iff_of_nodup (nodup_namesAt tree place) (nodup_namesAt later place)]
    intro name
    rw [mem_namesAt, mem_namesAt, h.isSome_at? (hplaces place hplace name)]
  refine (((List.mergeSort_perm _ _).trans hperm).trans
    (List.mergeSort_perm _ _).symm).eq_of_pairwise (fun _ _ _ _ => List.le_antisymm)
    (Text.pairwise_mergeSort _) (Text.pairwise_mergeSort _)

/-- The names in a directory lead where they led. -/
theorem placeOf_child (hpath : tree.placeOf path = .ok place) (hthere : tree.HasDirectory place)
    (name : Text) : later.placeOf (path.child name) = tree.placeOf (path.child name) := by
  have hfollow := (placeOf_eq_ok_iff.1 hpath).2.2
  have hlater := (placeOf_eq_ok_iff.1 (h.placeOf hpath)).2.2
  have hsame :
      later.follow (later.start path) (path.names ++ [name]) =
        tree.follow (tree.start path) (path.names ++ [name]) := by
    rw [follow_append, follow_append, hfollow, hlater]
    simp only [Except.bind]
    rw [follow_name hthere, follow_name (h.directory hthere)]
  unfold Tree.placeOf
  split
  · rfl
  · split
    · exact hsame
    · rfl

/-- A change at other places does not change whether a path is a file. -/
theorem hasFile (hpath : later.placeOf path = tree.placeOf path)
    (hplaces : ∀ place, tree.placeOf path = .ok place → ¬places place) :
    later.hasFile path = tree.hasFile path := by
  rw [hasFile_eq, hasFile_eq, hpath]
  split
  · rename_i place hplace
    have hany : (later.at? place).any Entry.isFile = (tree.at? place).any Entry.isFile := by
      simpa [Option.any_map] using congrArg (Option.any id)
        (h.map_isFile_at? (hplaces place hplace))
    rw [hany]
  · rfl
  · rfl

end DiffersAt

/-- Whether it is known if a file is at a path depends on the path alone. -/
theorem exists_hasFile (hpath : later.placeOf path = tree.placeOf path) {isFile : Bool}
    (h : tree.hasFile path = .ok isFile) : ∃ isFile, later.hasFile path = .ok isFile := by
  rw [hasFile_eq] at h ⊢
  rw [hpath]
  split at h
  · exact ⟨_, rfl⟩
  · cases h
  · exact ⟨false, rfl⟩

/-! ## Making and writing -/

/-- A directory that is there is not made. -/
theorem ensureDirectories_of_there (hpath : tree.placeOf path = .ok place)
    (h : tree.HasDirectory place) (time : Int) :
    tree.ensureDirectories path time = (tree, .ok place) := by
  obtain ⟨changed, hat⟩ := h
  have hthere : tree.ensureDirectoryAt place time = .ok tree := by
    rw [ensureDirectoryAt, hat]
  rw [ensureDirectories, maxMade, ensureDirectoriesWithin, hpath]
  simp only [hthere]

/-- A file that has been written was last changed then. -/
theorem at?_of_write {written : Tree} {content : Octets} {time : Int}
    (hpath : tree.placeOf path = .ok place) (h : tree.write path content time = .ok written) :
    written.at? place = some (.file content time) := by
  have hne : place ≠ [] := by
    rintro rfl
    rw [write, hpath] at h
    cases h
  have hput : ∀ other : Tree, other.entries = tree.entries.put place (.file content time) →
      other.at? place = some (.file content time) := by
    intro other hother
    rw [at?, if_neg hne, hother, Keyed.get?_put_self]
  rcases hat : tree.at? place with _ | ⟨changed⟩ | ⟨old, changed⟩
  · rw [write_new hpath hat] at h
    obtain rfl := Except.ok.inj h
    have hparent : place ≠ place.dropLast := by
      intro heq
      have hlength := congrArg List.length heq
      have hpositive := List.length_pos_iff.2 hne
      rw [List.length_dropLast] at hlength
      omega
    rw [add, at?_touch _ hne, hput _ rfl, Option.map_some, if_neg hparent]
  · rw [write_directory hpath hat] at h
    cases h
  · rw [write_file hpath hat] at h
    obtain rfl := Except.ok.inj h
    exact hput _ rfl

end LazyEmbed.Files.Tree
