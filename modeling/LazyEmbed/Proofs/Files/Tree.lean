import LazyEmbed.Files.TextFile

/-!
# Where paths lead, and what stays where it is

A path is followed through directories only. So it leads to the same place in any tree that still
has these directories: what is written elsewhere does not matter to it. `DiffersAt` is what one
writing after the other leaves as it was, and `content?_ensureDirectories` says that making
directories changes no file.
-/

namespace LazyEmbed.Files.Tree

variable {tree later latest : Tree} {path : Path} {place other : Place} {name : Text}

def HasDirectory (tree : Tree) (place : Place) : Prop :=
  ∃ time, tree.at? place = some (.directory time)

theorem content?_eq_none_of_hasDirectory (h : tree.HasDirectory place) :
    tree.content? place = none := by
  obtain ⟨time, hat⟩ := h
  rw [content?, hat]
  rfl

/-! ## Following names -/

theorem follow_cons_eq_ok_iff {names : List Text} :
    tree.follow place (name :: names) = .ok other ↔
      tree.HasDirectory place ∧ Utf8.size name ≤ maxNameSize ∧
      tree.follow (step place name) names = .ok other := by
  rw [follow, HasDirectory]
  rcases tree.at? place with _ | ⟨time⟩ | ⟨content, time⟩
  · simp
  · by_cases hsize : Utf8.size name ≤ maxNameSize <;> simp [hsize]
  · simp

theorem follow_append_eq_ok_iff {names others : List Text} :
    tree.follow place (names ++ others) = .ok other ↔
      ∃ reached, tree.follow place names = .ok reached ∧
      tree.follow reached others = .ok other := by
  induction names generalizing place with
  | nil => simp [follow]
  | cons name names ih =>
    simp only [List.cons_append, follow_cons_eq_ok_iff, ih]
    constructor
    · rintro ⟨hplace, hsize, reached, hnames, hothers⟩
      exact ⟨reached, ⟨hplace, hsize, hnames⟩, hothers⟩
    · rintro ⟨reached, ⟨hplace, hsize, hnames⟩, hothers⟩
      exact ⟨hplace, hsize, reached, hnames, hothers⟩

theorem follow_mono (hdirectory : ∀ {other}, tree.HasDirectory other → later.HasDirectory other)
    {names : List Text} (h : tree.follow place names = .ok other) :
    later.follow place names = .ok other := by
  induction names generalizing place with
  | nil => exact h
  | cons name names ih =>
    rw [follow_cons_eq_ok_iff] at h ⊢
    exact ⟨hdirectory h.1, h.2.1, ih h.2.2⟩

/-! ## The places of paths -/

theorem placeOf_eq_ok_iff :
    tree.placeOf path = .ok place ↔
      path.hasNull = false ∧ Utf8.size path.toText ≤ maxPathSize ∧
        tree.follow (tree.start path) path.names = .ok place := by
  unfold placeOf
  cases path.hasNull
  · by_cases hsize : Utf8.size path.toText ≤ maxPathSize <;> simp [hsize]
  · simp

theorem placeOf_mono (hworking : later.working = tree.working)
    (hdirectory : ∀ {other}, tree.HasDirectory other → later.HasDirectory other)
    (h : tree.placeOf path = .ok place) : later.placeOf path = .ok place := by
  rw [placeOf_eq_ok_iff] at h ⊢
  refine ⟨h.1, h.2.1, ?_⟩
  rw [start, hworking]
  exact follow_mono hdirectory h.2.2

theorem hasNull_child : (path.child name).hasNull = (path.hasNull || decide ('\x00' ∈ name)) := by
  simp [Path.hasNull, Path.child]

def Fits (path : Path) : Prop :=
  Utf8.size path.name ≤ maxNameSize ∧ Utf8.size path.toText ≤ maxPathSize

/-- The place of something in a directory. -/
theorem placeOf_child (hpath : tree.placeOf path = .ok place) (hplace : tree.HasDirectory place)
    (hnull : '\x00' ∉ name) (hname : name ≠ Path.up) (hfits : Fits (path.child name)) :
    tree.placeOf (path.child name) = .ok (place ++ [name]) := by
  rw [placeOf_eq_ok_iff] at hpath ⊢
  have hsize : Utf8.size name ≤ maxNameSize := by simpa [Path.name, Path.child] using hfits.1
  refine ⟨by simp [hasNull_child, hpath.1, hnull], hfits.2, ?_⟩
  refine follow_append_eq_ok_iff.2 ⟨place, hpath.2.2, ?_⟩
  refine follow_cons_eq_ok_iff.2 ⟨hplace, hsize, ?_⟩
  rw [step, if_neg hname]
  rfl

/-- What a path in a directory leads to lies under its name. -/
theorem getLast?_of_placeOf_child (h : tree.placeOf (path.child name) = .ok place)
    (hname : name ≠ Path.up) : place.getLast? = some name ∧ '\x00' ∉ name := by
  obtain ⟨hnull, -, hfollow⟩ := placeOf_eq_ok_iff.1 h
  obtain ⟨reached, -, hlast⟩ := follow_append_eq_ok_iff.1 hfollow
  obtain ⟨-, -, hstep⟩ := follow_cons_eq_ok_iff.1 hlast
  rw [step, if_neg hname, follow, Except.ok.injEq] at hstep
  rw [hasNull_child, Bool.or_eq_false_iff, decide_eq_false_iff_not] at hnull
  exact ⟨by rw [← hstep, List.getLast?_concat], hnull.2⟩

theorem entry_eq_of_placeOf (h : tree.placeOf path = .ok place) :
    tree.entry path = match tree.at? place with
      | some entry => .ok entry
      | none => .error .missing := by
  rw [entry, h]
  rfl

theorem placeOf_of_hasFile (h : tree.hasFile path = .ok true) :
    ∃ place content time, tree.placeOf path = .ok place ∧
      tree.at? place = some (.file content time) := by
  unfold hasFile at h
  cases hplace : tree.placeOf path with
  | error fault =>
    have hentry : tree.entry path = .error fault := by
      rw [entry, hplace]
      rfl
    rw [hentry] at h
    cases fault <;> cases h
  | ok place =>
    rw [entry_eq_of_placeOf hplace] at h
    cases hat : tree.at? place with
    | none =>
      rw [hat] at h
      cases h
    | some entry =>
      rw [hat] at h
      cases entry with
      | directory time => cases h
      | file content time => exact ⟨place, content, time, rfl, hat⟩

/-! ## Trees that differ in few files -/

/-- The later tree has other files at most at some places; when a directory was changed is left
open. -/
structure DiffersAt (places : Place → Prop) (tree later : Tree) : Prop where
  working : later.working = tree.working
  directory : ∀ {place}, tree.HasDirectory place → later.HasDirectory place
  other : ∀ {place}, ¬places place → ¬tree.HasDirectory place → later.at? place = tree.at? place

namespace DiffersAt

variable {places others : Place → Prop}

theorem refl (tree : Tree) : DiffersAt places tree tree := ⟨rfl, id, fun _ _ => rfl⟩

theorem mono (h : DiffersAt places tree later) (hplaces : ∀ place, places place → others place) :
    DiffersAt others tree later :=
  ⟨h.working, h.directory, fun hplace => h.other (mt (hplaces _) hplace)⟩

theorem hasDirectory_iff (h : DiffersAt places tree later) (hplace : ¬places place) :
    later.HasDirectory place ↔ tree.HasDirectory place := by
  refine ⟨fun hlater => ?_, h.directory⟩
  by_cases hsame : tree.HasDirectory place
  · exact hsame
  · rwa [HasDirectory, ← h.other hplace hsame]

theorem trans (h : DiffersAt places tree later) (hnext : DiffersAt places later latest) :
    DiffersAt places tree latest where
  working := hnext.working.trans h.working
  directory := hnext.directory ∘ h.directory
  other := by
    intro place hplace hnone
    rw [hnext.other hplace (mt (h.hasDirectory_iff hplace).1 hnone), h.other hplace hnone]

theorem placeOf (h : DiffersAt places tree later) (hpath : tree.placeOf path = .ok place) :
    later.placeOf path = .ok place :=
  placeOf_mono h.working h.directory hpath

theorem content? (h : DiffersAt places tree later) (hplace : ¬places place) :
    later.content? place = tree.content? place := by
  by_cases hdirectory : tree.HasDirectory place
  · rw [content?_eq_none_of_hasDirectory hdirectory,
      content?_eq_none_of_hasDirectory (h.directory hdirectory)]
  · rw [Tree.content?, h.other hplace hdirectory, Tree.content?]

/-- A path that leads elsewhere, and to no directory, leads to the same as before. -/
theorem entry (h : DiffersAt places tree later) (hpath : tree.placeOf path = .ok place)
    (hplace : ¬places place) (hnone : ¬tree.HasDirectory place) :
    later.entry path = tree.entry path := by
  rw [entry_eq_of_placeOf hpath, entry_eq_of_placeOf (h.placeOf hpath), h.other hplace hnone]

end DiffersAt

theorem at?_put_of_ne {entry : Entry} (h : other ≠ place) :
    ({ tree with entries := tree.entries.put place entry } : Tree).at? other = tree.at? other := by
  unfold at?
  rw [Keyed.get?_put_of_ne _ _ h]

theorem at?_touch (time : Int) (hother : other ≠ []) :
    (tree.touch place time).at? other =
      (tree.at? other).map fun entry => if other = place then entry.withChanged time
        else entry := by
  simp only [at?, if_neg hother, touch, Keyed.get?_update]

theorem hasDirectory_touch {time : Int} (h : tree.HasDirectory other) :
    (tree.touch place time).HasDirectory other := by
  by_cases hother : other = []
  · exact ⟨0, by rw [at?, if_pos hother]⟩
  · obtain ⟨changed, hat⟩ := h
    rw [HasDirectory, at?_touch time hother, hat, Option.map_some]
    split
    · exact ⟨time, rfl⟩
    · exact ⟨changed, rfl⟩

theorem hasDirectory_add {entry : Entry} (hnone : tree.at? place = none)
    (h : tree.HasDirectory other) : (tree.add place entry).HasDirectory other := by
  have hother : other ≠ place := by
    rintro rfl
    obtain ⟨time, hat⟩ := h
    rw [hnone] at hat
    cases hat
  refine hasDirectory_touch ?_
  rwa [HasDirectory, at?_put_of_ne hother]

/-- A new entry in a directory leaves all others; only the time of the directory is another. -/
theorem differsAt_add {entry : Entry} (hnone : tree.at? place = none)
    (hparent : tree.HasDirectory place.dropLast) :
    DiffersAt (· = place) tree (tree.add place entry) where
  working := rfl
  directory := hasDirectory_add hnone
  other := by
    intro other hother hplain
    have hparents : other ≠ place.dropLast := by
      rintro rfl
      exact hplain hparent
    have htop : other ≠ [] := by
      rintro rfl
      exact hplain ⟨0, rfl⟩
    rw [add, at?_touch _ htop, at?_put_of_ne hother]
    simp [hparents]

/-- A new entry in place of a file leaves all others. -/
theorem differsAt_put {entry : Entry} (hplain : ¬tree.HasDirectory place) :
    DiffersAt (· = place) tree { tree with entries := tree.entries.put place entry } where
  working := rfl
  directory := by
    intro other h
    have hother : other ≠ place := by
      rintro rfl
      exact hplain h
    rwa [HasDirectory, at?_put_of_ne hother]
  other := by
    intro other hother _
    exact at?_put_of_ne hother

theorem write_new (hpath : tree.placeOf path = .ok place) (hat : tree.at? place = none)
    (content : Octets) (time : Int) :
    tree.write path content time = .ok (tree.add place (.file content time)) := by
  simp only [write, hpath, hat, bind, Except.bind, pure, Except.pure]

theorem write_file {old : Octets} {changed : Int} (hpath : tree.placeOf path = .ok place)
    (hat : tree.at? place = some (.file old changed)) (content : Octets) (time : Int) :
    tree.write path content time =
      .ok { tree with entries := tree.entries.put place (.file content time) } := by
  simp only [write, hpath, hat, bind, Except.bind, pure, Except.pure]

theorem write_directory {changed : Int} (hpath : tree.placeOf path = .ok place)
    (hat : tree.at? place = some (.directory changed)) (content : Octets) (time : Int) :
    tree.write path content time = .error .isDirectory := by
  rw [write, hpath]
  simp only [hat, bind, Except.bind]
  rfl

/-- Writing a file in a directory changes that file alone. -/
theorem write_in_directory (content : Octets) (time : Int)
    (hpath : tree.placeOf path = .ok (place ++ [name])) (hplace : tree.HasDirectory place)
    (hplain : ¬tree.HasDirectory (place ++ [name])) :
    ∃ written, tree.write path content time = .ok written ∧
      DiffersAt (· = place ++ [name]) tree written ∧
      written.content? (place ++ [name]) = some content := by
  have hne : place ++ [name] ≠ [] := by simp
  rcases hat : tree.at? (place ++ [name]) with _ | ⟨changed⟩ | ⟨old, changed⟩
  · refine ⟨_, write_new hpath hat content time,
      differsAt_add hat (by rwa [List.dropLast_concat]), ?_⟩
    rw [content?_add _ _ _ _ hne, if_pos rfl]
    rfl
  · exact absurd ⟨changed, hat⟩ hplain
  · refine ⟨_, write_file hpath hat content time, differsAt_put hplain, ?_⟩
    rw [content?_put _ _ _ _ hne, if_pos rfl]
    rfl

/-! ## Making directories -/

/-- The later tree has all the directories, and no file has another content. -/
structure Extends (tree later : Tree) : Prop where
  working : later.working = tree.working
  directory : ∀ {place}, tree.HasDirectory place → later.HasDirectory place
  content? : ∀ place, later.content? place = tree.content? place

namespace Extends

theorem refl (tree : Tree) : Extends tree tree := ⟨rfl, id, fun _ => rfl⟩

theorem trans (h : Extends tree later) (hnext : Extends later latest) : Extends tree latest where
  working := hnext.working.trans h.working
  directory := hnext.directory ∘ h.directory
  content? place := (hnext.content? place).trans (h.content? place)

end Extends

theorem hasDirectory_add_self {time : Int} (hplace : place ≠ []) :
    (tree.add place (.directory time)).HasDirectory place := by
  refine hasDirectory_touch ⟨time, ?_⟩
  rw [at?, if_neg hplace, Keyed.get?_put_self]

/-- A directory that was made is there, and nothing the tree had is lost. -/
theorem ensureDirectoryAt_ok {time : Int} (h : tree.ensureDirectoryAt place time = .ok later) :
    Extends tree later ∧ later.HasDirectory place := by
  unfold ensureDirectoryAt at h
  split at h
  case h_1 hnone =>
    cases h
    have hplace : place ≠ [] := by
      rintro rfl
      cases hnone
    refine ⟨⟨rfl, hasDirectory_add hnone, fun other => ?_⟩, hasDirectory_add_self hplace⟩
    rw [content?_add _ _ _ _ hplace]
    split
    · rename_i heq
      rw [heq, Tree.content?, hnone]
      rfl
    · rfl
  case h_2 changed hat =>
    cases h
    exact ⟨.refl tree, changed, hat⟩
  case h_3 => cases h

theorem not_tooLong_of_missing (h : tree.placeOf path = .error .missing) :
    path.hasNull = false ∧ Utf8.size path.toText ≤ maxPathSize := by
  unfold placeOf at h
  split at h
  · cases h
  · split at h
    · rename_i hnull hsize
      exact ⟨by simpa using hnull, hsize⟩
    · cases h

/-- The last directory is made where its path leads, once the others are there. -/
theorem ensureDirectoriesWithin_succ {time : Int} {most : Nat}
    (h : tree.ensureDirectoriesWithin path time (most + 1) = (later, .ok place)) :
    ∃ between : Tree, between.ensureDirectoryAt place time = .ok later ∧
      (between = tree ∧ tree.placeOf path = .ok place ∨
        tree.placeOf path = .error .missing ∧ path.names ≠ [] ∧ ∃ parent,
          tree.ensureDirectoriesWithin path.parent time most = (between, .ok parent) ∧
            between.follow parent [path.name] = .ok place) := by
  unfold ensureDirectoriesWithin at h
  extract_lets reached at h
  rcases hreached : reached with ⟨between, fault | found⟩
  · rw [hreached] at h
    cases h
  rw [hreached] at h
  cases hat : between.ensureDirectoryAt found time with
  | error fault =>
    simp only [hat] at h
    cases h
  | ok made =>
    simp only [hat] at h
    cases h
    refine ⟨between, hat, ?_⟩
    unfold reached at hreached
    split at hreached
    case h_1 hmissing =>
      split at hreached
      · cases hreached
      · rename_i hnames
        rcases hparent : tree.ensureDirectoriesWithin path.parent time most
            with ⟨other, fault | parent⟩
        · rw [hparent] at hreached
          cases hreached
        · rw [hparent] at hreached
          simp only [Except.bind, Prod.mk.injEq] at hreached
          obtain ⟨rfl, hfollow⟩ := hreached
          exact .inr ⟨hmissing, hnames, parent, rfl, hfollow⟩
    case h_2 =>
      rw [Prod.mk.injEq] at hreached
      exact .inl ⟨hreached.1.symm, hreached.2⟩

/-- What is made is where the path leads then. -/
theorem ensureDirectoriesWithin_ok {time : Int} {most : Nat}
    (h : tree.ensureDirectoriesWithin path time most = (later, .ok place)) :
    Extends tree later ∧ later.placeOf path = .ok place ∧ later.HasDirectory place := by
  induction most generalizing path later place with
  | zero => cases h
  | succ most ih =>
    obtain ⟨between, hmade, hbetween⟩ := ensureDirectoriesWithin_succ h
    obtain ⟨hlater, hthere⟩ := ensureDirectoryAt_ok hmade
    obtain ⟨rfl, hpath⟩ | ⟨hmissing, hnames, parent, hparent, hname⟩ := hbetween
    · exact ⟨hlater, placeOf_mono hlater.working hlater.directory hpath, hthere⟩
    · obtain ⟨hbefore, hupper, -⟩ := ih hparent
      obtain ⟨hnull, hsize⟩ := not_tooLong_of_missing hmissing
      have hpath : between.placeOf path = .ok place := by
        have hsplit : path.names = path.parent.names ++ [path.name] := by
          rw [Path.name, List.getLast?_eq_some_getLast hnames]
          exact (List.dropLast_concat_getLast hnames).symm
        refine placeOf_eq_ok_iff.2 ⟨hnull, hsize, ?_⟩
        rw [hsplit, follow_append_eq_ok_iff]
        exact ⟨parent, (placeOf_eq_ok_iff.1 hupper).2.2, hname⟩
      exact ⟨hbefore.trans hlater, placeOf_mono hlater.working hlater.directory hpath, hthere⟩

theorem ensureDirectories_ok {time : Int}
    (h : tree.ensureDirectories path time = (later, .ok place)) :
    Extends tree later ∧ later.placeOf path = .ok place ∧ later.HasDirectory place :=
  ensureDirectoriesWithin_ok h

end LazyEmbed.Files.Tree
