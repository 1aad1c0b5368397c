import LazyEmbed.Files.Path
import LazyEmbed.Keyed
import LazyEmbed.Text.Shown
import LazyEmbed.Text.Utf8

/-!
A tree of files. Every directory and every file is an entry under its place, which is told by the
names from the top downwards, and has the time at which it was last changed: for a directory, when
something was put into it or taken out. Paths are followed name by name, and each name but the last
must lead to a directory. Names and paths have a greatest length, and no path with a null character
can be followed. Times are numbers of any unit.
-/

namespace LazyEmbed.Files

/-- The names that lead to something from the top. -/
abbrev Place := List Text

/-- Places of different depths are told apart before any name is looked at. -/
scoped instance : DecidableEq Place := fun a b =>
  if h : a.length = b.length then inferInstanceAs (Decidable (a = b))
  else .isFalse fun heq => h (congrArg List.length heq)

inductive Entry where
  | directory (changed : Int)
  | file (content : Octets) (changed : Int)
  deriving Repr, DecidableEq

namespace Entry

def changed : Entry → Int
  | directory changed => changed
  | file _ changed => changed

def isDirectory : Entry → Bool
  | directory _ => true
  | file _ _ => false

def isFile (entry : Entry) : Bool := !entry.isDirectory

def content? : Entry → Option Octets
  | directory _ => none
  | file content _ => some content

def withChanged (time : Int) : Entry → Entry
  | directory _ => directory time
  | file content _ => file content time

@[simp]
theorem content?_withChanged (entry : Entry) (time : Int) :
    (entry.withChanged time).content? = entry.content? := by
  cases entry <;> rfl

end Entry

inductive Fault where
  | missing
  | notDirectory
  | isDirectory
  | alreadyThere
  /-- A name that was to be found, or the whole path, is longer than any can be. -/
  | tooLong
  /-- The path holds a null character. -/
  | nullCharacter
  /-- More directories than can be made at once are not there. -/
  | tooDeep
  deriving Repr, DecidableEq

namespace Fault

def describe : Fault → Text
  | missing => "[Errno 2] No such file or directory"
  | notDirectory => "[Errno 20] Not a directory"
  | isDirectory => "[Errno 21] Is a directory"
  | alreadyThere => "[Errno 17] File exists"
  | tooLong => "[Errno 36] File name too long"
  | nullCharacter => "embedded null byte"
  | tooDeep => "Too many directories to make"

def message (path : Text) (fault : Fault) : Text := fault.describe ++ ": " ++ Text.shown path

end Fault

def maxNameSize : Nat := 255

def maxPathSize : Nat := 4095

/-- How many directories, each in the one before, can be made at once. -/
def maxMade : Nat := 987

structure Tree where
  /-- The entries but for the top, which is always a directory. -/
  entries : Keyed Place Entry
  /-- Where the paths begin that do not begin at the top. -/
  working : Place

namespace Tree

def empty : Tree := ⟨.empty, []⟩

def at? (tree : Tree) (place : Place) : Option Entry :=
  if place = [] then some (.directory 0) else tree.entries.get? place

def content? (tree : Tree) (place : Place) : Option Octets := (tree.at? place).bind Entry.content?

def step (place : Place) (name : Text) : Place :=
  if name = Path.up then place.dropLast else place ++ [name]

/-- The place that names lead to; whether something is there is left open. -/
def follow (tree : Tree) (place : Place) : List Text → Except Fault Place
  | [] => .ok place
  | name :: names =>
    match tree.at? place with
    | none => .error .missing
    | some (.file _ _) => .error .notDirectory
    | some (.directory _) =>
      if Utf8.size name ≤ maxNameSize then tree.follow (step place name) names else .error .tooLong

def start (tree : Tree) (path : Path) : Place := if path.isAbsolute then [] else tree.working

def placeOf (tree : Tree) (path : Path) : Except Fault Place :=
  if path.hasNull then .error .nullCharacter
  else if Utf8.size path.toText ≤ maxPathSize then tree.follow (tree.start path) path.names
  else .error .tooLong

/-- The path from the top that names the same place, without any name that leads upwards; nothing on
the way needs to be there. -/
def absolute (tree : Tree) (path : Path) : Except Fault Path :=
  if path.hasNull then .error .nullCharacter
  else .ok ⟨"/", path.names.foldl step (tree.start path)⟩

def entry (tree : Tree) (path : Path) : Except Fault Entry := do
  let place ← tree.placeOf path
  match tree.at? place with
  | some entry => pure entry
  | none => throw .missing

/-- Whether something is at a path. Nothing can be at a path with a null character, but where a path
is too long, that is all that is known. -/
def hasEntry (tree : Tree) (path : Path) : Except Fault Bool :=
  match tree.entry path with
  | .ok _ => .ok true
  | .error .tooLong => .error .tooLong
  | .error _ => .ok false

/-- Whether a file is at a path; of a path that is too long, that is not known either. -/
def hasFile (tree : Tree) (path : Path) : Except Fault Bool :=
  match tree.entry path with
  | .ok entry => .ok entry.isFile
  | .error .tooLong => .error .tooLong
  | .error _ => .ok false

def read (tree : Tree) (path : Path) : Except Fault Octets := do
  match ← tree.entry path with
  | .file content _ => pure content
  | .directory _ => throw .isDirectory

def touch (tree : Tree) (place : Place) (time : Int) : Tree :=
  { tree with entries := tree.entries.update place (·.withChanged time) }

def add (tree : Tree) (place : Place) (entry : Entry) : Tree :=
  { tree with entries := tree.entries.put place entry }.touch place.dropLast entry.changed

def write (tree : Tree) (path : Path) (content : Octets) (time : Int) : Except Fault Tree := do
  let place ← tree.placeOf path
  match tree.at? place with
  | some (.directory _) => throw .isDirectory
  | some (.file _ _) =>
    pure { tree with entries := tree.entries.put place (.file content time) }
  | none => pure (tree.add place (.file content time))

def ensureDirectoryAt (tree : Tree) (place : Place) (time : Int) : Except Fault Tree :=
  match tree.at? place with
  | none => .ok (tree.add place (.directory time))
  | some (.directory _) => .ok tree
  | some (.file _ _) => .error .alreadyThere

/-- Makes a directory and all that it is in, as far as they are not there and are no more than
given, and tells its place. What has been made stays, even if the rest cannot be; if there are too
many, nothing is made. -/
def ensureDirectoriesWithin (tree : Tree) (path : Path) (time : Int) :
    (most : Nat) → Tree × Except Fault Place
  | 0 => (tree, .error .tooDeep)
  | most + 1 =>
    let reached : Tree × Except Fault Place := match tree.placeOf path with
      | .error .missing =>
        if path.names = [] then (tree, .error .missing)
        else
          let (tree, parent) := tree.ensureDirectoriesWithin path.parent time most
          (tree, parent.bind fun parent => tree.follow parent [path.name])
      | reached => (tree, reached)
    match reached with
    | (tree, .error fault) => (tree, .error fault)
    | (tree, .ok place) =>
      match tree.ensureDirectoryAt place time with
      | .ok tree => (tree, .ok place)
      | .error fault => (tree, .error fault)

def ensureDirectories (tree : Tree) (path : Path) (time : Int) : Tree × Except Fault Place :=
  tree.ensureDirectoriesWithin path time maxMade

def remove (tree : Tree) (place : Place) (time : Int) : Tree :=
  { tree with entries := tree.entries.keep (!place.isPrefixOf ·) }.touch place.dropLast time

theorem content?_put (tree : Tree) (place other : Place) (entry : Entry) (h : place ≠ []) :
    ({ tree with entries := tree.entries.put place entry } : Tree).content? other =
      if other = place then entry.content? else tree.content? other := by
  unfold content? at?
  by_cases hother : other = place
  · rw [if_pos hother, hother, if_neg h, Keyed.get?_put_self]
    rfl
  · rw [if_neg hother, Keyed.get?_put_of_ne _ _ hother]

/-- Times have nothing to do with contents. -/
@[simp]
theorem content?_touch (tree : Tree) (place other : Place) (time : Int) :
    (tree.touch place time).content? other = tree.content? other := by
  unfold content? at? touch
  split
  · rfl
  · rw [Keyed.get?_update]
    cases tree.entries.get? other with
    | none => rfl
    | some entry =>
      simp only [Option.map_some, Option.bind_some]
      split
      · exact Entry.content?_withChanged entry time
      · rfl

theorem content?_add (tree : Tree) (place other : Place) (entry : Entry) (h : place ≠ []) :
    (tree.add place entry).content? other =
      if other = place then entry.content? else tree.content? other := by
  rw [add, content?_touch, content?_put _ _ _ _ h]

def list (tree : Tree) (path : Path) : Except Fault (List Text) := do
  let place ← tree.placeOf path
  match tree.at? place with
  | none => throw .missing
  | some (.file _ _) => throw .notDirectory
  | some (.directory _) =>
    let names := tree.entries.keys.filterMap fun other =>
      if other ≠ [] ∧ other.dropLast = place then other.getLast? else none
    pure names.mergeSort

/-- Places are ordered by the first names in which they differ. -/
scoped instance : LE Place := List.instLE

/-- What is below a place, by the names from there, in ascending order of these lists of names. -/
def below (tree : Tree) (place : Place) : List Place :=
  let found := tree.entries.keys.filterMap fun other =>
    if place.isPrefixOf other ∧ other ≠ place then some (other.drop place.length) else none
  found.mergeSort

end Tree

end LazyEmbed.Files
