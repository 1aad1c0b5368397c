import LazyEmbed.Text.Basic

/-!
Paths as they are given. Empty names and single points lead nowhere and are dropped; two points lead
upwards, and since where that is depends on the files there are, they stay. The last name has a
suffix if a point stands inside it: one at either end of the name begins none.
-/

namespace LazyEmbed.Files

/-- The slashes that a path begins with, and the names to follow. -/
structure Path where
  root : Text
  names : List Text
  deriving Repr, DecidableEq

namespace Path

def up : Text := ".."

/-- Two slashes at the beginning are kept; any other number of them counts as one. -/
def rootOf (slashes : Text) : Text :=
  if slashes = [] ∨ slashes.length = 2 then slashes else "/"

def isName (part : Text) : Bool := part ≠ [] && part ≠ ".".toList

def ofText (text : Text) : Path where
  root := rootOf (text.takeWhile (· = '/'))
  names := (text.splitOn '/').filter isName

def joined (names : List Text) : Text := ['/'].intercalate names

def toText (path : Path) : Text :=
  if path.root = [] ∧ path.names = [] then "." else path.root ++ joined path.names

/-- The path holds the one character that no name of a file has. -/
def hasNull (path : Path) : Bool := path.names.any fun name => '\x00' ∈ name

def isAbsolute (path : Path) : Bool := path.root ≠ []

def name (path : Path) : Text := path.names.getLast?.getD []

def child (path : Path) (name : Text) : Path := { path with names := path.names ++ [name] }

def parent (path : Path) : Path := { path with names := path.names.dropLast }

end Path

/-- The parts of a name before and from its last point, if that point is inside the name. -/
def splitName (name : Text) : Text × Text :=
  let ending := (name.reverse.takeWhile (· ≠ '.')).reverse
  let beginning := name.take (name.length - ending.length - 1)
  if ending = [] ∨ beginning = [] then (name, []) else (beginning, '.' :: ending)

def stem (name : Text) : Text := (splitName name).1

def suffix (name : Text) : Text := (splitName name).2

end LazyEmbed.Files
