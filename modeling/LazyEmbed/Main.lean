import LazyEmbed.Command.Convert
import LazyEmbed.Command.Validate
import Std.Time.DateTime.Timestamp

/-!
The command line. Its first argument says which command is meant. The files that the command may ask
for are read into a tree, the command is carried out on that tree, and what it changed there is
written back.
-/

namespace LazyEmbed.Main

open Files

def fileName (place : Place) : String := String.ofList ('/' :: Path.joined place)

def nanoseconds (time : IO.FS.SystemTime) : Int := time.sec * 1000000000 + time.nsec.toNat

def beginnings (names : List Text) : List (List Text) :=
  (List.range (names.length + 1)).map (names.take ·)

def put (tree : Tree) (place : Place) (entry : Entry) : Tree :=
  { tree with entries := tree.entries.put place entry }

/-- Reads what is at a place, with the directories as deep as asked for. Of files, only those whose
names pass the test are read with their contents. -/
def load (isNeeded : Text → Bool) : (depth : Nat) → Tree → Place → IO Tree
  | 0, tree, _ => pure tree
  | depth + 1, tree, place => do
    let file := System.mkFilePath [fileName place]
    match ← file.metadata.toBaseIO with
    | .error _ => pure tree
    | .ok found =>
      let time := nanoseconds found.modified
      if found.type == .dir then
        let tree := put tree place (.directory time)
        if depth = 0 then pure tree
        else
          (← file.readDir).foldlM
            (fun tree below => load isNeeded depth tree (place ++ [below.fileName.toList])) tree
      else if place.getLast?.any isNeeded then
        let content ← IO.FS.readBinFile file
        pure (put tree place (.file content.toList time))
      else pure (put tree place (.file [] time))

def loadPath (isNeeded : Text → Bool) (depth : Nat) (tree : Tree) (path : Path) : IO Tree := do
  let visited := (beginnings path.names).map (·.foldl Tree.step (tree.start path))
  let tree ← visited.foldlM (load isNeeded 1) tree
  load isNeeded depth tree (path.names.foldl Tree.step (tree.start path))

def startTree : IO Tree := do
  let working := (Path.ofText (← IO.currentDir).toString.toList).names
  pure ⟨.ofPairs ((beginnings working).tail.map (·, .directory 0)), working⟩

/-- Writes an entry unless it is an old one. -/
def store (old : Tree) (place : Place) (entry : Entry) : IO Unit := do
  unless old.entries.get? place = some entry do
    match entry with
    | .directory _ => IO.FS.createDirAll (fileName place)
    | .file content _ => IO.FS.writeBinFile (fileName place) (.mk content.toArray)

def report (run : Command.Run) : IO UInt32 := do
  IO.print (String.ofList (Text.ofLines run.output))
  IO.eprint (String.ofList (Text.ofLines run.errors))
  match run.ending with
  | .exit code => pure code.toUInt32
  | .failed failure =>
    IO.eprintln (String.ofList failure.describe)
    pure 1

def convert (options : Command.Convert.Options) : IO UInt32 := do
  let tree ← loadPath Command.Convert.isTemplateName 2 (← startTree) options.source
  let tree ← loadPath Command.Convert.isTemplateName 2 tree options.target
  let now := (← Std.Time.Timestamp.now).toNanosecondsSinceUnixEpoch.val
  let (run, changed) := Command.Convert.run options (fun step => now + step) tree
  changed.entries.entries.forM fun (place, entry) => store tree place entry
  report run

def maxDepth : Nat := 1000

def validate (options : Command.Validate.Options) : IO UInt32 := do
  let tree ← loadPath Command.Validate.isPageName maxDepth (← startTree) options.directory
  report (Command.Validate.run options tree)

def usage : String :=
  "usage: lazyembed convert [--src DIRECTORY] [--dest DIRECTORY] [--force] [--quiet]\n" ++
  "       lazyembed validate [--output-dir DIRECTORY]"

def carryOut {options : Type} (arguments : Except Command.Refusal options)
    (command : options → IO UInt32) : IO UInt32 :=
  match arguments with
  | .ok options => command options
  | .error refusal => do
    IO.eprintln usage
    pure refusal.exitCode.toUInt32

end LazyEmbed.Main

open LazyEmbed in
def main (arguments : List String) : IO UInt32 :=
  match arguments with
  | "convert" :: rest =>
    Main.carryOut (Command.Convert.Options.ofArguments (rest.map String.toList)) Main.convert
  | "validate" :: rest =>
    Main.carryOut (Command.Validate.Options.ofArguments (rest.map String.toList)) Main.validate
  | _ => do
    IO.eprintln Main.usage
    pure 2
