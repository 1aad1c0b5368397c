import LazyEmbed.Command.Options
import LazyEmbed.Command.Run
import LazyEmbed.Template.Dialect
import LazyEmbed.Text.LowerCase

/-!
The command that converts the templates of a directory. Each template becomes a file of the same
stem in the target directory. A file that is not older than its template is left as it is, unless
conversion is forced. The first template that cannot be converted ends the command, and its file is
not written.
-/

namespace LazyEmbed.Command.Convert

structure Options where
  source : Files.Path
  target : Files.Path
  force : Bool
  quiet : Bool

namespace Options

def known : List KnownOption :=
  [⟨"--src", .valued⟩, ⟨"--dest", .valued⟩, ⟨"--force", .flag⟩, ⟨"--quiet", .flag⟩]

def ofArguments (arguments : List Text) : Except Refusal Options := do
  let given ← readOptions known arguments
  let source ← given.value "--src" "templates-source"
  let target ← given.value "--dest" "templates"
  pure {
    source := .ofText source
    target := .ofText target
    force := given.isSet "--force"
    quiet := given.isSet "--quiet" }

def note (options : Options) (line : Text) : List Text := if options.quiet then [] else [line]

end Options

def templateSuffix : Text := ".xsl"

def targetSuffix : Text := ".html"

def isTemplateName (name : Text) : Bool := Text.lower (Files.suffix name) = templateSuffix

def targetName (name : Text) : Text := Files.stem name ++ targetSuffix

def templatesAmong (tree : Files.Tree) (directory : Files.Path) :
    List Text → Except Files.Fault (List Text)
  | [] => .ok []
  | name :: names => do
    let isFile ← tree.hasFile (directory.child name)
    let templates ← templatesAmong tree directory names
    pure (if isFile && isTemplateName name then name :: templates else templates)

def templateNames (tree : Files.Tree) (directory : Files.Path) :
    Except Files.Fault (List Text) := do
  let names ← tree.list directory
  templatesAmong tree directory names

/-- There is something at the target path, and it is not older than the source. -/
def isCurrent (tree : Files.Tree) (source target : Files.Path) : Except Files.Fault Bool := do
  if ← tree.hasEntry target then
    let target ← tree.entry target
    let source ← tree.entry source
    pure (source.changed ≤ target.changed)
  else pure false

/-- The file that a template becomes, unless the one that is there will do. -/
def convertFile (options : Options) (tree : Files.Tree) (time : Int) (name : Text) :
    Except Failure (Option Files.Tree) := do
  let source := options.source.child name
  let target := options.target.child (targetName name)
  let isDone ←
    if options.force then pure false
    else (isCurrent tree source target).mapError fun fault => .file (.access fault)
  if isDone then pure none
  else
    let template ← (tree.readText source).mapError .file
    let converted ← (Template.Dialect.forum.convert (Text.trim template)).mapError .template
    let tree ← (tree.writeText target converted time).mapError .file
    pure (some tree)

def complaint (name : Text) (fault : Template.Fault) : List Text :=
  let place := "        at: " ++ fault.fragment
  ("[ERROR] " ++ name ++ ": " ++ fault.message) :: if fault.fragment.isEmpty then [] else [place]

/-- Ends the command on a template that failed; only a fault of the template itself is answered. -/
def stop (name : Text) : Failure → Run
  | .template fault =>
    if fault.isAboutTemplate then ⟨[], complaint name fault, .exit 1⟩ else .fail (.template fault)
  | failure => .fail failure

/-- Converts the templates of these names, one after the other, each at a time of its own. -/
def convertAll (options : Options) (clock : Nat → Int) (tree : Files.Tree) (step : Nat) :
    List Text → Run × Files.Tree
  | [] => (.after (options.note "Complete.") (.exit 0), tree)
  | name :: names =>
    match convertFile options tree (clock step) name with
    | .ok none =>
      let (run, tree) := convertAll options clock tree (step + 1) names
      (run.after (options.note ("[SKIP] " ++ name ++ " (output is up to date)")), tree)
    | .ok (some tree) =>
      let (run, tree) := convertAll options clock tree (step + 1) names
      (run.after (options.note ("  [DONE] " ++ name ++ " -> " ++ targetName name)), tree)
    | .error failure => (stop name failure, tree)

def convertDirectory (options : Options) (clock : Nat → Int) (tree : Files.Tree) :
    Run × Files.Tree :=
  match templateNames tree options.source with
  | .error fault => (.fail (.file (.access fault)), tree)
  | .ok [] =>
    (.after ["[INFO] No " ++ templateSuffix ++ " templates in " ++ options.source.toText] (.exit 0),
      tree)
  | .ok names =>
    let (run, tree) := convertAll options clock tree 1 names
    let line := "Transpiling " ++ Text.decimal names.length ++ " template(s) from "
      ++ options.source.toText ++ " -> " ++ options.target.toText
    (run.after (options.note line), tree)

def run (options : Options) (clock : Nat → Int) (tree : Files.Tree) : Run × Files.Tree :=
  match tree.hasEntry options.source with
  | .error fault => (.fail (.file (.access fault)), tree)
  | .ok false =>
    (.after ["[INFO] Source directory '" ++ options.source.toText
      ++ "' does not exist. Nothing to transpile."] (.exit 0), tree)
  | .ok true =>
    match tree.ensureDirectories options.target (clock 0) with
    | (tree, .ok _) => convertDirectory options clock tree
    | (tree, .error fault) => (.fail (.file (.access fault)), tree)

end LazyEmbed.Command.Convert
