import LazyEmbed.Command.Options
import LazyEmbed.Command.Run
import LazyEmbed.Validation.Report

/-!
The command that checks the pages of a site. All pages below a directory are checked, in the
ascending order of the names on the way to them, and what was found is reported. A page that cannot
be read is told and left out.
-/

namespace LazyEmbed.Command.Validate

structure Options where
  directory : Files.Path

namespace Options

def known : List KnownOption := [⟨"--output-dir", .valued⟩]

def ofArguments (arguments : List Text) : Except Refusal Options := do
  let given ← readOptions known arguments
  let directory ← given.value "--output-dir" "output"
  pure ⟨.ofText directory⟩

end Options

def isPageName (name : Text) : Bool := ".html".toList.isSuffixOf name

def pages (tree : Files.Tree) (directory : Files.Path) : List Files.Place :=
  match tree.placeOf directory with
  | .ok place => (tree.below place).filter fun names => names.getLast?.any isPageName
  | .error _ => []

/-- A way to check a page: it gives the messages of the page's issues, unless the page cannot be
checked. -/
abbrev Check := Text → Except Validation.Fault (List Text)

def pageMessages : Check := fun page => (Validation.checkPage page).map (·.map (·.message))

/-- Checks pages below a directory: gives the warnings, and what was found unless a page cannot be
checked. -/
def survey (check : Check) (tree : Files.Tree) (directory : Files.Path) :
    List Files.Place → List Text × Except Validation.Fault (List Validation.Finding)
  | [] => ([], .ok [])
  | names :: others =>
    let path := { directory with names := directory.names ++ names }
    match tree.readText path with
    | .error fault =>
      let (warnings, findings) := survey check tree directory others
      let warning :=
        "[WARN] Failed to read " ++ Files.Path.joined names ++ ": " ++ fault.message path.toText
      (warning :: warnings, findings)
    | .ok page =>
      match check page with
      | .error fault => ([], .error fault)
      | .ok [] => survey check tree directory others
      | .ok messages =>
        let (warnings, findings) := survey check tree directory others
        (warnings, findings.map (⟨Files.Path.joined names, messages⟩ :: ·))

def validateDirectory (check : Check) (tree : Files.Tree) (directory : Files.Path) : Run :=
  let pages := pages tree directory
  let (warnings, findings) := survey check tree directory pages
  let line := "[INFO] Validating " ++ Text.decimal pages.length ++ " HTML files in "
    ++ directory.toText ++ "..."
  let run := match findings with
    | .error fault => Run.fail (.page fault)
    | .ok findings =>
      .after (Validation.reportLines findings) (.exit (Validation.exitCode findings))
  run.after (line :: warnings)

/-- The directory that is meant, from the top downwards, and whether it is there. -/
def locate (tree : Files.Tree) (path : Files.Path) : Except Files.Fault (Files.Path × Bool) := do
  let directory ← tree.absolute path
  let isThere ← tree.hasEntry directory
  pure (directory, isThere)

def runWith (check : Check) (options : Options) (tree : Files.Tree) : Run :=
  match locate tree options.directory with
  | .error fault => .fail (.file (.access fault))
  | .ok (directory, true) => validateDirectory check tree directory
  | .ok (directory, false) =>
    .after ["[ERROR] Output directory not found: " ++ directory.toText,
      "Run 'pelican content' to generate the site first."] (.exit 1)

def run (options : Options) (tree : Files.Tree) : Run := runWith pageMessages options tree

end LazyEmbed.Command.Validate
