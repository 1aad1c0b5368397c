import LazyEmbed.Command.Validate
import LazyEmbed.Proofs.Files.Listing
import LazyEmbed.Proofs.Files.TextFile
import LazyEmbed.Proofs.Validation.Report

/-!
# What the pages of a site come to

Everything below a directory that has the name of a page is looked at once. What cannot be read
makes a warning and nothing else; of the pages that can be read, those with issues are told, each
under its names from the directory. Since no name of a file has a slash, different pages have
different names when these are joined. So the report is settled by the pages that can be read,
whatever else there is.
-/

namespace LazyEmbed.Command.Validate

open Files (Path Place Tree)
open scoped Files
open Validation (Finding IsAscending)

variable {tree : Tree} {directory : Path} {place names : Place} {page : Text}
    {check : Text → List Text} {told others : List Finding} {listed : List Place}

/-! ## Pages -/

def pathOf (directory : Path) (names : Place) : Path :=
  { directory with names := directory.names ++ names }

/-- Below the directory there is something under these names that has the name of a page. -/
structure IsListed (tree : Tree) (directory : Path) (names : Place) : Prop where
  there : ∃ place, tree.placeOf directory = .ok place ∧ (tree.at? (place ++ names)).isSome = true
  named : ∃ front : Text, names.getLast? = some (front ++ ".html")

structure IsReadable (tree : Tree) (directory : Path) (names : Place) (page : Text) : Prop extends
    IsListed tree directory names where
  read : ∃ text, tree.read (pathOf directory names) = .ok (Utf8.encode text) ∧
    page = Files.joinLineEnds text

theorem any_isPageName_iff : names.getLast?.any isPageName = true ↔
    ∃ front : Text, names.getLast? = some (front ++ ".html") := by
  simp only [Option.any_eq_true, isPageName, List.isSuffixOf_iff_suffix]
  constructor
  · rintro ⟨name, hname, front, rfl⟩
    exact ⟨front, hname⟩
  · rintro ⟨front, hfront⟩
    exact ⟨_, hfront, front, rfl⟩

theorem mem_pages : names ∈ pages tree directory ↔ IsListed tree directory names := by
  unfold pages
  cases hplace : tree.placeOf directory with
  | error fault =>
    refine iff_of_false List.not_mem_nil fun h => ?_
    obtain ⟨place, hother, -⟩ := h.there
    rw [hplace] at hother
    cases hother
  | ok place =>
    simp only [List.mem_filter, Tree.mem_below, any_isPageName_iff]
    constructor
    · rintro ⟨⟨-, hthere⟩, hnamed⟩
      exact ⟨⟨place, hplace, hthere⟩, hnamed⟩
    · rintro ⟨⟨other, hother, hthere⟩, hnamed⟩
      obtain rfl := Except.ok.inj (hplace.symm.trans hother)
      refine ⟨⟨?_, hthere⟩, hnamed⟩
      rintro rfl
      obtain ⟨front, hfront⟩ := hnamed
      cases hfront

theorem nodup_pages (tree : Tree) (directory : Path) : (pages tree directory).Nodup := by
  unfold pages
  split
  · exact (Tree.nodup_below tree _).filter _
  · exact List.nodup_nil

theorem isReadable_iff : IsReadable tree directory names page ↔
    IsListed tree directory names ∧ tree.readText (pathOf directory names) = .ok page := by
  rw [Tree.readText_eq_ok_iff]
  exact ⟨fun h => ⟨h.toIsListed, h.read⟩, fun h => ⟨h.1, h.2⟩⟩

theorem IsListed.ne_nil (h : IsListed tree directory names) : names ≠ [] := by
  rintro rfl
  obtain ⟨front, hfront⟩ := h.named
  cases hfront

theorem IsListed.mem_keys (h : IsListed tree directory names)
    (hplace : tree.placeOf directory = .ok place) : place ++ names ∈ tree.entries.keys := by
  obtain ⟨other, hother, hthere⟩ := h.there
  obtain rfl := Except.ok.inj (hplace.symm.trans hother)
  rwa [Tree.at?, if_neg (by simp [h.ne_nil]), Option.isSome_iff_ne_none, ne_eq,
    Keyed.get?_eq_none_iff, Decidable.not_not] at hthere

theorem IsListed.not_mem (h : IsListed tree directory names)
    (hslash : ∀ place ∈ tree.entries.keys, ∀ name ∈ place, '/' ∉ name) :
    ∀ name ∈ names, '/' ∉ name := by
  obtain ⟨place, hplace, -⟩ := h.there
  intro name hname
  exact hslash _ (h.mem_keys hplace) name (List.mem_append_right place hname)

/-! ## Page by page -/

def warning? (tree : Tree) (directory : Path) (names : Place) : Option Text :=
  match tree.readText (pathOf directory names) with
  | .error fault =>
    some ("[WARN] Failed to read " ++ Path.joined names ++ ": " ++
      fault.message (pathOf directory names).toText)
  | .ok _ => none

theorem warning?_eq_none_iff (h : IsListed tree directory names) :
    warning? tree directory names = none ↔ ∃ page, IsReadable tree directory names page := by
  unfold warning?
  simp only [isReadable_iff, h, true_and]
  cases tree.readText (pathOf directory names) with
  | error fault => simp
  | ok page => simp

def finding? (check : Text → List Text) (tree : Tree) (directory : Path) (names : Place) :
    Option Finding :=
  match tree.readText (pathOf directory names) with
  | .error _ => none
  | .ok page => if check page = [] then none else some ⟨Path.joined names, check page⟩

/-- With a check that always answers, the survey is the warnings and the findings of the listed
pages, in order. -/
theorem survey_eq (check : Text → List Text) (tree : Tree) (directory : Path)
    (listed : List Place) :
    survey (fun page => .ok (check page)) tree directory listed =
      (listed.filterMap (warning? tree directory),
        .ok (listed.filterMap (finding? check tree directory))) := by
  induction listed with
  | nil => rfl
  | cons names listed ih =>
    rw [survey, List.filterMap_cons, List.filterMap_cons, warning?, finding?, pathOf]
    cases hread : tree.readText { directory with names := directory.names ++ names } with
    | error fault => simp only [ih]
    | ok page =>
      cases hcheck : check page with
      | nil => simp [hcheck, ih]
      | cons message messages => simp [hcheck, ih, Except.map]

theorem finding?_eq_some_iff {finding : Finding} :
    finding? check tree directory names = some finding ↔
      ∃ page, tree.readText (pathOf directory names) = .ok page ∧ check page ≠ [] ∧
      finding = ⟨Path.joined names, check page⟩ := by
  unfold finding?
  cases tree.readText (pathOf directory names) with
  | error fault => simp
  | ok page => by_cases hcheck : check page = [] <;> simp [hcheck, eq_comm]

/-! ## The report -/

/-- What is told if these pages can be read: those with issues, once each and in ascending order,
with all their issues. -/
structure Tells (check : Text → List Text) (readable : Place → Text → Prop)
    (told : List Finding) : Prop where
  ascending : IsAscending told
  mem_iff : ∀ finding, finding ∈ told ↔
    ∃ names page, readable names page ∧ check page ≠ [] ∧ finding = ⟨Path.joined names, check page⟩

theorem Tells.unique {readable : Place → Text → Prop} (h : Tells check readable told)
    (hothers : Tells check readable others) : others = told :=
  hothers.ascending.eq_of_mem_iff h.ascending fun finding =>
    (hothers.mem_iff finding).trans (h.mem_iff finding).symm

theorem mem_findings {finding : Finding} :
    finding ∈ (pages tree directory).filterMap (finding? check tree directory) ↔
      ∃ names page, IsReadable tree directory names page ∧ check page ≠ [] ∧
    finding = ⟨Path.joined names, check page⟩ := by
  simp only [List.mem_filterMap, mem_pages, finding?_eq_some_iff, isReadable_iff]
  constructor
  · rintro ⟨names, hlisted, page, hread, hfound⟩
    exact ⟨names, page, ⟨hlisted, hread⟩, hfound⟩
  · rintro ⟨names, page, ⟨hlisted, hread⟩, hfound⟩
    exact ⟨names, hlisted, page, hread, hfound⟩

theorem findings_ne_nil_iff :
    (pages tree directory).filterMap (finding? check tree directory) ≠ [] ↔
      ∃ names page, IsReadable tree directory names page ∧ check page ≠ [] := by
  constructor
  · intro hsome
    obtain ⟨finding, hfinding⟩ := List.exists_mem_of_ne_nil _ hsome
    obtain ⟨names, page, hreadable, hissues, -⟩ := mem_findings.1 hfinding
    exact ⟨names, page, hreadable, hissues⟩
  · rintro ⟨names, page, hreadable, hissues⟩
    exact List.ne_nil_of_mem (mem_findings.2 ⟨names, page, hreadable, hissues, rfl⟩)

theorem findings_eq_nil_iff :
    (pages tree directory).filterMap (finding? check tree directory) = [] ↔
      ∀ names page, IsReadable tree directory names page → check page = [] := by
  rw [← not_iff_not, ← ne_eq, findings_ne_nil_iff]
  push Not
  rfl

/-- No page is reported twice: two pages never share the path they are shown with. -/
theorem nodup_sources (hslash : ∀ place ∈ tree.entries.keys, ∀ name ∈ place, '/' ∉ name) :
    (((pages tree directory).filterMap (finding? check tree directory)).map (·.source)).Nodup := by
  have hfound : ∀ {names finding}, finding? check tree directory names = some finding →
      finding.source = Path.joined names := by
    intro names finding h
    obtain ⟨page, -, -, rfl⟩ := finding?_eq_some_iff.1 h
    rfl
  rw [List.Nodup, List.pairwise_map, List.pairwise_filterMap]
  refine (nodup_pages tree directory).pairwise_of_forall_ne
    fun first hfirst second hsecond hne => ?_
  intro a ha b hb heq
  have hfirst := mem_pages.1 hfirst
  have hsecond := mem_pages.1 hsecond
  rw [hfound ha, hfound hb] at heq
  exact hne (Tree.joined_injective hfirst.ne_nil hsecond.ne_nil (hfirst.not_mem hslash)
    (hsecond.not_mem hslash) heq)

theorem tells_sortFindings (hslash : ∀ place ∈ tree.entries.keys, ∀ name ∈ place, '/' ∉ name) :
    Tells check (IsReadable tree directory) (Validation.sortFindings
      ((pages tree directory).filterMap (finding? check tree directory))) where
  ascending := Validation.isAscending_sortFindings (nodup_sources hslash)
  mem_iff _ := Validation.mem_sortFindings.trans mem_findings

def pageLines (finding : Finding) : List Text :=
  ("  ".toList ++ finding.source ++ ":") :: finding.messages.map fun message =>
    "    - ".toList ++ message

/-- The lines under the head of a report: how many issues there are, on how many pages, and the
pages with their issues. -/
def printed (told : List Finding) : List Text :=
  if told = [] then ["[OK] All media embed placeholders validated successfully."]
  else
    ["[ERROR] " ++ Text.decimal (told.flatMap (·.messages)).length ++ " issue(s) in " ++
      Text.decimal told.length ++ " file(s):", []] ++ told.flatMap pageLines

theorem reportLines_eq (findings : List Finding) : Validation.reportLines findings =
    Validation.reportHead ++ [] :: printed (Validation.sortFindings findings) := by
  unfold Validation.reportLines printed
  by_cases hnone : findings = []
  · rw [if_pos (List.isEmpty_iff.2 hnone), if_pos (Validation.sortFindings_eq_nil_iff.2 hnone)]
  · have hcount : ((Validation.sortFindings findings).flatMap (·.messages)).length =
        Validation.issueCount findings :=
      Validation.issueCount_sortFindings findings
    rw [if_neg (mt List.isEmpty_iff.1 hnone),
      if_neg (mt Validation.sortFindings_eq_nil_iff.1 hnone), hcount,
      Validation.length_sortFindings, List.append_assoc]
    rfl

/-- The run of a check over an existing directory, written out. -/
theorem runWith_eq {options : Options}
    (hthere : locate tree options.directory = .ok (directory, true))
    (check : Text → List Text) :
    let findings := (pages tree directory).filterMap (finding? check tree directory)
    runWith (fun page => .ok (check page)) options tree =
      { output :=
          ("[INFO] Validating " ++ Text.decimal (pages tree directory).length ++
            " HTML files in " ++ directory.toText ++ "...") :: (pages tree directory).filterMap
            (warning? tree directory) ++ Validation.reportLines findings
        errors := []
        ending := .exit (Validation.exitCode findings) } := by
  simp only [runWith, hthere, validateDirectory, survey_eq]
  simp only [Run.after, Run.exit, List.append_nil]

/-- The command ends with 1 if a page that can be read has issues, and else with 0. It prints each
of these pages once, in ascending order of their names, with all their issues, and how many there
are of both. This is settled by the pages that can be read: of the others there is a warning each,
and nothing else. -/
theorem runWith_tells (check : Text → List Text) {options : Options}
    (hthere : locate tree options.directory = .ok (directory, true))
    (hslash : ∀ place ∈ tree.entries.keys, ∀ name ∈ place, '/' ∉ name) :
    let run := runWith (fun page => .ok (check page)) options tree
    ∃ told, Tells check (IsReadable tree directory) told ∧
      (∀ others, Tells check (IsReadable tree directory) others → others = told) ∧
      run.output =
        ("[INFO] Validating " ++ Text.decimal (pages tree directory).length ++ " HTML files in " ++
            directory.toText ++ "...") ::
          (pages tree directory).filterMap (warning? tree directory) ++
            (Validation.reportHead ++ [] :: printed told) ∧
      (∀ names, IsListed tree directory names →
        (warning? tree directory names = none ↔ ∃ page, IsReadable tree directory names page)) ∧
      run.errors = [] ∧
      (run.ending = .exit 1 ↔ ∃ names page, IsReadable tree directory names page ∧
        check page ≠ []) ∧
      (run.ending = .exit 0 ↔ ∀ names page, IsReadable tree directory names page →
        check page = []) := by
  intro run
  have hrun := runWith_eq hthere check
  refine ⟨_, tells_sortFindings hslash, fun others => (tells_sortFindings hslash).unique, ?_,
    fun _ => warning?_eq_none_iff, ?_, ?_, ?_⟩
  · rw [← reportLines_eq]
    exact congrArg Run.output hrun
  · exact congrArg Run.errors hrun
  · rw [← findings_ne_nil_iff, congrArg Run.ending hrun]
    simp [Validation.exitCode]
  · rw [← findings_eq_nil_iff, congrArg Run.ending hrun]
    simp [Validation.exitCode]

/-! A page with an issue, one whose content is no text, and a directory that has the name of a
page. -/

def sampleSite : Tree :=
  ⟨.ofPairs [(["site"], .directory 0), (["site", "a.html"], .file (Utf8.encode "x") 0),
    (["site", "b.html"], .file [0xFF] 0), (["site", "c.html"], .directory 0)], []⟩

def siteOptions : Options := ⟨⟨[], ["site"]⟩⟩

def siteDirectory : Path := ⟨"/", ["site"]⟩

theorem isReadable_sampleSite : IsReadable sampleSite siteDirectory names page ↔
    names = (["a.html"] : Place) ∧ page = "x" := by
  rw [isReadable_iff]
  constructor
  · rintro ⟨hlisted, hread⟩
    have hkeys :
        sampleSite.entries.keys = ([["site"], ["site", "a.html"], ["site", "b.html"],
          ["site", "c.html"]] : List Place) :=
      rfl
    have hmem :=
      hlisted.mem_keys (show sampleSite.placeOf siteDirectory = .ok ["site"] by decide +kernel)
    have hne := hlisted.ne_nil
    rw [hkeys] at hmem
    obtain rfl | rfl | rfl : names = (["a.html"] : Place) ∨ names = (["b.html"] : Place) ∨
        names = (["c.html"] : Place) := by
      simpa [hne] using hmem
    · have hpage : sampleSite.readText (pathOf siteDirectory ["a.html"]) = .ok "x" := by
        decide +kernel
      exact ⟨rfl, Except.ok.inj (hread.symm.trans hpage)⟩
    · have hfault : (sampleSite.readText (pathOf siteDirectory ["b.html"])).toOption = none := by
        decide +kernel
      rw [hread] at hfault
      cases hfault
    · have hfault : (sampleSite.readText (pathOf siteDirectory ["c.html"])).toOption = none := by
        decide +kernel
      rw [hread] at hfault
      cases hfault
  · rintro ⟨rfl, rfl⟩
    exact ⟨⟨⟨["site"], by decide +kernel, by decide +kernel⟩, "a", rfl⟩, by decide +kernel⟩

theorem runWith_tells_sampleSite :
    locate sampleSite siteOptions.directory = .ok (siteDirectory, true) ∧
    (∀ place ∈ sampleSite.entries.keys, ∀ name ∈ place, '/' ∉ name) ∧
    let run := runWith (fun page => .ok [page]) siteOptions sampleSite
    run.ending = .exit 1 ∧ run.errors = [] ∧
    ∃ warnings, run.output = warnings ++
      (Validation.reportHead ++ [] :: printed [⟨"a.html", ["x"]⟩]) := by
  have hthere : locate sampleSite siteOptions.directory = .ok (siteDirectory, true) := rfl
  have hslash : ∀ place ∈ sampleSite.entries.keys, ∀ name ∈ place, '/' ∉ name := by decide +kernel
  have htells :
      Tells (fun page => [page]) (IsReadable sampleSite siteDirectory) [⟨"a.html", ["x"]⟩] := by
    refine ⟨List.pairwise_singleton _ _, fun finding => ?_⟩
    simp [isReadable_sampleSite, Path.joined]
  obtain ⟨told, -, hunique, houtput, -, herrors, hfailed, -⟩ :=
    runWith_tells (fun page => [page]) hthere hslash
  obtain rfl := hunique _ htells
  refine ⟨hthere, hslash, hfailed.2 ⟨_, _, isReadable_sampleSite.2 ⟨rfl, rfl⟩,
    List.cons_ne_nil _ _⟩, herrors, _, houtput⟩

end LazyEmbed.Command.Validate
