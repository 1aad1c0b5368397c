import LazyEmbed.Command.Convert
import LazyEmbed.Proofs.Files.Listing
import LazyEmbed.Proofs.Text.Reading
import Mathlib.Data.List.Nodup

/-!
# Converting the templates of a directory

A template that is converted changes the file that it becomes and no other. The files of different
templates are different, so what one step does to a template is what it would do to it in the tree
that the command began with. The command thus ends at the first template that cannot be read or
converted, with all files before it written and no file behind it touched.
-/

namespace LazyEmbed.Command.Convert

open Files (Path Place Tree)

variable {options : Options} {tree later : Tree} {directory : Place} {name other : Text}

/-! ## Names of templates and of their files -/

/-- The last point divides a name, unless nothing is in front of it. -/
theorem splitName_append {beginning ending : Text} (h : '.' ∉ ending) (hending : ending ≠ [])
    (hbeginning : beginning ≠ []) :
    Files.splitName (beginning ++ '.' :: ending) = (beginning, '.' :: ending) := by
  have htake : ((beginning ++ '.' :: ending).reverse.takeWhile (· ≠ '.')).reverse = ending := by
    have hall : ∀ c ∈ ending.reverse, (decide (c ≠ '.')) = true := by
      intro c hc
      rw [List.mem_reverse] at hc
      exact decide_eq_true fun hpoint => h (hpoint ▸ hc)
    rw [List.reverse_append, List.reverse_cons, List.append_assoc,
      List.takeWhile_append_of_pos hall]
    simp
  have hlength : (beginning ++ '.' :: ending).length - ending.length - 1 = beginning.length := by
    rw [List.length_append, List.length_cons]
    omega
  simp only [Files.splitName, htake, hlength, List.take_left']
  rw [if_neg (by simp [hending, hbeginning])]

theorem isTemplateName_targetName (hname : Files.stem name ≠ []) :
    isTemplateName (targetName name) = false := by
  have hsplit : Files.suffix (targetName name) = ".html" :=
    congrArg Prod.snd (splitName_append (by decide) (by decide) hname)
  rw [isTemplateName, hsplit]
  decide

theorem stem_eq_of_targetName_eq (h : targetName name = targetName other) :
    Files.stem name = Files.stem other :=
  List.append_cancel_right h

/-- A name has no ending, or is its stem, a dot and the ending behind it. -/
theorem splitName_cases (name : Text) :
    Files.splitName name = (name, []) ∨
      ∃ size ending, name.take size ≠ [] ∧
      Files.splitName name = (name.take size, '.' :: ending) := by
  unfold Files.splitName
  extract_lets ending beginning
  split
  · exact .inl rfl
  · rename_i hsplit
    rw [not_or] at hsplit
    exact .inr ⟨_, ending, hsplit.2, rfl⟩

theorem stem_subset (name : Text) : Files.stem name ⊆ name := by
  unfold Files.stem
  obtain hwhole | ⟨size, ending, -, hsplit⟩ := splitName_cases name
  · rw [hwhole]
    exact List.Subset.refl name
  · rw [hsplit]
    exact List.take_subset _ _

theorem stem_ne_nil (h : isTemplateName name = true) : Files.stem name ≠ [] := by
  unfold Files.stem
  unfold isTemplateName Files.suffix at h
  obtain hwhole | ⟨size, ending, hne, hsplit⟩ := splitName_cases name
  · have hnone : decide (Text.lower [] = templateSuffix) = false := by decide
    rw [hwhole, hnone] at h
    cases h
  · rwa [hsplit]

theorem ne_up_of_isTemplateName (h : isTemplateName name = true) : name ≠ Path.up := by
  rintro rfl
  revert h
  decide

theorem targetName_ne_up (name : Text) : targetName name ≠ Path.up := by
  intro h
  have hlast : some 'l' = some '.' := by
    calc some 'l'
      _ = (targetName name).getLast? := by
        unfold targetName targetSuffix
        simp [List.getLast?_append]
      _ = some '.' := by rw [h]; rfl
  revert hlast
  decide

/-! ## What becomes of one template -/

def targetPlace (directory : Place) (name : Text) : Place := directory ++ [targetName name]

theorem stem_eq_of_targetPlace_eq (h : targetPlace directory name = targetPlace directory other) :
    Files.stem name = Files.stem other := by
  rw [targetPlace, targetPlace, List.append_cancel_left_eq, List.cons.injEq] at h
  exact stem_eq_of_targetName_eq h.1

/-- The file that is there will do. -/
def Skipped (options : Options) (tree : Tree) (name : Text) : Prop :=
  options.force = false ∧
    isCurrent tree (options.source.child name) (options.target.child (targetName name)) = .ok true

def conversion (options : Options) (tree : Tree) (name : Text) : Except Failure Text := do
  let template ← (tree.readText (options.source.child name)).mapError .file
  (Template.Dialect.forum.convert (Text.trim template)).mapError .template

/-- The template is there, and a file can be where the one that it becomes has its place. -/
structure Convertible (options : Options) (tree : Tree) (directory : Place)
    (name : Text) : Prop where
  isTemplate : isTemplateName name = true
  source : tree.hasFile (options.source.child name) = .ok true
  isDirectory : tree.HasDirectory directory
  target : tree.placeOf (options.target.child (targetName name)) = .ok (targetPlace directory name)
  plain : ¬tree.HasDirectory (targetPlace directory name)

theorem convertFile_of_skipped (h : Skipped options tree name) (time : Int) :
    convertFile options tree time name = .ok none := by
  obtain ⟨hforce, hcurrent⟩ := h
  rw [convertFile, hforce, hcurrent]
  rfl

namespace Convertible

theorem isCurrent_ok (h : Convertible options tree directory name) :
    ∃ isDone, isCurrent tree (options.source.child name) (options.target.child (targetName name)) =
      .ok isDone := by
  obtain ⟨place, content, time, hplace, hat⟩ := Tree.placeOf_of_hasFile h.source
  have hsource := Tree.entry_eq_of_placeOf hplace
  have htarget := Tree.entry_eq_of_placeOf h.target
  rw [hat] at hsource
  unfold isCurrent Tree.hasEntry
  rcases htree : tree.at? (targetPlace directory name) with _ | entry
  · exact ⟨false, by rw [htarget, htree]; rfl⟩
  · exact ⟨_, by rw [htarget, htree, hsource]; rfl⟩

/-- A template that is not skipped is converted, and what it gives is written to its target. -/
theorem convertFile_eq (h : Convertible options tree directory name)
    (hnot : ¬Skipped options tree name) (time : Int) :
    convertFile options tree time name = (conversion options tree name).bind fun converted =>
      ((tree.writeText (options.target.child (targetName name)) converted time).mapError .file).map
        some := by
  obtain ⟨isDone, hcurrent⟩ := h.isCurrent_ok
  have hconvert : convertFile options tree time name = (do
      let template ← (tree.readText (options.source.child name)).mapError .file
      let converted ← (Template.Dialect.forum.convert (Text.trim template)).mapError .template
      let tree ← (tree.writeText (options.target.child (targetName name)) converted time).mapError
        .file
      pure (some tree)) := by
    cases hforce : options.force
    · have hfalse : isDone = false := by
        cases isDone
        · rfl
        · exact absurd ⟨hforce, hcurrent⟩ hnot
      simp only [convertFile, hforce, hcurrent, hfalse]
      rfl
    · simp only [convertFile, hforce]
      rfl
  rw [hconvert, conversion]
  cases (tree.readText (options.source.child name)).mapError Failure.file with
  | error failure => rfl
  | ok template =>
    cases (Template.Dialect.forum.convert (Text.trim template)).mapError Failure.template <;> rfl

/-- A successful conversion changes the target place alone, and that place then holds the text. -/
theorem convertFile_ok (h : Convertible options tree directory name)
    (hnot : ¬Skipped options tree name) {text : Text}
    (htext : conversion options tree name = .ok text) (time : Int) :
    ∃ written, convertFile options tree time name = .ok (some written) ∧
      Tree.DiffersAt (· = targetPlace directory name) tree written ∧
      written.content? (targetPlace directory name) = some (Utf8.encode text) := by
  obtain ⟨written, hwrite, hdiffers, hcontent⟩ :=
    Tree.write_in_directory (Utf8.encode text) time h.target h.isDirectory h.plain
  refine ⟨written, ?_, hdiffers, hcontent⟩
  rw [h.convertFile_eq hnot, htext]
  simp only [Except.bind, Tree.writeText, hwrite]
  rfl

/-- A template is as it was, whatever files have been written. -/
theorem source_eq {places : Place → Prop} (h : Convertible options tree directory name)
    (hdiffers : Tree.DiffersAt places tree later)
    (hplaces : ∀ place, places place → ∃ other, Files.stem other ≠ [] ∧
      place = targetPlace directory other) :
    later.entry (options.source.child name) = tree.entry (options.source.child name) := by
  obtain ⟨place, content, time, hplace, hat⟩ := Tree.placeOf_of_hasFile h.source
  refine hdiffers.entry hplace (fun hwritten => ?_) ?_
  · obtain ⟨other, hstem, rfl⟩ := hplaces place hwritten
    obtain ⟨hlast, -⟩ :=
      Tree.getLast?_of_placeOf_child hplace (ne_up_of_isTemplateName h.isTemplate)
    rw [targetPlace, List.getLast?_concat, Option.some.injEq] at hlast
    have hnot := isTemplateName_targetName hstem
    rw [hlast, h.isTemplate] at hnot
    cases hnot
  · rintro ⟨changed, hdirectory⟩
    rw [hat] at hdirectory
    cases hdirectory

/-- The files of other templates are neither this template nor the file that it becomes. -/
theorem entries_eq {places : Place → Prop} (h : Convertible options tree directory name)
    (hdiffers : Tree.DiffersAt places tree later)
    (hplaces : ∀ place, places place →
      ∃ other, Files.stem other ≠ [] ∧ Files.stem other ≠ Files.stem name ∧
      place = targetPlace directory other) :
    later.entry (options.source.child name) = tree.entry (options.source.child name) ∧
      later.entry (options.target.child (targetName name)) =
        tree.entry (options.target.child (targetName name)) := by
  constructor
  · refine h.source_eq hdiffers fun place hwritten => ?_
    obtain ⟨other, hstem, -, heq⟩ := hplaces place hwritten
    exact ⟨other, hstem, heq⟩
  · refine hdiffers.entry h.target (fun hwritten => ?_) h.plain
    obtain ⟨other, -, hother, heq⟩ := hplaces _ hwritten
    exact hother (stem_eq_of_targetPlace_eq heq).symm

/-- What becomes of a template does not hang on what became of others. -/
theorem of_differsAt {places : Place → Prop} (h : Convertible options tree directory name)
    (hdiffers : Tree.DiffersAt places tree later)
    (hplaces : ∀ place, places place →
      ∃ other, Files.stem other ≠ [] ∧ Files.stem other ≠ Files.stem name ∧
      place = targetPlace directory other) :
    Convertible options later directory name ∧
      (Skipped options later name ↔ Skipped options tree name) ∧
      conversion options later name = conversion options tree name := by
  obtain ⟨hsource, htarget⟩ := h.entries_eq hdiffers hplaces
  have hplace : ¬places (targetPlace directory name) := by
    intro hwritten
    obtain ⟨other, -, hother, heq⟩ := hplaces _ hwritten
    exact hother (stem_eq_of_targetPlace_eq heq).symm
  refine ⟨⟨h.isTemplate, ?_, hdiffers.directory h.isDirectory,
    hdiffers.placeOf h.target, ?_⟩, ?_, ?_⟩
  · rw [Tree.hasFile, hsource, ← Tree.hasFile, h.source]
  · exact mt (hdiffers.hasDirectory_iff hplace).1 h.plain
  · simp only [Skipped, isCurrent, Tree.hasEntry, hsource, htarget]
  · simp only [conversion, Tree.readText, Tree.read, hsource]

end Convertible

/-! ## The templates one after the other -/

/-- The files of the templates hold what these are converted to, except for those that are skipped,
and all other files are as they were. -/
structure Converted (options : Options) (tree : Tree) (directory : Place) (names : List Text)
    (later : Tree) : Prop where
  differs : Tree.DiffersAt (fun place => ∃ name ∈ names, ¬Skipped options tree name ∧
    place = targetPlace directory name) tree later
  written : ∀ name ∈ names, ¬Skipped options tree name →
    ∀ text, conversion options tree name = .ok text →
    later.content? (targetPlace directory name) = some (Utf8.encode text)

def outcome (result : Run × Tree) : Ending × Tree := (result.1.ending, result.2)

section Steps

variable {clock : Nat → Int} {step : Nat} {names rest : List Text}

theorem outcome_convertAll_of_none (h : convertFile options tree (clock step) name = .ok none) :
    outcome (convertAll options clock tree step (name :: names)) =
      outcome (convertAll options clock tree (step + 1) names) := by
  rw [convertAll, h]
  rfl

theorem outcome_convertAll_of_some
    (h : convertFile options tree (clock step) name = .ok (some later)) :
    outcome (convertAll options clock tree step (name :: names)) =
      outcome (convertAll options clock later (step + 1) names) := by
  rw [convertAll, h]
  rfl

theorem outcome_convertAll_of_error {failure : Failure}
    (h : convertFile options tree (clock step) name = .error failure) :
    outcome (convertAll options clock tree step (name :: names)) =
      ((stop name failure).ending, tree) := by
  rw [convertAll, h]
  rfl

theorem Converted.of_skipped (h : Converted options tree directory names later)
    (hskipped : Skipped options tree name) :
    Converted options tree directory (name :: names) later where
  differs := h.differs.mono fun _ ⟨other, hother, hplace⟩ =>
    ⟨other, List.mem_cons_of_mem name hother, hplace⟩
  written := by
    intro other hother hnot
    obtain rfl | hother := List.mem_cons.1 hother
    · exact absurd hskipped hnot
    · exact h.written other hother hnot

theorem Converted.of_written {written : Tree} {text : Text}
    (h : Converted options written directory names later) (hnot : ¬Skipped options tree name)
    (htext : conversion options tree name = .ok text)
    (hdiffers : Tree.DiffersAt (· = targetPlace directory name) tree written)
    (hcontent : written.content? (targetPlace directory name) = some (Utf8.encode text))
    (hstem : Files.stem name ∉ names.map Files.stem)
    (hsame : ∀ other ∈ names, (Skipped options written other ↔ Skipped options tree other) ∧
      conversion options written other = conversion options tree other) :
    Converted options tree directory (name :: names) later where
  differs := by
    refine (hdiffers.mono ?_).trans (h.differs.mono ?_)
    · rintro place rfl
      exact ⟨name, List.mem_cons_self, hnot, rfl⟩
    · rintro place ⟨other, hother, hskipped, rfl⟩
      exact ⟨other, List.mem_cons_of_mem name hother, mt (hsame other hother).1.2 hskipped, rfl⟩
  written := by
    intro other hother hskipped converted hconverted
    obtain rfl | hmem := List.mem_cons.1 hother
    · have hlater :
          later.content? (targetPlace directory other) =
            written.content? (targetPlace directory other) := by
        refine h.differs.content? ?_
        rintro ⟨another, hanother, -, heq⟩
        exact hstem (stem_eq_of_targetPlace_eq heq ▸ List.mem_map_of_mem hanother)
      rw [htext, Except.ok.injEq] at hconverted
      rw [hlater, hcontent, hconverted]
    · obtain ⟨hiff, hconversion⟩ := hsame other hmem
      exact h.written other hmem (mt hiff.1 hskipped) converted (hconversion.trans hconverted)

/-- The templates that can be converted are converted, and the command goes on from there. -/
theorem convertAll_append (clock : Nat → Int) (step : Nat)
    (hready : ∀ name ∈ names ++ rest, Convertible options tree directory name)
    (hstems : ((names ++ rest).map Files.stem).Nodup)
    (hnames : ∀ name ∈ names, Skipped options tree name ∨
      ∃ text, conversion options tree name = .ok text) :
    ∃ later, Converted options tree directory names later ∧
      outcome (convertAll options clock tree step (names ++ rest)) =
        outcome (convertAll options clock later (step + names.length) rest) := by
  induction names generalizing tree step with
  | nil => exact ⟨tree, ⟨.refl tree, by simp⟩, rfl⟩
  | cons name names ih =>
    rw [List.cons_append, List.map_cons, List.nodup_cons] at hstems
    have hname := hready name List.mem_cons_self
    have hlength : step + (name :: names).length = step + 1 + names.length := by
      rw [List.length_cons]
      omega
    have hstep := hnames name List.mem_cons_self
    rw [List.forall_mem_cons] at hnames
    rw [hlength, List.cons_append]
    by_cases hskipped : Skipped options tree name
    · obtain ⟨later, hlater, houtcome⟩ := @ih tree (step + 1)
        (fun other hother => hready other (List.mem_cons_of_mem name hother)) hstems.2 hnames.2
      rw [outcome_convertAll_of_none (convertFile_of_skipped hskipped (clock step))]
      exact ⟨later, hlater.of_skipped hskipped, houtcome⟩
    · obtain ⟨text, htext⟩ := hstep.resolve_left hskipped
      obtain ⟨written, hwritten, hdiffers, hcontent⟩ :=
        hname.convertFile_ok hskipped htext (clock step)
      -- No other template sees what has been written.
      have hsame : ∀ other ∈ names ++ rest, Convertible options written directory other ∧
          (Skipped options written other ↔ Skipped options tree other) ∧
          conversion options written other = conversion options tree other := by
        intro other hother
        refine (hready other (List.mem_cons_of_mem name hother)).of_differsAt hdiffers
          fun place hplace => ?_
        refine ⟨name, stem_ne_nil hname.isTemplate, fun heq => hstems.1 ?_, hplace⟩
        exact heq ▸ List.mem_map_of_mem hother
      have hnext : ∀ other ∈ names,
          Skipped options written other ∨ ∃ text, conversion options written other = .ok text := by
        intro other hother
        obtain ⟨-, hiff, hconversion⟩ := hsame other (List.mem_append_left rest hother)
        rw [hiff, hconversion]
        exact hnames.2 other hother
      obtain ⟨later, hlater, houtcome⟩ :=
        @ih written (step + 1) (fun other hother => (hsame other hother).1) hstems.2 hnext
      rw [outcome_convertAll_of_some hwritten]
      refine ⟨later, hlater.of_written hskipped htext hdiffers hcontent ?_ ?_, houtcome⟩
      · exact fun hmem => hstems.1 (List.map_append ▸ List.mem_append_left _ hmem)
      · exact fun other hother => (hsame other (List.mem_append_left rest hother)).2

/-- When every name is skipped or converts, the pass over the batch goes through to its end. -/
theorem convertAll_all (clock : Nat → Int) (step : Nat)
    (hready : ∀ name ∈ names, Convertible options tree directory name)
    (hstems : (names.map Files.stem).Nodup)
    (hnames : ∀ name ∈ names, Skipped options tree name ∨
      ∃ text, conversion options tree name = .ok text) :
    ∃ later, Converted options tree directory names later ∧
      outcome (convertAll options clock tree step names) = (.exit 0, later) := by
  rw [← List.append_nil names] at hready hstems
  obtain ⟨later, hlater, houtcome⟩ := convertAll_append clock step hready hstems hnames
  rw [List.append_nil] at houtcome
  exact ⟨later, hlater, houtcome⟩

/-- The first template that fails does so in the tree with the files of those before it, too. -/
theorem Converted.convertFile_error {failure : Failure}
    (h : Converted options tree directory names later)
    (hready : ∀ other ∈ names ++ name :: rest, Convertible options tree directory other)
    (hstems : ((names ++ name :: rest).map Files.stem).Nodup) (hnot : ¬Skipped options tree name)
    (hfailure : conversion options tree name = .error failure) (time : Int) :
    convertFile options later time name = .error failure := by
  have hname := hready name (by simp)
  obtain ⟨hlater, hskipped, hconversion⟩ := hname.of_differsAt h.differs fun place hplace => by
    obtain ⟨other, hother, -, rfl⟩ := hplace
    refine ⟨other, stem_ne_nil (hready other (List.mem_append_left _ hother)).isTemplate,
      fun heq => ?_, rfl⟩
    rw [List.map_append, List.nodup_append] at hstems
    exact hstems.2.2 _ (List.mem_map_of_mem hother) _ (List.mem_map_of_mem List.mem_cons_self) heq
  rw [hlater.convertFile_eq (mt hskipped.1 hnot), hconversion, hfailure]
  rfl

end Steps

/-! ## The whole command -/

section Run

variable {path : Path} {made : Tree} {clock : Nat → Int} {names : List Text}

theorem templatesAmong_cons_ok {listed : List Text}
    (h : templatesAmong tree path (name :: listed) = .ok names) :
    ∃ isFile templates, tree.hasFile (path.child name) = .ok isFile ∧
      templatesAmong tree path listed = .ok templates ∧
      names = if isFile && isTemplateName name then name :: templates else templates := by
  obtain ⟨isFile, hfile, h⟩ := bind_eq_ok_iff.1 h
  obtain ⟨templates, hlisted, h⟩ := bind_eq_ok_iff.1 h
  exact ⟨isFile, templates, hfile, hlisted, (Except.ok.inj h).symm⟩

/-- The templates are those of the names that have the suffix and lead to a file. -/
theorem templatesAmong_spec {listed : List Text} (h : templatesAmong tree path listed = .ok names) :
    names.Sublist listed ∧
      ∀ name, name ∈ names ↔
        name ∈ listed ∧ tree.hasFile (path.child name) = .ok true ∧ isTemplateName name = true := by
  induction listed generalizing names with
  | nil =>
    cases h
    simp
  | cons name listed ih =>
    obtain ⟨isFile, templates, hfile, hlisted, rfl⟩ := templatesAmong_cons_ok h
    obtain ⟨hsublist, hmem⟩ := ih hlisted
    split
    · rename_i htemplate
      rw [Bool.and_eq_true] at htemplate
      refine ⟨hsublist.cons_cons name, fun other => ?_⟩
      rw [List.mem_cons, List.mem_cons, hmem]
      constructor
      · rintro (rfl | hother)
        · exact ⟨.inl rfl, by rw [hfile, htemplate.1], htemplate.2⟩
        · exact ⟨.inr hother.1, hother.2⟩
      · rintro ⟨rfl | hother, hrest⟩
        · exact .inl rfl
        · exact .inr ⟨hother, hrest⟩
    · rename_i htemplate
      refine ⟨hsublist.cons name, fun other => ?_⟩
      rw [hmem, List.mem_cons]
      constructor
      · exact fun hother => ⟨.inr hother.1, hother.2⟩
      · rintro ⟨rfl | hother, hthere, hname⟩
        · rw [hfile, Except.ok.injEq] at hthere
          rw [hthere, hname] at htemplate
          exact absurd rfl htemplate
        · exact ⟨hother, hthere, hname⟩

theorem templateNames_eq_ok_iff : templateNames tree path = .ok names ↔
    ∃ listed, tree.list path = .ok listed ∧ templatesAmong tree path listed = .ok names :=
  bind_eq_ok_iff

/-- The templates are in ascending order. -/
theorem templateNames_pairwise (h : templateNames tree path = .ok names) :
    names.Pairwise (· ≤ ·) := by
  obtain ⟨listed, hlist, hamong⟩ := templateNames_eq_ok_iff.1 h
  exact (Tree.list_pairwise hlist).sublist (templatesAmong_spec hamong).1

theorem outcome_run_of_lists {directory : Place} (hfound : tree.hasEntry options.source = .ok true)
    (hmakes : tree.ensureDirectories options.target (clock 0) = (made, .ok directory))
    (hlists : templateNames made options.source = .ok names) :
    outcome (run options clock tree) = outcome (convertAll options clock made 1 names) := by
  simp only [run, hfound, hmakes, convertDirectory]
  rw [hlists]
  cases names with
  | nil => rfl
  | cons name names => rfl

/-- The source directory and the templates in it, no two of one stem, and the directory for the
files that they become, as it is before the first of them is converted. -/
structure Batch (options : Options) (clock : Nat → Int) (tree made : Tree) (directory : Place)
    (names : List Text) : Prop where
  found : tree.hasEntry options.source = .ok true
  makes : tree.ensureDirectories options.target (clock 0) = (made, .ok directory)
  lists : templateNames made options.source = .ok names
  stems : (names.map Files.stem).Nodup
  plain : ∀ name ∈ names, ¬made.HasDirectory (targetPlace directory name)

/-- The first templates are done: the files of those that were not skipped hold what they are
converted to, and no other file has changed. -/
structure Settled (options : Options) (tree made : Tree) (directory : Place)
    (names done : List Text) (later : Tree) : Prop where
  written : ∀ name ∈ done, ¬Skipped options made name →
    ∀ text, conversion options made name = .ok text →
    later.content? (targetPlace directory name) = some (Utf8.encode text)
  skipped : ∀ name ∈ done, Skipped options made name →
    later.content? (targetPlace directory name) = tree.content? (targetPlace directory name)
  untouched : ∀ name ∈ names, name ∉ done →
    later.content? (targetPlace directory name) = tree.content? (targetPlace directory name)
  other : ∀ place, (∀ name ∈ names, place ≠ targetPlace directory name) →
    later.content? place = tree.content? place

namespace Batch

theorem isTemplate (h : Batch options clock tree made directory names) (hname : name ∈ names) :
    made.hasFile (options.source.child name) = .ok true ∧ isTemplateName name = true := by
  obtain ⟨listed, -, hlisted⟩ := templateNames_eq_ok_iff.1 h.lists
  exact (((templatesAmong_spec hlisted).2 name).1 hname).2

theorem convertible (h : Batch options clock tree made directory names)
    (hfits : ∀ name ∈ names, Tree.Fits (options.target.child (targetName name))) :
    ∀ name ∈ names, Convertible options made directory name := by
  intro name hname
  obtain ⟨-, htarget, hdirectory⟩ := Tree.ensureDirectories_ok h.makes
  obtain ⟨hsource, htemplate⟩ := h.isTemplate hname
  have hnull : '\x00' ∉ targetName name := by
    obtain ⟨place, -, -, hplace, -⟩ := Tree.placeOf_of_hasFile hsource
    obtain ⟨-, hnull⟩ := Tree.getLast?_of_placeOf_child hplace (ne_up_of_isTemplateName htemplate)
    intro hmem
    obtain hstem | hsuffix := List.mem_append.1 hmem
    · exact hnull (stem_subset name hstem)
    · revert hsuffix
      decide
  exact ⟨htemplate, hsource, hdirectory,
    Tree.placeOf_child htarget hdirectory hnull (targetName_ne_up name) (hfits name hname),
    h.plain name hname⟩

/-- Once the names in `done` are converted, the tree is settled as far as they go. -/
theorem settled (h : Batch options clock tree made directory names) {done : List Text}
    (hdone : done ⊆ names) (hconverted : Converted options made directory done later) :
    Settled options tree made directory names done later := by
  obtain ⟨hmade, -, -⟩ := Tree.ensureDirectories_ok h.makes
  -- A file is written only for a template that is done and not skipped.
  have hkept :
      ∀ place, (∀ name ∈ done, ¬Skipped options made name → place ≠ targetPlace directory name) →
      later.content? place = tree.content? place := by
    intro place hplace
    rw [hconverted.differs.content?, hmade.content?]
    rintro ⟨name, hname, hskipped, heq⟩
    exact hplace name hname hskipped heq
  have hinjective : ∀ name ∈ names, ∀ other ∈ names,
      targetPlace directory name = targetPlace directory other → name = other := by
    intro name hname other hother heq
    exact List.inj_on_of_nodup_map h.stems hname hother (stem_eq_of_targetPlace_eq heq)
  refine ⟨hconverted.written, ?_, ?_, ?_⟩
  · intro name hname hskipped
    refine hkept _ fun other hother hnot heq => hnot ?_
    exact hinjective name (hdone hname) other (hdone hother) heq ▸ hskipped
  · intro name hname hnot
    refine hkept _ fun other hother _ heq => hnot ?_
    exact hinjective name hname other (hdone hother) heq ▸ hother
  · exact fun place hplace => hkept place fun name hname _ => hplace name (hdone hname)

theorem outcome_run (h : Batch options clock tree made directory names) :
    outcome (run options clock tree) = outcome (convertAll options clock made 1 names) :=
  outcome_run_of_lists h.found h.makes h.lists

end Batch

/-- The command goes through the templates in ascending order up to the first one that is not
skipped and cannot be read or converted: all before it is done, and nothing behind it. A fault of
the template itself is answered. Without such a template all is done. -/
theorem run_settles (h : Batch options clock tree made directory names)
    (hfits : ∀ name ∈ names, Tree.Fits (options.target.child (targetName name))) :
    names.Pairwise (· ≤ ·) ∧
      (∀ done name rest failure, names = done ++ name :: rest →
        (∀ earlier ∈ done, Skipped options made earlier ∨
          ∃ text, conversion options made earlier = .ok text) →
        ¬Skipped options made name → conversion options made name = .error failure →
        Settled options tree made directory names done (run options clock tree).2 ∧
          ∀ fault, failure = .template fault → fault.isAboutTemplate = true →
            (run options clock tree).1.ending = .exit 1) ∧
      ((∀ name ∈ names, Skipped options made name ∨
          ∃ text, conversion options made name = .ok text) →
        Settled options tree made directory names names (run options clock tree).2 ∧
          (run options clock tree).1.ending = .exit 0) := by
  have hready := h.convertible hfits
  refine ⟨templateNames_pairwise h.lists, ?_, ?_⟩
  · rintro done name rest failure rfl hdone hskipped hfailure
    obtain ⟨later, hlater, houtcome⟩ := convertAll_append clock 1 hready h.stems hdone
    rw [outcome_convertAll_of_error (hlater.convertFile_error hready h.stems hskipped hfailure _),
      ← h.outcome_run, outcome, Prod.mk.injEq] at houtcome
    rw [houtcome.1, houtcome.2]
    refine ⟨h.settled (List.subset_append_left done _) hlater, ?_⟩
    rintro fault rfl habout
    rw [stop, if_pos habout]
  · intro hall
    obtain ⟨later, hlater, houtcome⟩ := convertAll_all clock 1 hready h.stems hall
    rw [← h.outcome_run, outcome, Prod.mk.injEq] at houtcome
    rw [houtcome.1, houtcome.2]
    exact ⟨h.settled (List.Subset.refl names) hlater, rfl⟩

end Run

/-! A directory with one template that can be converted and one that cannot, and a directory with a
template whose name has 255 octets, so that the name of its file has 256. -/

def sampleOptions : Options := ⟨⟨[], ["s"]⟩, ⟨[], ["t"]⟩, false, true⟩

def sampleTree (templates : List (Text × Text)) : Tree :=
  ⟨.ofPairs ((["s"], .directory 0) ::
    templates.map fun (name, template) => (["s", name], .file (Utf8.encode template) 0)), []⟩

def sampleMade (templates : List (Text × Text)) : Tree :=
  (sampleTree templates).add ["t"] (.directory 0)

def convertedAndFailing : List (Text × Text) := [("a.xsl", "x"), ("b.xsl", "<xsl:sort/>")]

def longName : Text := List.replicate 251 'n' ++ ".xsl".toList

theorem hasDirectory_iff_decide {tree : Tree} {place : Place} :
    tree.HasDirectory place ↔ (tree.at? place).any Files.Entry.isDirectory = true := by
  unfold Tree.HasDirectory
  rcases tree.at? place with _ | ⟨time⟩ | ⟨content, time⟩ <;> simp [Files.Entry.isDirectory]

theorem conversion_of_readText {template : Text}
    (h : tree.readText (options.source.child name) = .ok template) :
    conversion options tree name =
      (Template.Dialect.forum.convert (Text.trim template)).mapError .template := by
  rw [conversion, h]
  rfl

theorem batch_convertedAndFailing :
    Batch sampleOptions (fun _ => 0) (sampleTree convertedAndFailing)
      (sampleMade convertedAndFailing) ["t"] ["a.xsl", "b.xsl"] where
  found := by decide +kernel
  makes := rfl
  lists := by
    have hlist : (sampleMade convertedAndFailing).list sampleOptions.source =
        .ok (["a.xsl".toList, "b.xsl".toList].mergeSort) := rfl
    rw [templateNames, hlist, List.mergeSort_of_pairwise (by decide)]
    decide +kernel
  stems := by decide +kernel
  plain := by
    simp only [hasDirectory_iff_decide]
    decide +kernel

theorem batch_longName :
    Batch sampleOptions (fun _ => 0) (sampleTree [(longName, "x")]) (sampleMade [(longName, "x")])
      ["t"] [longName] where
  found := by decide +kernel
  makes := rfl
  lists := by decide +kernel
  stems := List.nodup_singleton _
  plain := by
    simp only [hasDirectory_iff_decide]
    decide +kernel

theorem run_settles_convertedAndFailing :
    Settled sampleOptions (sampleTree convertedAndFailing) (sampleMade convertedAndFailing) ["t"]
        ["a.xsl", "b.xsl"] ["a.xsl"]
        (run sampleOptions (fun _ => 0) (sampleTree convertedAndFailing)).2 ∧
      (run sampleOptions (fun _ => 0) (sampleTree convertedAndFailing)).1.ending = .exit 1 := by
  have hfits : ∀ name ∈ (["a.xsl", "b.xsl"] : List Text),
      Tree.Fits (sampleOptions.target.child (targetName name)) := by
    unfold Tree.Fits
    decide +kernel
  have hfirst :
      (sampleMade convertedAndFailing).readText (sampleOptions.source.child "a.xsl") = .ok "x" := by
    decide +kernel
  have hsecond : (sampleMade convertedAndFailing).readText (sampleOptions.source.child "b.xsl") =
      .ok "<xsl:sort/>" := by
    decide +kernel
  have hconverted : Template.Dialect.forum.convert (Text.trim "x".toList) = .ok "x" := by
    decide +kernel
  have hfailing : Template.Dialect.forum.convert (Text.trim "<xsl:sort/>".toList) =
      .error (.foreignElement "<xsl:sort/>") := by decide +kernel
  have hcurrent : isCurrent (sampleMade convertedAndFailing) (sampleOptions.source.child "b.xsl")
      (sampleOptions.target.child (targetName "b.xsl")) = .ok false := by decide +kernel
  have hdone : ∀ earlier ∈ (["a.xsl"] : List Text),
      Skipped sampleOptions (sampleMade convertedAndFailing) earlier ∨
        ∃ text, conversion sampleOptions (sampleMade convertedAndFailing) earlier = .ok text := by
    intro earlier hearlier
    rw [List.mem_singleton.1 hearlier, conversion_of_readText hfirst, hconverted]
    exact .inr ⟨"x", rfl⟩
  have hnot : ¬Skipped sampleOptions (sampleMade convertedAndFailing) "b.xsl" := by
    rintro ⟨-, hskipped⟩
    rw [hcurrent] at hskipped
    cases hskipped
  have hfailure : conversion sampleOptions (sampleMade convertedAndFailing) "b.xsl" =
      .error (.template (.foreignElement "<xsl:sort/>")) := by
    rw [conversion_of_readText hsecond, hfailing]
    rfl
  obtain ⟨-, hstops, -⟩ := run_settles batch_convertedAndFailing hfits
  obtain ⟨hsettled, hexit⟩ := hstops ["a.xsl"] "b.xsl" [] _ rfl hdone hnot hfailure
  exact ⟨hsettled, hexit _ rfl rfl⟩

/-- No file can have the name that a template of so long a name becomes, so the command fails,
although the template can be converted. -/
theorem run_fails_longName :
    Batch sampleOptions (fun _ => 0) (sampleTree [(longName, "x")]) (sampleMade [(longName, "x")])
      ["t"] [longName] ∧
    (∀ name ∈ [longName],
      conversion sampleOptions (sampleMade [(longName, "x")]) name = .ok "x") ∧
    (run sampleOptions (fun _ => 0) (sampleTree [(longName, "x")])).1.ending =
      .failed (.file (.access .tooLong)) := by
  have hread :
      (sampleMade [(longName, "x")]).readText (sampleOptions.source.child longName) = .ok "x" := by
    decide +kernel
  have hconverted : Template.Dialect.forum.convert (Text.trim "x".toList) = .ok "x" := by
    decide +kernel
  have hcurrent : isCurrent (sampleMade [(longName, "x")]) (sampleOptions.source.child longName)
      (sampleOptions.target.child (targetName longName)) = .error .tooLong := by decide +kernel
  refine ⟨batch_longName, ?_, ?_⟩
  · intro name hname
    rw [List.mem_singleton.1 hname, conversion_of_readText hread, hconverted]
    rfl
  · have hfile : convertFile sampleOptions (sampleMade [(longName, "x")]) 0 longName =
        .error (.file (.access .tooLong)) := by
      rw [convertFile]
      simp only [hcurrent]
      rfl
    exact congrArg Prod.fst (batch_longName.outcome_run.trans (outcome_convertAll_of_error hfile))

end LazyEmbed.Command.Convert
