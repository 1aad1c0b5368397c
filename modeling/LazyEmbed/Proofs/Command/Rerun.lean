import LazyEmbed.Proofs.Command.Convert
import LazyEmbed.Proofs.Files.Listing

/-!
# Converting once more

In a directory without any of the files that the templates become, nothing is skipped as long as no
two templates become one file, so whether conversion is forced makes no difference. Each file is
then written after its template was last changed. So another run finds all files current and leaves
the tree as it is, and a forced one writes what is there.
-/

namespace LazyEmbed.Command.Convert

open Files (Path Place Tree)

variable {options : Options} {tree made later : Tree} {directory : Place} {name : Text}
    {clock : Nat → Int} {step : Nat} {names rest : List Text}

/-! ## Nothing to skip -/

theorem Convertible.withForce (h : Convertible options tree directory name) (force : Bool) :
    Convertible { options with force := force } tree directory name :=
  ⟨h.isTemplate, h.source, h.isDirectory, h.target, h.plain⟩

/-- Where no file is, none is current. -/
theorem Convertible.not_skipped (h : Convertible options tree directory name)
    (hnone : tree.at? (targetPlace directory name) = none) : ¬Skipped options tree name := by
  have hentry : tree.hasEntry (options.target.child (targetName name)) = .ok false := by
    rw [Tree.hasEntry, Tree.entry_eq_of_placeOf h.target, hnone]
  rintro ⟨-, hcurrent⟩
  rw [isCurrent, hentry] at hcurrent
  cases hcurrent

theorem Convertible.convertFile_force (h : Convertible options tree directory name)
    (hnone : tree.at? (targetPlace directory name) = none) (force : Bool) (time : Int) :
    convertFile { options with force := force } tree time name =
      convertFile options tree time name := by
  rw [h.convertFile_eq (h.not_skipped hnone),
    (h.withForce force).convertFile_eq ((h.withForce force).not_skipped hnone)]
  rfl

structure Fresh (options : Options) (tree : Tree) (directory : Place)
    (names : List Text) : Prop where
  convertible : ∀ name ∈ names, Convertible options tree directory name
  stems : (names.map Files.stem).Nodup
  none : ∀ name ∈ names, tree.at? (targetPlace directory name) = none

namespace Fresh

theorem withForce (h : Fresh options tree directory names) (force : Bool) :
    Fresh { options with force := force } tree directory names :=
  ⟨fun name hname => (h.convertible name hname).withForce force, h.stems, h.none⟩

theorem not_skipped (h : Fresh options tree directory names) :
    ∀ name ∈ names, ¬Skipped options tree name :=
  fun name hname => (h.convertible name hname).not_skipped (h.none name hname)

/-- The files of the other templates are not there either, once one is written. -/
theorem tail {written : Tree} (h : Fresh options tree directory (name :: names))
    (hdiffers : Tree.DiffersAt (· = targetPlace directory name) tree written) :
    Fresh options written directory names ∧
      ∀ other ∈ names, conversion options written other = conversion options tree other := by
  obtain ⟨hstem, hstems⟩ := List.nodup_cons.1 h.stems
  have hne : ∀ other ∈ names, Files.stem name ≠ Files.stem other := fun other hother heq =>
    hstem (heq ▸ List.mem_map_of_mem hother)
  have hsame : ∀ other ∈ names, Convertible options written directory other ∧
      (Skipped options written other ↔ Skipped options tree other) ∧
      conversion options written other = conversion options tree other := by
    intro other hother
    refine (h.convertible other (List.mem_cons_of_mem name hother)).of_differsAt hdiffers
      fun place hplace => ?_
    exact ⟨name, stem_ne_nil (h.convertible name List.mem_cons_self).isTemplate,
      hne other hother, hplace⟩
  refine ⟨⟨fun other hother => (hsame other hother).1, hstems, fun other hother => ?_⟩,
    fun other hother => (hsame other hother).2.2⟩
  have hnone := h.none other (List.mem_cons_of_mem name hother)
  rw [hdiffers.other (fun heq => hne other hother (stem_eq_of_targetPlace_eq heq).symm) ?_, hnone]
  rintro ⟨time, hat⟩
  rw [hnone] at hat
  cases hat

/-- What becomes of the first template, whether conversion is forced or not. -/
theorem convertFile_head (h : Fresh options tree directory (name :: names)) (time : Int) :
    (∃ failure, conversion options tree name = .error failure ∧
      convertFile options tree time name = .error failure) ∨
      ∃ text written content, conversion options tree name = .ok text ∧
        convertFile options tree time name = .ok (some written) ∧
        Tree.DiffersAt (· = targetPlace directory name) tree written ∧
        written.at? (targetPlace directory name) = some (.file content time) := by
  have hname := h.convertible name List.mem_cons_self
  have hnot := h.not_skipped name List.mem_cons_self
  have hfile := hname.convertFile_eq hnot time
  cases hconversion : conversion options tree name with
  | error failure =>
    rw [hconversion] at hfile
    exact .inl ⟨failure, rfl, hfile⟩
  | ok text =>
    obtain ⟨written, hwritten, hdiffers, -⟩ := hname.convertFile_ok hnot hconversion time
    refine .inr ⟨text, written, Utf8.encode text, rfl, hwritten, hdiffers, ?_⟩
    rw [hconversion, hwritten] at hfile
    cases hwrite : tree.write (options.target.child (targetName name)) (Utf8.encode text) time with
    | error fault =>
      simp only [Except.bind, Tree.writeText, hwrite] at hfile
      cases hfile
    | ok found =>
      simp only [Except.bind, Tree.writeText, hwrite] at hfile
      cases hfile
      exact Tree.at?_of_write hname.target hwrite

/-- Into an empty directory a forced pass and one that is not forced do the same. -/
theorem outcome_convertAll_force (h : Fresh options tree directory names) (force : Bool) :
    outcome (convertAll { options with force := force } clock tree step names) =
      outcome (convertAll options clock tree step names) := by
  induction names generalizing tree step with
  | nil => rfl
  | cons name names ih =>
    have hforce :=
      (h.convertible name List.mem_cons_self).convertFile_force (h.none name List.mem_cons_self)
        force (clock step)
    obtain ⟨failure, -, hfile⟩ | ⟨text, written, content, -, hfile, hdiffers, -⟩ :=
      h.convertFile_head (clock step)
    · rw [outcome_convertAll_of_error hfile, outcome_convertAll_of_error (hforce.trans hfile)]
    · rw [outcome_convertAll_of_some hfile, outcome_convertAll_of_some (hforce.trans hfile)]
      exact ih (h.tail hdiffers).1

theorem stop_ne_exit (name : Text) (failure : Failure) : (stop name failure).ending ≠ .exit 0 := by
  unfold stop
  split
  · split
    · intro h
      cases h
    · intro h
      cases h
  · intro h
    cases h

/-- If the command ends well, all templates can be converted, and each file was last changed at one
of its steps. -/
theorem of_exit (h : Fresh options tree directory names)
    (hexit : (convertAll options clock tree step names).1.ending = .exit 0) :
    (∀ name ∈ names, ∃ text, conversion options tree name = .ok text) ∧
      ∀ name ∈ names, ∃ content count,
        (convertAll options clock tree step names).2.at? (targetPlace directory name) =
          some (.file content (clock count)) := by
  induction names generalizing tree step with
  | nil => simp
  | cons name names ih =>
    obtain ⟨failure, -, hfile⟩ | ⟨text, written, content, htext, hfile, hdiffers, hat⟩ :=
      h.convertFile_head (clock step)
    · have hstops : outcome (convertAll options clock tree step (name :: names)) =
          ((stop name failure).ending, tree) :=
        outcome_convertAll_of_error hfile
      have hending := congrArg Prod.fst hstops
      exact absurd (hending.symm.trans hexit) (stop_ne_exit name failure)
    · have hnext : outcome (convertAll options clock tree step (name :: names)) =
          outcome (convertAll options clock written (step + 1) names) :=
        outcome_convertAll_of_some hfile
      obtain ⟨hending, htree⟩ := Prod.mk.inj hnext
      rw [hending] at hexit
      rw [htree]
      obtain ⟨hfresh, hsame⟩ := h.tail hdiffers
      obtain ⟨htexts, hdates⟩ := ih hfresh hexit
      refine ⟨List.forall_mem_cons.2 ⟨⟨text, htext⟩, fun other hother => ?_⟩,
        List.forall_mem_cons.2 ⟨?_, hdates⟩⟩
      · rw [← hsame other hother]
        exact htexts other hother
      · -- The templates behind this one change other files.
        obtain ⟨later, hconverted, houtcome⟩ :=
          convertAll_all clock (step + 1) hfresh.convertible hfresh.stems fun other hother =>
            .inr (htexts other hother)
        have hlater : (convertAll options clock written (step + 1) names).2 = later :=
          congrArg Prod.snd houtcome
        refine ⟨content, step, ?_⟩
        rw [hlater, hconverted.differs.other ?_ ?_, hat]
        · rintro ⟨other, hother, -, heq⟩
          exact (List.nodup_cons.1 h.stems).1
            (stem_eq_of_targetPlace_eq heq ▸ List.mem_map_of_mem hother)
        · rintro ⟨time, hdirectory⟩
          rw [hat] at hdirectory
          cases hdirectory

end Fresh

/-! ## Everything to skip -/

theorem outcome_convertAll_of_skipped (h : ∀ name ∈ names, Skipped options tree name) :
    outcome (convertAll options clock tree step names) = (.exit 0, tree) := by
  induction names generalizing step with
  | nil => rfl
  | cons name names ih =>
    obtain ⟨hname, hnames⟩ := List.forall_mem_cons.1 h
    rw [outcome_convertAll_of_none (convertFile_of_skipped hname (clock step))]
    exact ih hnames

theorem exists_hasFile_of_templatesAmong {path : Path} {listed : List Text}
    (h : templatesAmong tree path listed = .ok names) :
    ∀ name ∈ listed, ∃ isFile, tree.hasFile (path.child name) = .ok isFile := by
  induction listed generalizing names with
  | nil => simp
  | cons name listed ih =>
    obtain ⟨isFile, templates, hfile, hlisted, rfl⟩ := templatesAmong_cons_ok h
    exact List.forall_mem_cons.2 ⟨⟨isFile, hfile⟩, ih hlisted⟩

/-- The names of the templates are found again, as long as none of the names that are listed leads
elsewhere. -/
theorem templatesAmong_congr {path : Path} {listed : List Text}
    (h : templatesAmong tree path listed = .ok names)
    (hsame : ∀ name ∈ listed, (∃ isFile, later.hasFile (path.child name) = .ok isFile) ∧
      (isTemplateName name = true → later.hasFile (path.child name) =
        tree.hasFile (path.child name))) : templatesAmong later path listed = .ok names := by
  induction listed generalizing names with
  | nil => exact h
  | cons name listed ih =>
    obtain ⟨isFile, templates, hfile, hlisted, rfl⟩ := templatesAmong_cons_ok h
    obtain ⟨⟨⟨isNow, hnow⟩, hname⟩, hothers⟩ := List.forall_mem_cons.1 hsame
    rw [templatesAmong, ih hlisted hothers, hnow]
    simp only [bind, Except.bind, pure, Except.pure]
    cases htemplate : isTemplateName name with
    | false => simp
    | true =>
      rw [hname htemplate, hfile, Except.ok.injEq] at hnow
      rw [hnow]

/-! ## The whole command -/

namespace Batch

variable (h : Batch options clock tree made directory names)
include h

theorem withForce (force : Bool) :
    Batch { options with force := force } clock tree made directory names :=
  ⟨h.found, h.makes, h.lists, h.stems, h.plain⟩

theorem fresh (hfits : ∀ name ∈ names, Tree.Fits (options.target.child (targetName name)))
    (hempty : made.list options.target = .ok []) : Fresh options made directory names := by
  obtain ⟨-, htarget, -⟩ := Tree.ensureDirectories_ok h.makes
  exact ⟨h.convertible hfits, h.stems,
    fun name _ => Tree.at?_eq_none_of_list htarget hempty (targetName name)⟩

/-- Where the command has written files into another directory, it finds the same templates
again. -/
theorem again {places : Place → Prop} (hempty : made.list options.target = .ok [])
    (hdiffers : Tree.DiffersAt places made later)
    (hplaces : ∀ place, places place → ∃ name ∈ names, place = targetPlace directory name)
    (hplain : ∀ name ∈ names, ¬later.HasDirectory (targetPlace directory name)) (next : Nat → Int) :
    Batch options next later later directory names := by
  obtain ⟨-, htarget, hdirectory⟩ := Tree.ensureDirectories_ok h.makes
  obtain ⟨listed, hlist, hlists⟩ := templateNames_eq_ok_iff.1 h.lists
  obtain ⟨source, hsource, hthere, hlisted⟩ := Tree.list_eq_ok_iff.1 hlist
  -- A template is in the source directory, and nothing was in the other one.
  have hapart : ∀ name, ¬places (source ++ [name]) := by
    intro name hwritten
    obtain ⟨template, htemplate, heq⟩ := hplaces _ hwritten
    obtain ⟨rfl, -⟩ := List.append_inj' heq rfl
    have hmem := ((templatesAmong_spec hlists).1.subset htemplate)
    rw [hlisted, List.mem_mergeSort, Tree.mem_namesAt,
      Tree.at?_eq_none_of_list htarget hempty] at hmem
    cases hmem
  have hchild :
      ∀ name, later.placeOf (options.source.child name) =
        made.placeOf (options.source.child name) :=
    hdiffers.placeOf_child hsource hthere
  refine ⟨?_,
    Tree.ensureDirectories_of_there (hdiffers.placeOf htarget) (hdiffers.directory hdirectory) _,
    ?_, h.stems, hplain⟩
  · obtain ⟨time, hat⟩ := hdiffers.directory hthere
    rw [Tree.hasEntry, Tree.entry_eq_of_placeOf (hdiffers.placeOf hsource), hat]
  · have hlater : later.list options.source = .ok listed := by
      refine hdiffers.list hlist fun place hplace => ?_
      obtain rfl := Except.ok.inj (hsource.symm.trans hplace)
      exact hapart
    refine templateNames_eq_ok_iff.2 ⟨listed, hlater, ?_⟩
    refine templatesAmong_congr hlists fun name hname => ⟨?_, fun htemplate => ?_⟩
    · obtain ⟨isFile, hfile⟩ := exists_hasFile_of_templatesAmong hlists name hname
      exact Tree.exists_hasFile (hchild name) hfile
    · refine hdiffers.hasFile (hchild name) fun place hplace => ?_
      rw [Tree.eq_of_placeOf_child hsource (ne_up_of_isTemplateName htemplate) hplace]
      exact hapart name

end Batch

structure Done (options : Options) (made later : Tree) (directory : Place)
    (names : List Text) : Prop where
  converted : Converted options made directory names later
  texts : ∀ name ∈ names, ∃ text, conversion options made name = .ok text
  current : ∀ name ∈ names, ∃ entry content time,
    made.entry (options.source.child name) = .ok entry ∧
    later.at? (targetPlace directory name) = some (.file content time) ∧ entry.changed ≤ time

/-- A run into an empty directory that exits with 0 leaves every template of its batch done. -/
theorem Batch.done (h : Batch options clock tree made directory names)
    (hfits : ∀ name ∈ names, Tree.Fits (options.target.child (targetName name)))
    (hempty : made.list options.target = .ok [])
    (hexit : (run options clock tree).1.ending = .exit 0) (hclock : ∀ count, clock 0 ≤ clock count)
    (hpast : ∀ name ∈ names, ∀ entry, made.entry (options.source.child name) = .ok entry →
      entry.changed ≤ clock 0) : Done options made (run options clock tree).2 directory names := by
  have hfresh := h.fresh hfits hempty
  obtain ⟨hending, htree⟩ := Prod.mk.inj h.outcome_run
  rw [hending] at hexit
  rw [htree]
  obtain ⟨htexts, hdates⟩ := hfresh.of_exit hexit
  obtain ⟨later, hconverted, houtcome⟩ := convertAll_all clock 1 hfresh.convertible hfresh.stems
    fun name hname => .inr (htexts name hname)
  have hlater : (convertAll options clock made 1 names).2 = later := congrArg Prod.snd houtcome
  refine ⟨hlater ▸ hconverted, htexts, fun name hname => ?_⟩
  obtain ⟨content, count, hat⟩ := hdates name hname
  obtain ⟨place, template, time, hplace, hsource⟩ :=
    Tree.placeOf_of_hasFile (hfresh.convertible name hname).source
  have hentry := Tree.entry_eq_of_placeOf hplace
  rw [hsource] at hentry
  exact ⟨_, content, clock count, hentry, hat,
    Int.le_trans (hpast name hname _ hentry) (hclock count)⟩

namespace Done

variable (h : Done options made later directory names)
include h

theorem not_hasDirectory : ∀ name ∈ names, ¬later.HasDirectory (targetPlace directory name) := by
  intro name hname
  obtain ⟨-, content, time, -, hat, -⟩ := h.current name hname
  rintro ⟨changed, hdirectory⟩
  rw [hat] at hdirectory
  cases hdirectory

/-- Each template is as it was, and its file is current. -/
theorem skipped (hfresh : Fresh options made directory names) :
    (∀ name ∈ names, Skipped { options with force := false } later name) ∧
      ∀ name ∈ names, conversion options later name = conversion options made name := by
  have hsource : ∀ name ∈ names,
      later.entry (options.source.child name) = made.entry (options.source.child name) := by
    intro name hname
    refine (hfresh.convertible name hname).source_eq h.converted.differs ?_
    rintro place ⟨other, hother, -, rfl⟩
    exact ⟨other, stem_ne_nil (hfresh.convertible other hother).isTemplate, rfl⟩
  refine ⟨fun name hname => ⟨rfl, ?_⟩, fun name hname => ?_⟩
  · obtain ⟨entry, content, time, hentry, hat, hle⟩ := h.current name hname
    have htarget :=
      Tree.entry_eq_of_placeOf (h.converted.differs.placeOf (hfresh.convertible name hname).target)
    rw [hat] at htarget
    have hlater := (hsource name hname).trans hentry
    have hle : decide (entry.changed ≤ (Files.Entry.file content time).changed) = true :=
      decide_eq_true hle
    simp only [isCurrent, Tree.hasEntry, htarget, hlater, bind, Except.bind, pure,
      Except.pure, if_true, hle]
  · simp only [conversion, Tree.readText, Tree.read, hsource name hname]

end Done

/-- As long as no two templates become one file, a run into an empty directory is the same whether
conversion is forced or not. And after such a run that ends well, another one changes nothing, and a
forced one writes what is there. -/
theorem run_again (h : Batch options clock tree made directory names)
    (hfits : ∀ name ∈ names, Tree.Fits (options.target.child (targetName name)))
    (hempty : made.list options.target = .ok []) :
    (∀ force, outcome (run { options with force := force } clock tree) =
      outcome (run options clock tree)) ∧
    ((run options clock tree).1.ending = .exit 0 → (∀ count, clock 0 ≤ clock count) →
      (∀ name ∈ names, ∀ entry, made.entry (options.source.child name) = .ok entry →
        entry.changed ≤ clock 0) →
      ∀ next : Nat → Int,
        outcome (run { options with force := false } next (run options clock tree).2) =
          (.exit 0, (run options clock tree).2) ∧
        (run { options with force := true } next (run options clock tree).2).1.ending = .exit 0 ∧
        ∀ place,
          (run { options with force := true } next (run options clock tree).2).2.content? place =
            (run options clock tree).2.content? place) := by
  have hfresh := h.fresh hfits hempty
  refine ⟨fun force => ?_, fun hexit hclock hpast next => ?_⟩
  · rw [h.outcome_run, (h.withForce force).outcome_run, hfresh.outcome_convertAll_force force]
  · have hdone := h.done hfits hempty hexit hclock hpast
    generalize (run options clock tree).2 = later at hdone ⊢
    obtain ⟨hskipped, hsame⟩ := hdone.skipped hfresh
    have hagain :=
      h.again hempty hdone.converted.differs (fun place ⟨name, hname, _, hplace⟩ => ⟨name, hname,
        hplace⟩) hdone.not_hasDirectory next
    refine ⟨?_, ?_⟩
    · rw [(hagain.withForce false).outcome_run]
      exact outcome_convertAll_of_skipped hskipped
    · obtain ⟨-, -, hall⟩ := run_settles (hagain.withForce true) hfits
      have hforced : ∀ name, ¬Skipped { options with force := true } later name :=
        fun name hskipped => by
        cases hskipped.1
      have htexts : ∀ name ∈ names, ∃ text,
          conversion { options with force := true } later name = .ok text := by
        intro name hname
        obtain ⟨text, htext⟩ := hdone.texts name hname
        exact ⟨text, (hsame name hname).trans htext⟩
      obtain ⟨hsettled, hending⟩ := hall fun name hname => .inr (htexts name hname)
      refine ⟨hending, fun place => ?_⟩
      by_cases hplace : ∃ name ∈ names, place = targetPlace directory name
      · obtain ⟨name, hname, rfl⟩ := hplace
        obtain ⟨text, htext⟩ := hdone.texts name hname
        rw [hsettled.written name hname (hforced name) text ((hsame name hname).trans htext),
          hdone.converted.written name hname (hfresh.not_skipped name hname) text htext]
      · exact hsettled.other place fun name hname heq => hplace ⟨name, hname, heq⟩

theorem run_again_sample :
    outcome (run { sampleOptions with force := true } (fun _ => 0) (sampleTree [("a.xsl", "x")])) =
        outcome (run sampleOptions (fun _ => 0) (sampleTree [("a.xsl", "x")])) ∧
      outcome (run { sampleOptions with force := false } (fun _ => 1)
          (run sampleOptions (fun _ => 0) (sampleTree [("a.xsl", "x")])).2) =
        (.exit 0, (run sampleOptions (fun _ => 0) (sampleTree [("a.xsl", "x")])).2) := by
  have hbatch :
      Batch sampleOptions (fun _ => 0) (sampleTree [("a.xsl", "x")]) (sampleMade [("a.xsl", "x")])
        ["t"] ["a.xsl"] :=
    { found := by decide +kernel
      makes := rfl
      lists := by decide +kernel
      stems := List.nodup_singleton _
      plain := by
        simp only [hasDirectory_iff_decide]
        decide +kernel }
  have hfits : ∀ name ∈ (["a.xsl"] : List Text),
      Tree.Fits (sampleOptions.target.child (targetName name)) := by
    unfold Tree.Fits
    decide +kernel
  have hread : (sampleMade [("a.xsl", "x")]).readText (sampleOptions.source.child "a.xsl") =
      .ok "x" := by decide +kernel
  have hconverted : Template.Dialect.forum.convert (Text.trim "x".toList) = .ok "x" := by
    decide +kernel
  have hentry : (sampleMade [("a.xsl", "x")]).entry (sampleOptions.source.child "a.xsl") =
      .ok (.file (Utf8.encode "x") 0) := by decide +kernel
  obtain ⟨-, -, hall⟩ := run_settles hbatch hfits
  have hexit := (hall fun name hname => .inr ⟨"x", by
    rw [List.mem_singleton.1 hname, conversion_of_readText hread, hconverted]
    rfl⟩).2
  obtain ⟨hforce, hagain⟩ := run_again hbatch hfits (by decide +kernel)
  refine ⟨hforce true, (hagain hexit (fun _ => Int.le_refl 0) ?_ _).1⟩
  intro name hname entry h
  rw [List.mem_singleton.1 hname, hentry] at h
  rw [← Except.ok.inj h]
  exact Int.le_refl 0

def oneStem : List (Text × Text) := [("a.XSL", "x"), ("a.xsl", "y")]

/-- The file of the first template is current for the second one, which is skipped unless conversion
is forced. -/
theorem not_run_same :
    ¬∀ (options : Options) (clock : Nat → Int) (tree made : Tree) (directory : Place)
      (names : List Text), tree.hasEntry options.source = .ok true →
      tree.ensureDirectories options.target (clock 0) = (made, .ok directory) →
      templateNames made options.source = .ok names → made.list options.target = .ok [] →
      (∀ count, clock 0 ≤ clock count) →
      (∀ name ∈ names, ∀ entry, made.entry (options.source.child name) = .ok entry →
        entry.changed ≤ clock 0) →
      ∀ place, (run { options with force := false } clock tree).2.content? place =
        (run { options with force := true } clock tree).2.content? place := by
  intro h
  have hfound : (sampleTree oneStem).hasEntry sampleOptions.source = .ok true := by decide +kernel
  have hlists : templateNames (sampleMade oneStem) sampleOptions.source = .ok ["a.XSL",
      "a.xsl"] := by
    have hlist :
        (sampleMade oneStem).list sampleOptions.source =
          .ok (["a.XSL".toList, "a.xsl".toList].mergeSort) := rfl
    rw [templateNames, hlist, List.mergeSort_of_pairwise (by decide)]
    decide +kernel
  have hpast : ∀ name ∈ (["a.XSL", "a.xsl"] : List Text), ∀ entry,
      (sampleMade oneStem).entry (sampleOptions.source.child name) = .ok entry →
      entry.changed ≤ 0 := by
    have hall : ∀ name ∈ (["a.XSL", "a.xsl"] : List Text),
        ((sampleMade oneStem).entry (sampleOptions.source.child name)).map Files.Entry.changed =
          .ok 0 := by decide +kernel
    intro name hname entry hentry
    have hchanged := hall name hname
    rw [hentry] at hchanged
    exact Int.le_of_eq (Except.ok.inj hchanged)
  have hleft :
      (convertAll { sampleOptions with force := false } (fun _ => 0) (sampleMade oneStem) 1
        ["a.XSL", "a.xsl"]).2.content? ["t", "a.html"] = some (Utf8.encode "x") := by decide +kernel
  have hforced :
      (convertAll { sampleOptions with force := true } (fun _ => 0) (sampleMade oneStem) 1 ["a.XSL",
        "a.xsl"]).2.content? ["t", "a.html"] = some (Utf8.encode "y") := by decide +kernel
  have hsame :=
    h sampleOptions (fun _ => 0) (sampleTree oneStem) (sampleMade oneStem) ["t"] _ hfound rfl hlists
    (by decide +kernel) (fun _ => Int.le_refl 0) hpast ["t", "a.html"]
  have houtcome : ∀ force,
      outcome (run { sampleOptions with force := force } (fun _ => 0) (sampleTree oneStem)) =
        outcome (convertAll { sampleOptions with force := force } (fun _ => 0)
          (sampleMade oneStem) 1 ["a.XSL", "a.xsl"]) :=
    fun force => outcome_run_of_lists hfound rfl hlists
  have htree := fun force => congrArg Prod.snd (houtcome force)
  simp only [outcome] at htree
  rw [htree, htree, hleft, hforced] at hsame
  exact absurd hsame (by decide)

end LazyEmbed.Command.Convert
