import LazyEmbed.Proofs.Files.TextFile
import LazyEmbed.Proofs.Page.Alone
import LazyEmbed.Proofs.Text.LowerCase
import LazyEmbed.Site.Written

/-!
# What becomes of a written file

A call touches no file but the one that it is told of, and that one only if its text is to become
another. Then the file holds the deferred page. Without anybody to ask that is all that ever
happens: what is read again is what was written, since a deferred page has no carriage returns, and
the page is left as it is.
-/

namespace LazyEmbed.Site

open Files (Path Place Tree TextFault joinLineEnds)
open Title (attributeName)

structure Call where
  settings : Settings
  now : Int
  numbers : List Int

namespace Call

variable {call first : Call} {calls : List Call} {tree : Tree} {path : Path} {place : Place}
    {content : Octets} {changed : Int} {page text : Text} {fault : TextFault}

def IsOn (call : Call) : Prop := call.settings.values.isEnabled = true

def IsAlone (call : Call) : Prop := call.settings.store = none ∧ call.settings.service = none

def outcome (call : Call) (tree : Tree) (path : Path) : Except TextFault Outcome :=
  deferFile call.settings call.now call.numbers tree path

/-- The suffix of the last name is `.html`, where any letter may be a capital. -/
def HasPageSuffix (path : Path) : Prop := List.Forall₂ Text.Spells (Files.suffix path.name) ".html"

def deferred (call : Call) (page : Text) : Title.Outcome :=
  Page.deferWith (call.settings.host call.now) call.numbers page

/-- The tree after a call. A call that fails has changed nothing: it fails before anything is
written. -/
def after (call : Call) (tree : Tree) (path : Path) : Tree :=
  match call.outcome tree path with
  | .ok outcome => outcome.tree
  | .error _ => tree

def afterAll (calls : List Call) (tree : Tree) (path : Path) : Tree :=
  calls.foldl (fun tree call => call.after tree path) tree

/-! ## One call -/

theorem isPage_iff : isPage path = true ↔ HasPageSuffix path := by
  rw [isPage, decide_eq_true_eq]
  exact Text.lower_eq_iff (by decide)

theorem isTaken_iff :
    (call.settings.values.isEnabled && isPage path) = true ↔ call.IsOn ∧ HasPageSuffix path := by
  rw [Bool.and_eq_true, isPage_iff]
  rfl

theorem outcome_of_off (h : ¬(call.IsOn ∧ HasPageSuffix path)) :
    call.outcome tree path = .ok ⟨tree, false, []⟩ := by
  rw [outcome, deferFile, if_neg]
  · rfl
  · exact mt isTaken_iff.1 h

theorem outcome_of_unread (hon : call.IsOn) (hpage : HasPageSuffix path)
    (h : tree.readText path = .error fault) : call.outcome tree path = .error fault := by
  rw [outcome, deferFile, if_pos (isTaken_iff.2 ⟨hon, hpage⟩), h]
  rfl

theorem outcome_of_same (hon : call.IsOn) (hpage : HasPageSuffix path)
    (h : tree.readText path = .ok page) (hsame : (call.deferred page).page = page) :
    call.outcome tree path = .ok ⟨tree, false, (call.deferred page).events⟩ := by
  rw [outcome, deferFile, if_pos (isTaken_iff.2 ⟨hon, hpage⟩), h]
  change (if (call.deferred page).page = page then _ else _) = _
  rw [if_pos hsame]
  rfl

/-- A page the program changes is written once, at its own place and with the time of the call. -/
theorem outcome_of_other (hon : call.IsOn) (hpage : HasPageSuffix path)
    (hpath : tree.placeOf path = .ok place) (hfile : tree.at? place = some (.file content changed))
    (h : tree.readText path = .ok page) (hother : (call.deferred page).page ≠ page) :
    call.outcome tree path = .ok ⟨tree.withFile place (Utf8.encode (call.deferred page).page)
      call.now, true, (call.deferred page).events⟩ := by
  rw [outcome, deferFile, if_pos (isTaken_iff.2 ⟨hon, hpage⟩), h]
  change (if (call.deferred page).page = page then _ else _) = _
  rw [if_neg hother]
  change (tree.writeText path (call.deferred page).page call.now >>= _) = _
  rw [Tree.writeText_of_file hpath hfile]
  rfl

/-! ## Trees that stay -/

theorem after_of_off (h : ¬(call.IsOn ∧ HasPageSuffix path)) : call.after tree path = tree := by
  rw [after, outcome_of_off h]

theorem after_of_unread (h : tree.readText path = .error fault) : call.after tree path = tree := by
  by_cases hon : call.IsOn ∧ HasPageSuffix path
  · rw [after, outcome_of_unread hon.1 hon.2 h]
  · exact after_of_off hon

theorem after_of_same (h : tree.readText path = .ok page)
    (hsame : (call.deferred page).page = page) : call.after tree path = tree := by
  by_cases hon : call.IsOn ∧ HasPageSuffix path
  · rw [after, outcome_of_same hon.1 hon.2 h hsame]
  · exact after_of_off hon

theorem afterAll_eq_self (h : ∀ call ∈ calls, call.after tree path = tree) :
    afterAll calls tree path = tree := by
  induction calls with
  | nil => rfl
  | cons call calls ih =>
    obtain ⟨hcall, hcalls⟩ := List.forall_mem_cons.1 h
    rw [afterAll, List.foldl_cons, hcall]
    exact ih hcalls

theorem IsAlone.deferred_page (h : call.IsAlone) (page : Text) :
    (call.deferred page).page = Page.defer page := by
  have hhost : Page.IsAlone (call.settings.host call.now) := h
  exact Page.page_deferWith_alone hhost call.numbers page

/-! ## Calls with nobody to ask -/

/-- The page that a call wrote is read again and stays. -/
theorem afterAll_of_written (hpath : tree.placeOf path = .ok place)
    (hfile : tree.at? place = some (.file content changed)) (htitle : ¬attributeName <:+: page)
    (hbackground : ¬("-background:" : Text) <:+: page) (hreturn : '\r' ∉ page)
    (time : Int) (h : ∀ call ∈ calls, call.IsAlone) :
    afterAll calls (tree.withFile place (Utf8.encode (Page.defer page)) time) path =
      tree.withFile place (Utf8.encode (Page.defer page)) time := by
  have hread : (tree.withFile place (Utf8.encode (Page.defer page)) time).readText path =
      .ok (Page.defer page) := by
    rw [Tree.readText_of_file (Tree.placeOf_withFile hpath hfile _ _)
      (Tree.at?_withFile_self (Tree.ne_nil_of_file hfile)),
      Files.joinLineEnds_of_not_mem (Page.return_not_mem_defer htitle hbackground hreturn)]
  refine afterAll_eq_self fun call hcall => after_of_same hread ?_
  rw [(h call hcall).deferred_page, Page.defer_defer htitle hbackground]

/-- Calls behind the first change nothing, if the page says nothing of titles. -/
theorem afterAll_after (hpath : tree.placeOf path = .ok place)
    (hfile : tree.at? place = some (.file content changed)) (hfirst : first.IsAlone)
    (hclean : ∀ text, content = Utf8.encode text →
      ¬attributeName <:+: joinLineEnds text ∧ ¬("-background:" : Text) <:+: joinLineEnds text)
    (hcalls : ∀ call ∈ calls, call.IsAlone ∧ (call.IsOn → first.IsOn)) :
    afterAll calls (first.after tree path) path = first.after tree path := by
  by_cases hon : first.IsOn ∧ HasPageSuffix path
  · by_cases htext : ∃ text, content = Utf8.encode text
    · obtain ⟨text, rfl⟩ := htext
      obtain ⟨htitle, hbackground⟩ := hclean text rfl
      have hread := Tree.readText_of_file hpath hfile
      by_cases hsame : Page.defer (joinLineEnds text) = joinLineEnds text
      · rw [after_of_same hread (by rw [hfirst.deferred_page, hsame])]
        refine afterAll_eq_self fun call hcall => after_of_same hread ?_
        rw [(hcalls call hcall).1.deferred_page, hsame]
      · have hwritten :=
          outcome_of_other hon.1 hon.2 hpath hfile hread (by rwa [hfirst.deferred_page])
        rw [after, hwritten, hfirst.deferred_page]
        exact afterAll_of_written hpath hfile htitle hbackground (Files.not_mem_joinLineEnds text)
          _ fun call hcall =>
          (hcalls call hcall).1
    · obtain ⟨found, hread⟩ := Tree.readText_of_malformed hpath hfile fun text heq =>
          htext ⟨text, heq⟩
      rw [after_of_unread hread]
      exact afterAll_eq_self fun call _ => after_of_unread hread
  · rw [after_of_off hon]
    exact afterAll_eq_self fun call hcall => after_of_off fun hcallon =>
      hon ⟨(hcalls call hcall).2 hcallon.1, hcallon.2⟩

/-- A call changes the tree at most at the place of the file, and that only by writing the deferred
page: not at all if frames are not to be deferred or the file is no page, if its content is no text,
which is a fault, or if the text stays the same. Without anybody to ask, a page that neither speaks
of titles nor gives a background behind a hyphen is as after the first call, however often it is
called again. -/
theorem outcome_of_file (call : Call) (hpath : tree.placeOf path = .ok place)
    (hfile : tree.at? place = some (.file content changed)) :
    (∀ other, other ≠ place → (call.after tree path).at? other = tree.at? other) ∧
    (¬(call.IsOn ∧ HasPageSuffix path) → call.outcome tree path = .ok ⟨tree, false, []⟩) ∧
    (call.IsOn → HasPageSuffix path →
      ((∀ text, content ≠ Utf8.encode text) →
        ∃ found, call.outcome tree path = .error (.malformed found)) ∧
      ∀ text, content = Utf8.encode text →
        let page := joinLineEnds text
        let deferred := call.deferred page
        (deferred.page = page → call.outcome tree path = .ok ⟨tree, false, deferred.events⟩) ∧
        (deferred.page ≠ page →
          ∃ later, call.outcome tree path = .ok ⟨later, true, deferred.events⟩ ∧
            later.at? place = some (.file (Utf8.encode deferred.page) call.now))) ∧
    (call.IsAlone →
      (∀ text, content = Utf8.encode text →
        ¬attributeName <:+: joinLineEnds text ∧ ¬("-background:" : Text) <:+: joinLineEnds text) →
      ∀ calls : List Call, (∀ again ∈ calls, again.IsAlone ∧ (again.IsOn → call.IsOn)) →
        afterAll calls (call.after tree path) path = call.after tree path) := by
  refine ⟨fun other hother => ?_, outcome_of_off, fun hon hpage => ⟨fun hmalformed => ?_, ?_⟩,
    fun halone hclean calls hcalls =>
    afterAll_after hpath hfile halone hclean hcalls⟩
  · by_cases hon : call.IsOn ∧ HasPageSuffix path
    · cases hread : tree.readText path with
      | error fault => rw [after_of_unread hread]
      | ok page =>
        by_cases hsame : (call.deferred page).page = page
        · rw [after_of_same hread hsame]
        · rw [after, outcome_of_other hon.1 hon.2 hpath hfile hread hsame]
          exact Tree.at?_withFile_of_ne hother
    · rw [after_of_off hon]
  · obtain ⟨found, hread⟩ := Tree.readText_of_malformed hpath hfile hmalformed
    exact ⟨found, outcome_of_unread hon hpage hread⟩
  · rintro text rfl
    have hread := Tree.readText_of_file hpath hfile
    refine ⟨outcome_of_same hon hpage hread, fun hother => ?_⟩
    exact ⟨_, outcome_of_other hon hpage hpath hfile hread hother,
      Tree.at?_withFile_self (Tree.ne_nil_of_file hfile)⟩

/-! A page in a file whose suffix has upper-case letters; it has a frame, and its line ends with a
carriage return too. -/

def sampleText : Text := "<iframe data-s9e-mediaembed=\"x\"></iframe>\r\n"

def samplePath : Path := ⟨[], ["index.HTML"]⟩

def sampleTree : Tree := ⟨.ofPairs [(["index.HTML"], .file (Utf8.encode sampleText) 0)], []⟩

def sampleCall : Call := ⟨.default, 7, []⟩

theorem outcome_of_file_sample :
    sampleTree.placeOf samplePath = .ok ["index.HTML"] ∧
    sampleTree.at? ["index.HTML"] = some (.file (Utf8.encode sampleText) 0) ∧
    (∃ later events, sampleCall.outcome sampleTree samplePath = .ok ⟨later, true, events⟩ ∧
      later.at? ["index.HTML"] =
        some (.file (Utf8.encode (Page.defer (joinLineEnds sampleText))) 7)) ∧
    ∀ times,
      afterAll (List.replicate times sampleCall) (sampleCall.after sampleTree samplePath)
        samplePath = sampleCall.after sampleTree samplePath := by
  have hpath : sampleTree.placeOf samplePath = .ok ["index.HTML"] := by decide +kernel
  have hfile : sampleTree.at? ["index.HTML"] = some (.file (Utf8.encode sampleText) 0) := rfl
  have hpage : HasPageSuffix samplePath := isPage_iff.1 (by decide +kernel)
  have htext : sampleText = _ := String.toList_ofList
  have hother : (sampleCall.deferred (joinLineEnds sampleText)).page ≠ joinLineEnds sampleText := by
    rw [htext]
    decide +kernel
  have hclean : ¬attributeName <:+: joinLineEnds sampleText ∧
      ¬("-background:" : Text) <:+: joinLineEnds sampleText := by
    rw [htext]
    decide +kernel
  obtain ⟨-, -, hread, hagain⟩ := outcome_of_file sampleCall hpath hfile
  obtain ⟨later, hlater, hcontent⟩ := ((hread rfl hpage).2 sampleText rfl).2 hother
  refine ⟨hpath, hfile, ⟨later, _, hlater, hcontent⟩, fun times => hagain ⟨rfl, rfl⟩ ?_ _ ?_⟩
  · intro text htext
    rwa [← Utf8.encode_injective htext]
  · rintro again hmem
    rw [List.eq_of_mem_replicate hmem]
    exact ⟨⟨rfl, rfl⟩, id⟩

end Call

end LazyEmbed.Site
