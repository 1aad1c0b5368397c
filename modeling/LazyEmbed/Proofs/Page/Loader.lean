import LazyEmbed.Page.Loader
import LazyEmbed.Proofs.Page.Bracket
import LazyEmbed.Proofs.Page.Titled

/-!
# The script behind a page

The script holds neither the beginning of a frame nor that of a tag that can have a title, and no
tag of the page in front of it reaches over the opening bracket it begins with. So a page with the
script has the frames and the tags of the page without it.
-/

namespace LazyEmbed.Page

open Title Title.Tag

variable {text rest page : Text}

def openings : List Text := ["data-s9e-mediaembed-", ['<', 'i'], ['<', 's'], ['<', '/']]

def Avoids (source : String) : Prop :=
  ∀ word ∈ openings, ∀ rest, Text.Misses word source.toList rest

theorem avoids_append {first second : String} (hfirst : Avoids first) (hsecond : Avoids second) :
    Avoids (first ++ second) := by
  intro word hword rest
  rw [String.toList_append]
  exact (hfirst word hword _).append (hsecond word hword rest)

theorem avoids_of_apart {source : String} {text : Text} {words : List Text}
    (hwords : openings = words) (h : source = String.ofList text)
    (htext : words.all (Text.apart · text) = true) : Avoids source := by
  intro word hword rest
  rw [h, String.toList_ofList]
  exact Text.misses_of_apart (List.all_eq_true.1 htext word (hwords ▸ hword)) rest

theorem avoids_loaderSource : Avoids loaderSource := by
  -- Else every line of the script would have to decode the word again.
  have hwords : openings = [['d', 'a', 't', 'a', '-', 's', '9', 'e', '-', 'm', 'e', 'd', 'i', 'a',
      'e', 'm', 'b', 'e', 'd', '-'], ['<', 'i'], ['<', 's'], ['<', '/']] := by
    unfold openings
    rw [String.toList_ofList]
  unfold loaderSource
  iterate 39 refine avoids_append ?_ (avoids_of_apart hwords rfl (by decide +kernel))
  exact avoids_of_apart hwords rfl (by decide +kernel)

theorem append_ne_nil {first second : String} (h : second.toList ≠ []) :
    (first ++ second).toList ≠ [] := by
  rw [String.toList_append]
  exact List.append_ne_nil_of_right_ne_nil _ h

theorem loader_ne_nil : loader ≠ [] := by
  unfold loader loaderSource
  exact append_ne_nil (by rw [String.toList_ofList]; exact List.cons_ne_nil _ _)

/-- None of the openings stands at the beginning of the script. -/
theorem not_prefix_loader {word : Text} (hword : word ∈ openings) (rest : Text) :
    ¬word <+: loader ++ rest :=
  avoids_loaderSource word hword rest [] loader (List.nil_append loader).symm loader_ne_nil

/-- The script with its tags, by the first bracket. -/
theorem loaderElement_eq : loaderElement = "<script" ++ '>' :: (loader ++ "</script>") := by
  have hopening : ("<script>" : Text) = "<script" ++ ['>'] := by decide
  have hloader : loaderElement = ("<script" ++ ['>']) ++ loader ++ "</script>" :=
    congrArg (fun opening : Text => opening ++ loader ++ "</script>") hopening
  rw [hloader, List.append_assoc, List.append_assoc, List.singleton_append]

theorem starts_of_goesOn (h : GoesOn text) :
    ("</" : Text) <+: text ∨ ("<i" : Text) <+: text ∨ ("<s" : Text) <+: text := by
  have hwords : ("</" : Text) <+: "</iframe" ∧ ("<i" : Text) <+: "<iframe" ∧
      ("<s" : Text) <+: "<span" := by decide
  rcases h with ⟨segment, rest, -, rfl, -, rfl⟩ | ⟨segment, rest, -, hbegins, -, rfl⟩ | ⟨segment,
      rest, -, hbegins, -, rfl⟩
  · exact .inl (hwords.1.trans (List.prefix_append _ _))
  · exact .inr (.inl ((hwords.2.1.trans hbegins).trans (List.prefix_append _ _)))
  · exact .inr (.inr ((hwords.2.2.trans hbegins).trans (List.prefix_append _ _)))

theorem not_goesOn_loader : ¬GoesOn (loader ++ "</script>") := by
  intro h
  rcases starts_of_goesOn h with hbegins | hbegins | hbegins
  · exact not_prefix_loader (by simp [openings]) _ hbegins
  · exact not_prefix_loader (by simp [openings]) _ hbegins
  · exact not_prefix_loader (by simp [openings]) _ hbegins

/-- No frame goes on with the script. -/
theorem tame_loaderElement : Tame [] loaderElement := by
  have hclosing : ∀ last : Text, last ++ "<script" ≠ "</iframe" := by
    intro last heq
    have hletter : 's' ∉ ("</iframe" : Text) := by decide
    exact hletter (heq ▸ List.mem_append_right last (by decide))
  have hold : ∀ last : Text, '>' ∉ last → ¬Frame.endsTemplate (last ++ []) = true := by
    intro last hlast
    rw [List.append_nil, endsTemplate_iff]
    rintro (hcut | hcut)
    · exact not_cut hlast hcut
    · exact not_cut hlast hcut
  rw [loaderElement_eq]
  exact tame_of_segment (by decide) hclosing not_goesOn_loader hold

/-- The loader holds no frame. -/
theorem passes_loaderElement : Frame.pattern.Passes loaderElement [] := by
  have hscript : Frame.pattern.Passes "</script>" [] :=
    passes_of_misses (Text.misses_of_apart (by decide) []) (Text.misses_of_apart (by decide) [])
  have hloader : ∀ rest, Frame.pattern.Passes loader rest := by
    intro rest
    refine passes_of_misses ?_ ?_
    · exact (avoids_loaderSource ['<', 'i'] (by simp [openings]) rest).of_isPrefix (by decide)
    · exact (avoids_loaderSource ['<', 's'] (by simp [openings]) rest).of_isPrefix (by decide)
  have hsplit : loaderElement = ("<script" ++ ['>']) ++ (loader ++ "</script>") := by
    rw [loaderElement_eq, List.append_assoc, List.singleton_append]
  rw [hsplit]
  apply Pattern.Passes.append
  · rw [List.append_nil]
    exact passes_segment (by decide) not_goesOn_loader
  · exact (hloader _).append hscript

/-! ### Tags in front of the script -/

/-- No attribute of a tag that can have a title begins in the script. -/
theorem misses_loaderElement {start : Text} (h : ("data-s9e-mediaembed-" : Text) <+: start) :
    Text.Misses start loaderElement [] := by
  have hopening : ∀ rest, Text.Misses "data-s9e-mediaembed-" "<script>" rest :=
    Text.misses_of_apart (by decide)
  have hclosing : ∀ rest, Text.Misses "data-s9e-mediaembed-" "</script>" rest :=
    Text.misses_of_apart (by decide)
  have hloader : ∀ rest, Text.Misses "data-s9e-mediaembed-" loader rest :=
    avoids_loaderSource _ (by simp [openings])
  have hmisses : Text.Misses "data-s9e-mediaembed-" loaderElement [] :=
    ((hopening _).append (hloader _)).append (hclosing [])
  exact hmisses.of_isPrefix h

theorem passes_tag_loaderElement : Tag.pattern.Passes loaderElement [] :=
  Placeholder.beginsWith_siteStart.passes (misses_loaderElement (by decide))

/-- A tag that ends with the opening bracket of the script would have an opening bracket inside. -/
theorem head_ne_append_script {tag : Tag} {inside : Text} (hfits : tag.Fits inside) (text : Text) :
    tag.head ++ inside ≠ text ++ "<script" := by
  intro heq
  have hquote : '"' ∉ ("<script" : Text) := by decide
  have hbracket : '<' ∈ ("<script" : Text) := by decide
  have hscript : ("<script" : Text) <:+ tag.head ++ inside := heq ▸ List.suffix_append _ _
  have hinside : '"' :: inside <:+ tag.head ++ inside := by
    obtain ⟨front, hfront⟩ : ['"'] <:+ tag.head := List.suffix_append _ _
    exact ⟨front, by rw [← hfront, List.append_assoc, List.singleton_append]⟩
  rcases List.suffix_or_suffix_of_suffix hscript hinside with hle | hle
  · rcases List.mem_cons.1 (hle.mem hbracket) with hmem | hmem
    · exact absurd hmem (by decide)
    · exact hfits.free.1 hmem
  · exact hquote (hle.mem List.mem_cons_self)

theorem stopsAt_tag : Tag.pattern.reader.StopsAt loaderElement := by
  intro text
  cases hrun : Tag.pattern.reader.run text with
  | some found =>
    obtain ⟨tag, left⟩ := found
    obtain ⟨inside, hfits, rfl⟩ := Title.Tag.run_eq_some_iff.1 hrun
    refine Title.Tag.run_eq_some_iff.2 ⟨inside, hfits, ?_⟩
    simp only [List.append_assoc, List.cons_append]
  | none =>
    rw [Option.map_none, Option.eq_none_iff_forall_ne_some]
    rintro ⟨tag, left⟩ hlonger
    obtain ⟨inside, hfits, heq⟩ := Title.Tag.run_eq_some_iff.1 hlonger
    rw [← List.append_assoc] at heq
    obtain hfree | ⟨segment, behind, hsegment, rfl⟩ := eq_segment_or text
    · have hscript : '>' ∉ text ++ "<script" := by
        rw [List.mem_append, not_or]
        exact ⟨hfree, by decide⟩
      rw [loaderElement_eq, ← List.append_assoc] at heq
      obtain ⟨hsame, -⟩ := Text.append_cons_inj hscript hfits.not_mem heq
      exact head_ne_append_script hfits text hsame.symm
    · rw [List.append_assoc, List.cons_append] at heq
      obtain ⟨rfl, -⟩ := Text.append_cons_inj hsegment hfits.not_mem heq
      rw [List.append_assoc, Title.Tag.run_eq_some_iff.2 ⟨inside, hfits, rfl⟩] at hrun
      cases hrun

/-- The script has no titles, and takes none from the page. -/
theorem retitle_append_loaderElement (titles : Titles) (page : Text) :
    retitle titles (page ++ loaderElement) = retitle titles page ++ loaderElement := by
  rw [retitle, Pattern.replace_append_stop stopsAt_tag,
    Pattern.replace_eq_self _ passes_tag_loaderElement, retitle]

end LazyEmbed.Page
