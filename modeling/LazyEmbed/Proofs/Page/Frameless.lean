import LazyEmbed.Proofs.Page.Bracket
import LazyEmbed.Proofs.Page.Titled

/-!
# Pages without frames

In a page whose frames were replaced none begins, and none comes up when its placeholders get titles
or when the script is put behind it. Each of these is a change at one place that is tame: what
stands before the place goes on with a placeholder, with the same segment but for a title behind its
quotes, or with the script.
-/

namespace LazyEmbed.Page

open Title Title.Tag Placeholder

variable {text rest old new front inside addition page : Text}

/-! ### Placeholders in place of frames -/

def opening (attributes : Attributes) : Text :=
  Placeholder.front attributes ++ Placeholder.inside attributes

theorem render_append (attributes : Attributes) (rest : Text) :
    render attributes ++ rest = opening attributes ++ '>' :: ("</span>" ++ rest) := by
  rw [render_cut, opening]
  simp only [List.append_assoc, List.cons_append]

theorem not_mem_opening (attributes : Attributes) : '>' ∉ opening attributes := by
  have hnames : ∀ name ∈ attributeNames, IsInside name := fun name hname =>
    ⟨(isName_attributeNames name hname).not_mem rfl, (isName_attributeNames name hname).not_mem rfl⟩
  have hwritten : ∀ name ∈ attributeNames, '>' ∉ written attributes name := fun name hname =>
    (isInside_written (hnames name hname)).2
  have hspan : '>' ∉ ("<span" : Text) := by decide
  rw [opening, front_def]
  simp only [List.mem_append, not_or]
  refine ⟨⟨hspan, ?_, ?_, ?_, ?_⟩, (isInside_inside attributes).2⟩
  all_goals exact hwritten _ (by simp [attributeNames])

theorem opening_ne_closing (attributes : Attributes) (front : Text) :
    front ++ opening attributes ≠ "</iframe" := by
  intro heq
  have hletter : 's' ∉ ("</iframe" : Text) := by decide
  have hmem : 's' ∈ front ++ opening attributes := by
    rw [opening, front_def]
    exact List.mem_append_right front (List.mem_append_left _ (List.mem_append_left _ (by decide)))
  rw [heq] at hmem
  exact hletter hmem

theorem span_eq (rest : Text) : "</span>" ++ rest = "</span" ++ '>' :: rest := by
  have hclosing : ("</span>" : Text) = "</span" ++ ['>'] := by decide
  rw [hclosing, List.append_assoc, List.singleton_append]

theorem not_goesOn_span (rest : Text) : ¬GoesOn ("</span>" ++ rest) := by
  have hsegment : '>' ∉ ("</span" : Text) := by decide
  have hnone : ("</span" : Text) ≠ "</iframe" ∧ ¬("<iframe" : Text) <+: "</span" ∧
      ¬("<span" : Text) <+: "</span" := by
    decide
  rw [span_eq, GoesOn, Closes, Holds, Wraps, cut_iff hsegment, cut_iff hsegment, cut_iff hsegment]
  rintro (⟨h, -⟩ | ⟨h, -⟩ | ⟨h, -⟩)
  · exact hnone.1 h
  · exact hnone.2.1 h
  · exact hnone.2.2 h

theorem not_goesOn_render (attributes : Attributes) (hfront : '>' ∉ front) (rest : Text) :
    ¬GoesOn (front ++ (render attributes ++ rest)) := by
  have hsegment : '>' ∉ front ++ opening attributes := by
    rw [List.mem_append, not_or]
    exact ⟨hfront, not_mem_opening attributes⟩
  rw [render_append, ← List.append_assoc]
  exact not_goesOn_of_segment hsegment (opening_ne_closing attributes front) (not_goesOn_span rest)

theorem passes_render (attributes : Attributes) (rest : Text) :
    Frame.pattern.Passes (render attributes) rest := by
  have hrender : render attributes = opening attributes ++ ['>'] ++ "</span>" := by
    rw [← List.append_nil (render attributes), render_append]
    simp
  have hclosing : Frame.pattern.Passes "</span>" rest :=
    passes_of_misses (Text.misses_of_apart (by decide) rest) (Text.misses_of_apart (by decide) rest)
  rw [hrender]
  exact (passes_segment (not_mem_opening attributes) (not_goesOn_span rest)).append hclosing

/-- A text ends no template if the segment up to its first bracket has a quote. -/
theorem not_endsTemplate_of_quote {segment : Text} (hsegment : '>' ∉ segment)
    (hquote : '"' ∈ segment) (rest : Text) :
    ¬Frame.endsTemplate (segment ++ '>' :: rest) = true := by
  have hspan : '"' ∉ ("</span" : Text) := by decide
  have htemplate : '"' ∉ ("</template" : Text) := by decide
  rw [endsTemplate_iff, cut_iff hsegment, cut_iff hsegment]
  rintro (⟨rfl, -⟩ | ⟨⟨blanks, hblanks, rfl⟩, -⟩)
  · exact hspan hquote
  · rcases List.mem_append.1 hquote with hmem | hmem
    · exact absurd (hblanks _ hmem) (by decide)
    · exact htemplate hmem

theorem quote_mem_of_opens {segment : Text}
    (h : markedStart <+: segment ∨ wrapperStart <+: segment) : '"' ∈ segment := by
  have hmarker : '"' ∈ markAttribute := List.mem_append_right _ (by simp [marker_eq])
  have hquotes : '"' ∈ markedStart ∧ '"' ∈ wrapperStart :=
    ⟨List.mem_append_right _ hmarker, List.mem_append_right _ hmarker⟩
  rcases h with hbegins | hbegins
  · exact hbegins.mem hquotes.1
  · exact hbegins.mem hquotes.2

theorem not_endsTemplate_of_reads {frame : Frame} (h : Reads text frame rest) {last : Text}
    (hlast : '>' ∉ last) : ¬Frame.endsTemplate (last ++ text) = true := by
  have hsegment : ∃ segment behind, '>' ∉ segment ∧ '"' ∈ segment ∧
      text = segment ++ '>' :: behind := by
    cases h with
    | marked hsegment hopens _ => exact ⟨_, _, hsegment, quote_mem_of_opens (.inl hopens.1), rfl⟩
    | wrapped hsegment hopens _ _ _ =>
      exact ⟨_, _, hsegment, quote_mem_of_opens (.inr hopens.1), rfl⟩
  obtain ⟨segment, behind, hsegment, hquote, rfl⟩ := hsegment
  have hfree : '>' ∉ last ++ segment := by
    rw [List.mem_append, not_or]
    exact ⟨hlast, hsegment⟩
  rw [← List.append_assoc]
  exact not_endsTemplate_of_quote hfree (List.mem_append_right last hquote) behind

/-- The stretches of a wrapper and a placeholder. -/
theorem wrapped_append (segment inner : Text) (attributes : Attributes) (rest : Text) :
    (segment ++ '>' :: ("<span" ++ (inner ++ ['>'])) ++ render attributes) ++ rest =
      segment ++ '>' :: (("<span" ++ inner) ++ '>' :: (render attributes ++ rest)) := by
  simp only [List.append_assoc, List.cons_append, List.nil_append]

theorem not_mem_inner {inner : Text} (hinner : '>' ∉ inner) : '>' ∉ "<span" ++ inner := by
  simp [hinner]

theorem not_goesOn_inner {inner : Text} (hinner : '>' ∉ inner) (attributes : Attributes)
    (rest : Text) : ¬GoesOn (("<span" ++ inner) ++ '>' :: (render attributes ++ rest)) := by
  have hclosing : "<span" ++ inner ≠ "</iframe" := by
    intro heq
    have hbegins : ("<span" : Text) <+: "</iframe" := ⟨inner, heq⟩
    exact absurd hbegins (by decide)
  exact not_goesOn_of_segment (not_mem_inner hinner) hclosing
    (not_goesOn_render attributes List.not_mem_nil rest)

theorem tame_replaceFrame {frame : Frame} (h : Reads text frame rest) (behind : Text) :
    Tame text (replaceFrame frame ++ behind) := by
  have hold : ∀ last, '>' ∉ last → ¬Frame.endsTemplate (last ++ text) = true := fun last =>
    not_endsTemplate_of_reads h
  cases h with
  | @marked segment _ hsegment hopens hrest =>
    have hreplaced : replaceFrame ⟨[], segment ++ "></iframe>"⟩ ++ behind =
        opening (attributesOf (segment ++ "></iframe>")) ++ '>' :: ("</span>" ++ behind) :=
      render_append _ behind
    rw [hreplaced]
    exact tame_of_segment (not_mem_opening _) (fun last => opening_ne_closing _ last)
      (not_goesOn_span behind) hold
  | @wrapped segment inner inside _ hsegment hopens hinner hinside hrest =>
    have hclosing : ∀ last, last ++ segment ≠ "</iframe" := by
      intro last heq
      have hquote := List.mem_append_right last (quote_mem_of_opens (.inr hopens.1))
      have hnone : '"' ∉ ("</iframe" : Text) := by decide
      exact hnone (heq ▸ hquote)
    have hreplaced :
        replaceFrame ⟨segment ++ '>' :: ("<span" ++ (inner ++ ['>'])), Frame.elementText inside⟩ ++
          behind =
        segment ++ '>' :: (("<span" ++ inner) ++
          '>' :: (render (attributesOf (Frame.elementText inside)) ++ behind)) :=
      wrapped_append segment inner _ behind
    rw [hreplaced]
    exact tame_of_segment hsegment hclosing (not_goesOn_inner hinner _ behind) hold

/-- A placeholder holds no frame, also not one that begins in it and ends behind it. -/
theorem passes_replaceFrame {frame : Frame} (h : Reads text frame rest) (behind : Text) :
    Frame.pattern.Passes (replaceFrame frame) behind := by
  cases h with
  | marked => exact passes_render _ behind
  | @wrapped segment inner inside _ hsegment hopens hinner hinside hrest =>
    have hreplaced : replaceFrame ⟨segment ++ '>' :: ("<span" ++ (inner ++ ['>'])),
        Frame.elementText inside⟩ = (segment ++ ['>']) ++
          ((("<span" ++ inner) ++ ['>']) ++ render (attributesOf (Frame.elementText inside))) := by
      have hwrapped := wrapped_append segment inner (attributesOf (Frame.elementText inside)) []
      rw [List.append_nil, List.append_nil] at hwrapped
      refine hwrapped.trans ?_
      simp only [List.append_assoc, List.cons_append, List.nil_append]
    rw [hreplaced]
    apply Pattern.Passes.append
    · refine passes_segment hsegment ?_
      rw [List.append_assoc, List.append_assoc, List.singleton_append]
      exact not_goesOn_inner hinner _ behind
    apply Pattern.Passes.append
    · exact passes_segment (not_mem_inner hinner) (not_goesOn_render _ List.not_mem_nil behind)
    · exact passes_render _ behind

/-- No frame is left in a page in which all frames were replaced. -/
theorem passes_replaceFrames (page : Text) : Frame.pattern.Passes (replaceFrames page) [] := by
  induction page using Frame.pattern.stretchInduction with
  | clear page hpasses =>
    rw [replaceFrames, Pattern.replace_eq_self _ hpasses]
    exact hpasses
  | hit before text frame rest hpasses hrun ih =>
    have hreads := run_eq_some_iff.1 hrun
    have hreplace :
        replaceFrames (before ++ text) = before ++ (replaceFrame frame ++ replaceFrames rest) := by
      rw [replaceFrames, Pattern.replace_append hpasses, Pattern.replace_of_run_eq_some hrun,
        replaceFrames]
    rw [hreplace]
    apply Pattern.Passes.append
    · rw [List.append_nil]
      exact (tame_replaceFrame hreads _).passes_append hpasses
    · exact (passes_replaceFrame hreads _).append ih

/-! ### Titles in a page -/

theorem prefix_of_long {start more : Text} (h : start <+: front ++ more)
    (hlong : start.length ≤ front.length) :
    start <+: front := List.prefix_of_prefix_length_le h (List.prefix_append front more) hlong

/-- What opens a frame or a wrapper is settled before the attribute of an item ends. -/
theorem opens_of_long {more other : Text} (hlong : itemStart.length ≤ front.length) :
    (OpensFrame (front ++ more) → OpensFrame (front ++ other)) ∧
      (OpensWrapper (front ++ more) → OpensWrapper (front ++ other)) := by
  have hreach : markedStart.length ≤ itemStart.length ∧
      (markedStart ++ ['"']).length ≤ itemStart.length ∧
      wrapperStart.length < itemStart.length := by
    rw [itemStart_literal]
    unfold markedStart wrapperStart markAttribute marker
    repeat rw [String.toList_ofList]
    decide
  constructor
  · rintro ⟨hbegins, hnot⟩
    refine ⟨(prefix_of_long hbegins (hreach.1.trans hlong)).trans (List.prefix_append _ _),
      fun hquote => hnot ?_⟩
    exact (prefix_of_long hquote (hreach.2.1.trans hlong)).trans (List.prefix_append _ _)
  · rintro ⟨hbegins, -⟩
    refine ⟨(prefix_of_long hbegins (hreach.2.2.le.trans hlong)).trans (List.prefix_append _ _),
      fun heq => ?_⟩
    have hlength := congrArg List.length heq
    rw [List.length_append] at hlength
    omega

/-- A text without quotes that begins a text with one in its front begins the front. -/
theorem prefix_of_quote {start more : Text} (h : start <+: front ++ more) (hstart : '"' ∉ start)
    (hquote : '"' ∈ front) : start <+: front := by
  rcases List.prefix_or_prefix_of_prefix h (List.prefix_append front more) with hle | hle
  · exact hle
  · exact absurd (hle.mem hquote) hstart

section

variable (h : Milder old new) (hinside : IsInside inside) (haddition : IsInside addition)
include h hinside haddition

/-- A text behind the quotes of a segment makes no frame go on. -/
theorem milder_insert (hfront : '>' ∉ front) (hquote : '"' ∈ front) :
    Milder (front ++ (inside ++ '>' :: old)) (front ++ (addition ++ (inside ++ '>' :: new))) := by
  have hwords : '"' ∉ ("</iframe" : Text) ∧ '"' ∉ ("<iframe" : Text) ∧
      '"' ∉ ("<span" : Text) := by decide
  have hbefore : '>' ∉ front ++ inside := by simp [hfront, hinside.2]
  have hafter : '>' ∉ front ++ (addition ++ inside) := by simp [hfront, hinside.2, haddition.2]
  have hsame : ∀ {start : Text}, '"' ∉ start → start <+: front ++ (addition ++ inside) →
      start <+: front ++ inside :=
    fun hstart hbegins => (prefix_of_quote hbegins hstart hquote).trans (List.prefix_append _ _)
  rw [← List.append_assoc, ← List.append_assoc addition, ← List.append_assoc front]
  refine ⟨?_, ?_, ?_, fun hends => ?_⟩
  · rw [Closes, cut_iff hbefore, cut_iff hafter]
    rintro ⟨heq, -⟩
    exact absurd (List.mem_append_left _ hquote) (heq ▸ hwords.1)
  · rw [Holds, cut_iff hbefore, cut_iff hafter]
    exact And.imp (hsame hwords.2.1) h.closes
  · rw [Wraps, cut_iff hbefore, cut_iff hafter]
    exact And.imp (hsame hwords.2.2) h.holds
  · exact absurd hends (not_endsTemplate_of_quote hbefore (List.mem_append_left _ hquote) old)

theorem isFrame_insert (hfront : '>' ∉ front) (hlong : itemStart.length ≤ front.length)
    (hframe : IsFrame (front ++ (addition ++ (inside ++ '>' :: new)))) :
    IsFrame (front ++ (inside ++ '>' :: old)) := by
  have hbefore : '>' ∉ front ++ inside := by simp [hfront, hinside.2]
  have hafter : '>' ∉ front ++ (addition ++ inside) := by simp [hfront, hinside.2, haddition.2]
  rw [← List.append_assoc addition, ← List.append_assoc front, isFrame_iff, cut_iff hafter,
    cut_iff hafter] at hframe
  rw [← List.append_assoc, isFrame_iff, cut_iff hbefore, cut_iff hbefore]
  exact hframe.imp (And.imp (opens_of_long hlong).1 h.closes)
    (And.imp (opens_of_long hlong).2 h.wraps)

end

/-- Where a tag is, a bracket that opens something stands far before the end of its attributes. -/
theorem length_of_suffix_head {tag : Tag} (hfits : tag.Fits inside) {word before : Text}
    (h : '<' :: word <:+ before ++ tag.head) : itemStart.length ≤ ('<' :: word).length := by
  have hitem : '<' ∉ itemStart := isInside_start.2.1
  have hfar : itemStart ++ (tag.media ++ ['"']) <:+ tag.head := by
    rw [← List.append_nil tag.head, head_append]
    exact ⟨siteStart ++ (tag.site ++ '"' :: tag.between), by simp⟩
  rcases List.suffix_or_suffix_of_suffix h (hfar.trans (List.suffix_append before _)) with hle | hle
  · have hmem : '<' ∈ itemStart ++ (tag.media ++ ['"']) := hle.mem List.mem_cons_self
    simp [hitem, hfits.media.not_mem.2.1] at hmem
  · have hlength := hle.length_le
    rw [List.length_append] at hlength
    omega

theorem quote_mem_head (tag : Tag) : '"' ∈ tag.head := by
  have hquote : '"' ∈ siteStart := by simp [siteStart_eq]
  rw [← List.append_nil tag.head, head_append]
  exact List.mem_append_left _ hquote

theorem not_mem_head {tag : Tag} (hfits : tag.Fits inside) : '>' ∉ tag.head := fun hmem =>
  hfits.not_mem (List.mem_append_left _ hmem)

/-- What begins before the end of the attributes of a tag is a frame only if it was one without the
text behind the attributes. -/
theorem isFrame_of_insert {tag : Tag} (hfits : tag.Fits inside) (haddition : IsInside addition)
    (h : Milder old new) {before : Text} (hsuffix : front <:+ before ++ tag.head) (hne : front ≠ [])
    (hfront : '>' ∉ front) (hframe : IsFrame (front ++ (addition ++ (inside ++ '>' :: new)))) :
    IsFrame (front ++ (inside ++ '>' :: old)) := by
  obtain ⟨c, word, rfl⟩ := List.exists_cons_of_ne_nil hne
  obtain rfl : c = '<' := by
    rcases starts_of_isFrame hframe with hbegins | hbegins
    · exact (List.cons_prefix_cons.1 hbegins).1.symm
    · exact (List.cons_prefix_cons.1 hbegins).1.symm
  exact isFrame_insert h hfits.free haddition hfront (length_of_suffix_head hfits hsuffix) hframe

/-- A title put into a tag keeps the text tame. -/
theorem tame_insert {tag : Tag} (hfits : tag.Fits inside) (haddition : IsInside addition)
    (h : Milder old new) :
    Tame (tag.head ++ (inside ++ '>' :: old)) (tag.head ++
      (addition ++ (inside ++ '>' :: new))) := by
  have hfree : ∀ {last : Text}, '>' ∉ last → '>' ∉ last ++ tag.head := fun hlast => by
    rw [List.mem_append, not_or]
    exact ⟨hlast, not_mem_head hfits⟩
  constructor
  · intro last hlast
    have hmilder :=
      milder_insert h hfits.free haddition (hfree hlast)
        (List.mem_append_right last (quote_mem_head tag))
    simpa only [List.append_assoc] using hmilder
  · rintro last hlast hpasses before after rfl hne
    have hnone := hpasses before after rfl hne
    rw [run_eq_none_iff, ← List.append_assoc] at hnone ⊢
    have hafter : '>' ∉ after := fun hmem => hlast (List.mem_append_right before hmem)
    exact fun hframe =>
      hnone
      (isFrame_of_insert hfits haddition h List.suffix_rfl (by simp [hne]) (hfree hafter) hframe)

/-- No frame comes up in a tag when a title is put into it. -/
theorem passes_insert {tag : Tag} (hfits : tag.Fits inside) (haddition : IsInside addition)
    (h : Milder old new) (hpasses : Frame.pattern.Passes (tag.head ++ (inside ++ ['>'])) old) :
    Frame.pattern.Passes (tag.head ++ (addition ++ (inside ++ ['>']))) new := by
  apply Pattern.Passes.append
  · intro before after heq hne
    have hnone := hpasses.left before after heq hne
    rw [run_eq_none_iff] at hnone ⊢
    simp only [List.append_assoc, List.singleton_append] at hnone ⊢
    have hsuffix : after <:+ [] ++ tag.head := heq ▸ List.suffix_append before after
    have hafter : '>' ∉ after := fun hmem => not_mem_head hfits (hsuffix.mem hmem)
    exact fun hframe => hnone (isFrame_of_insert hfits haddition h hsuffix hne hafter hframe)
  · have hless : '<' ∉ addition ++ (inside ++ ['>']) := by simp [haddition.1, hfits.free.1]
    exact passes_of_misses (Text.misses_of_not_mem hless) (Text.misses_of_not_mem hless)

/-- Titles let no frame come up in a page. -/
theorem milder_retitle (titles : Titles) (huntitled : Untitled page) :
    Milder page (retitle titles page) ∧
    (Frame.pattern.Passes page [] → Frame.pattern.Passes (retitle titles page) []) := by
  induction page using titleInduction with
  | clear page hpasses =>
    rw [retitle, Pattern.replace_eq_self _ hpasses]
    exact ⟨.refl page, id⟩
  | tag before tag inside left hfits hpasses ih =>
    obtain ⟨-, -, -, hleft⟩ := untitled_parts hfits huntitled
    obtain ⟨hmilder, hkeeps⟩ := ih hleft
    have haddition := isInside_addition titles tag
    have htame := tame_insert hfits haddition hmilder
    rw [retitle_step hfits hpasses huntitled]
    refine ⟨htame.milder_append before, fun hpage => ?_⟩
    have hcut : ∀ middle rest : Text, tag.head ++ (middle ++ (inside ++ '>' :: rest)) =
        (tag.head ++ (middle ++ (inside ++ ['>']))) ++ rest := by simp
    have hbehind := hpage.right
    have hwhole := hcut [] left
    rw [List.nil_append, List.nil_append] at hwhole
    rw [hwhole] at hbehind
    apply Pattern.Passes.append
    · rw [List.append_nil]
      refine htame.passes_append ?_
      have hbefore := hpage.left
      rwa [List.append_nil] at hbefore
    · rw [hcut]
      apply Pattern.Passes.append
      · refine passes_insert hfits haddition ?_ hbehind.left
        rwa [List.append_nil, List.append_nil]
      · exact hkeeps hbehind.right

end LazyEmbed.Page
