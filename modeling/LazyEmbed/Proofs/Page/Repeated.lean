import LazyEmbed.Proofs.Page.Frameless
import LazyEmbed.Proofs.Page.Loader
import LazyEmbed.Proofs.Placeholder.Untitled

/-!
# Deferring a page again

A page that was deferred is the page with placeholders and the script, with titles put into it. It
has no frame any more, so nobody is asked anything when it is deferred again, and all that happens
then is that the titles go. What has to be kept in view is the marker: without it the page would not
be looked at, and the titles would stay.
-/

namespace LazyEmbed

theorem Text.isInfix_append_concat {word text rest : Text} {d : Char}
    (h : word ++ [d] <:+: text ++ d :: rest) (hword : d ∉ word) :
    word ++ [d] <:+: text ++ [d] ∨ word ++ [d] <:+: rest := by
  have hfront : ∀ front : Text, word ++ [d] <+: front ++ d :: rest →
      word ++ [d] <+: front ++ [d] := by
    intro front hbegins
    have hsplit : front ++ d :: rest = (front ++ [d]) ++ rest := (List.append_cons front d rest)
    rw [hsplit] at hbegins
    exact Text.prefix_of_mem hbegins hword (List.mem_append_right front (List.mem_singleton_self d))
  induction text with
  | nil =>
    rcases List.infix_cons_iff.1 h with hbegins | hlater
    · exact .inl (hfront [] hbegins).isInfix
    · exact .inr hlater
  | cons c text ih =>
    rcases List.infix_cons_iff.1 h with hbegins | hlater
    · exact .inl (hfront (c :: text) hbegins).isInfix
    · exact (ih hlater).imp_left fun hbegun => hbegun.trans (List.suffix_cons c _).isInfix

theorem Untold.append_bracket {text rest : Text} (htext : Untold (text ++ ['>']))
    (hrest : Untold rest) : Untold (text ++ '>' :: rest) := by
  intro c hblank hbegun
  have hword : '>' ∉ c :: Title.attributeName := by
    have hbracket : Text.isBlank '>' = false := by decide
    rw [List.mem_cons, not_or]
    refine ⟨?_, not_mem_attributeName rfl⟩
    rintro rfl
    rw [hbracket] at hblank
    cases hblank
  rcases Text.isInfix_append_cons hbegun hword with hleft | hright
  · exact htext c hblank (hleft.trans (List.prefix_append _ _).isInfix)
  · exact hrest c hblank hright

theorem Untold.untitled {text : Text} (h : Untold text) : Title.Tag.Untitled text :=
  fun c hblank hbegun =>
  h c hblank (List.IsInfix.trans ⟨[], ['=', '"'], by simp⟩ hbegun)

namespace Page

open Title Title.Tag Placeholder

variable {text rest page : Text} {frame : Frame}

/-- The page with placeholders in place of its frames, and with the script if there are any; the
titles are missing. -/
def deferred (page : Text) : Text :=
  replaceFrames page ++ if (frames page).isEmpty then [] else loaderElement

/-- In a page with the marker the frames are replaced, and the tags get the titles of the page's own
session. -/
theorem page_deferWith_marked (h : Text.contains marker page = true) (host : Host)
    (numbers : List Int) :
    (deferWith host numbers page).page =
      retitle ((sessionOf page).titlesWith host numbers) (deferred page) := by
  rw [deferWith, if_pos h, deferred]
  cases (frames page).isEmpty with
  | true =>
    rw [if_pos rfl, if_pos rfl, List.append_nil]
    rfl
  | false =>
    rw [if_neg Bool.false_ne_true, if_neg Bool.false_ne_true, retitle_append_loaderElement]
    rfl

theorem page_deferWith_unmarked (h : ¬Text.contains marker page = true) (host : Host)
    (numbers : List Int) : (deferWith host numbers page).page = page := by
  rw [deferWith, if_neg h]

/-! ### Frames -/

theorem passes_deferred (page : Text) : Frame.pattern.Passes (deferred page) [] := by
  unfold deferred
  split
  · rw [List.append_nil]
    exact passes_replaceFrames page
  · apply Pattern.Passes.append
    · rw [List.append_nil]
      exact tame_loaderElement.passes_append (passes_replaceFrames page)
    · exact passes_loaderElement

theorem elementText_append (inside rest : Text) :
    Frame.elementText inside ++ rest = "<iframe" ++ (inside ++ '>' :: ("</iframe>" ++ rest)) := by
  calc Frame.elementText inside ++ rest
      = ("<iframe" ++ inside) ++ ("></iframe>" ++ rest) := List.append_assoc _ _ _
    _ = "<iframe" ++ (inside ++ ("></iframe>" ++ rest)) := List.append_assoc _ _ _
    _ = "<iframe" ++ (inside ++ '>' :: ("</iframe>" ++ rest)) :=
      congrArg (fun behind : Text => "<iframe" ++ (inside ++ behind)) (closing_eq rest)

theorem text_of_reads (h : Reads text frame rest) :
    text = frame.wrapper ++ (frame.element ++ rest) := by
  cases h with
  | marked => rw [List.nil_append, List.append_assoc, closing_eq]
  | @wrapped segment inner inside _ =>
    rw [elementText_append]
    generalize ("<iframe" : Text) ++ (inside ++ '>' :: ("</iframe>" ++ rest)) = behind
    rw [List.append_assoc, List.cons_append, List.append_assoc, List.append_assoc,
      List.singleton_append]

/-! ### The marker -/

theorem marker_isInfix_of_opens {segment : Text}
    (h : markedStart <+: segment ∨ wrapperStart <+: segment) : marker <:+: segment := by
  have hframe : marker <:+ markedStart := (List.suffix_append _ _).trans (List.suffix_append _ _)
  have hwrapper : marker <:+ wrapperStart := (List.suffix_append _ _).trans (List.suffix_append _ _)
  rcases h with hbegins | hbegins
  · exact hframe.isInfix.trans hbegins.isInfix
  · exact hwrapper.isInfix.trans hbegins.isInfix

/-- A page without the marker has no frames. -/
theorem passes_of_unmarked (h : ¬marker <:+: page) : Frame.pattern.Passes page [] := by
  intro before after heq _
  rw [run_eq_none_iff, List.append_nil]
  intro hframe
  have hafter : marker <:+: after := marker_isInfix_of_opens (starts_of_isFrame hframe)
  exact h (hafter.trans (heq ▸ (List.suffix_append before after).isInfix))

theorem frames_eq_nil_of_unmarked (h : ¬marker <:+: page) : frames page = [] :=
  Pattern.hits_eq_nil (passes_of_unmarked h)

/-- The attributes of a marked frame begin with its mark. -/
theorem exists_hits_marked (more : Text) : ∃ value others,
    Attributes.pattern.hits (markedStart ++ more) = (markName, value) :: others := by
  have hsplit : markedStart = ['<'] ++ (("iframe" ++ [' ']) ++ (markName ++ ['=', '"'])) := by
    have hframe : ("<iframe" : Text) = ['<'] ++ "iframe" := by decide
    have hblank : markAttribute = [' '] ++ (markName ++ ['=', '"']) := congrArg (' ' :: ·) marker_eq
    exact (congrArg₂ (· ++ ·) hframe hblank).trans (by simp only [List.append_assoc])
  refine ⟨more.takeWhile (· ≠ '"'), Attributes.pattern.hits (more.dropWhile (· ≠ '"')), ?_⟩
  rw [hsplit, List.append_assoc, List.append_assoc,
    Pattern.hits_append (Attributes.passes_char (by decide) (by decide) _),
    Pattern.hits_append (Attributes.passes_word isNameChar_iframe (by decide) (by decide) _)]
  exact Pattern.hits_of_run_eq_some (Attributes.run_pattern isName_markName more)

theorem exists_mark {segment : Text} (h : OpensFrame segment) :
    ∃ value, (attributesOf (segment ++ "></iframe>")).get? markName = some value := by
  obtain ⟨more, rfl⟩ := h.1
  obtain ⟨value, others, hhits⟩ := exists_hits_marked (more ++ "></iframe>")
  rw [get?_attributesOf_itemName _ (by simp), Attributes.ofElement, Keyed.get?_ofPairs,
    List.append_assoc, hhits, List.filter_cons_of_pos (by simp), List.getLast?_cons,
    Option.map_some]
  exact ⟨_, rfl⟩

theorem marker_isInfix_render {attributes : Attributes} {value : Text}
    (h : attributes.get? markName = some value) : marker <:+: render attributes := by
  rw [render_cut, front_def, written_of_get? h, marker_eq]
  exact ⟨"<span" ++ [' '], Html.forDoubleQuotes value ++ ['"'] ++
    (written attributes ClickToLoad.siteName ++
    (written attributes ClickToLoad.backgroundName ++ written attributes ClickToLoad.mediaName)) ++
    (inside attributes ++ '>' :: "</span>"), by simp⟩

theorem marker_isInfix_replaceFrame (h : Reads text frame rest) :
    marker <:+: replaceFrame frame := by
  cases h with
  | marked hsegment hopens hrest =>
    obtain ⟨value, hvalue⟩ := exists_mark hopens
    exact marker_isInfix_render hvalue
  | wrapped hsegment hopens hinner hinside hrest =>
    have hwrapper := marker_isInfix_of_opens (.inr hopens.1)
    rw [replaceFrame, List.append_assoc]
    exact hwrapper.trans (List.prefix_append _ _).isInfix

theorem marker_isInfix_replaceFrames (h : marker <:+: page) : marker <:+: replaceFrames page := by
  obtain hpasses | ⟨before, behind, frame, rest, rfl, hpasses, hrun⟩ :=
    Frame.pattern.passes_or_exists page
  · rwa [replaceFrames, Pattern.replace_eq_self _ hpasses]
  · have hframe := marker_isInfix_replaceFrame (run_eq_some_iff.1 hrun)
    rw [replaceFrames, Pattern.replace_append hpasses, Pattern.replace_of_run_eq_some hrun,
      ← List.append_assoc]
    exact hframe.trans ((List.suffix_append _ _).isInfix.trans (List.prefix_append _ _).isInfix)

/-- Titles stand behind quotes, and the marker ends with its only quote; so no title tears it. -/
theorem marker_isInfix_retitle (titles : Titles) (huntitled : Untitled page)
    (h : marker <:+: page) : marker <:+: retitle titles page := by
  obtain ⟨word, hword, hmarker⟩ : ∃ word, '"' ∉ word ∧ marker = word ++ ['"'] := by
    refine ⟨markName ++ ['='], not_mem_nameStart isName_markName (by decide), ?_⟩
    rw [marker_eq, List.append_assoc]
    rfl
  induction page using titleInduction with
  | clear page hpasses => rwa [retitle, Pattern.replace_eq_self _ hpasses]
  | tag before tag inside left hfits hpasses ih =>
    obtain ⟨-, -, -, hleft⟩ := untitled_parts hfits huntitled
    obtain ⟨front, hfront⟩ : ∃ front, tag.head = front ++ ['"'] := ⟨_, rfl⟩
    have hparts : marker <:+: before ++ tag.head ∨ marker <:+: inside ++ '>' :: left := by
      rw [hfront] at h ⊢
      rw [hmarker, List.append_assoc, List.singleton_append, ← List.append_assoc] at h
      rw [hmarker, ← List.append_assoc]
      exact Text.isInfix_append_concat h hword
    rw [retitle_step hfits hpasses huntitled, ← List.append_assoc]
    rcases hparts with hhead | hbehind
    · exact hhead.trans (List.prefix_append _ _).isInfix
    · rcases Text.isInfix_append_cons hbehind (by decide) with hinside | hlater
      · exact hinside.trans ⟨before ++ tag.head ++ addition titles tag,
          '>' :: retitle titles left, by simp⟩
      · exact (ih hleft hlater).trans ⟨before ++ tag.head ++ addition titles tag ++ inside ++ ['>'],
          [], by simp⟩

theorem contains_marker_deferred (h : marker <:+: page) : marker <:+: deferred page :=
  (marker_isInfix_replaceFrames h).trans (List.prefix_append _ _).isInfix

/-! ### Titles -/

/-- Placeholders have no title attribute if their frames do not speak of any. -/
theorem untold_replaceFrames (htitle : ¬attributeName <:+: page)
    (hbackground : ¬("-background:" : Text) <:+: page) : Untold (replaceFrames page) := by
  induction page using Frame.pattern.stretchInduction with
  | clear page hpasses =>
    rw [replaceFrames, Pattern.replace_eq_self _ hpasses]
    exact untold_of_not_isInfix htitle
  | hit before text frame rest hpasses hrun ih =>
    have hparts : before ++ text = before ++ frame.wrapper ++ (frame.element ++ rest) := by
      rw [text_of_reads (run_eq_some_iff.1 hrun), List.append_assoc]
    rw [hparts] at htitle hbackground
    have hfront : before ++ frame.wrapper <:+: before ++ frame.wrapper ++ (frame.element ++ rest) :=
      (List.prefix_append _ _).isInfix
    have helement : frame.element <:+: before ++ frame.wrapper ++ (frame.element ++ rest) :=
      ⟨_, rest, List.append_assoc _ _ _⟩
    have hrest : rest <:+: before ++ frame.wrapper ++ (frame.element ++ rest) :=
      ⟨before ++ frame.wrapper ++ frame.element, [], by simp⟩
    have hsays := all_attributesOf (fun h => htitle (h.trans helement)) fun h =>
        hbackground (h.trans helement)
    have hplaced : Untold (before ++ frame.wrapper ++ ofFrame frame.element) :=
      (untold_of_not_isInfix fun h => htitle (h.trans hfront)).append (apart_render hsays).untold
        (apart_render hsays).head
    have hothers := ih (fun h => htitle (h.trans hrest)) fun h => hbackground (h.trans hrest)
    have hreplace : replaceFrames (before ++ text) =
        before ++ frame.wrapper ++ ofFrame frame.element ++ replaceFrames rest := by
      rw [replaceFrames, Pattern.replace_append hpasses, Pattern.replace_of_run_eq_some hrun,
        replaceFrame, replaceFrames]
      simp only [List.append_assoc]
    have hbracket :
        ofFrame frame.element = ("<span" ++ renderAttributes (attributesOf frame.element) ++ " " ++
        Payload.attributeName ++ "='" ++ Payload.render (attributesOf frame.element) ++
        "'></span") ++ ['>'] := by
      have hlast : ("'></span>" : Text) = "'></span" ++ ['>'] := by decide
      rw [List.append_assoc, ← hlast]
      rfl
    rw [hreplace]
    rw [hbracket, ← List.append_assoc] at hplaced ⊢
    rw [List.append_assoc _ ['>'], List.singleton_append]
    exact Untold.append_bracket hplaced hothers

theorem untold_loaderElement : Untold loaderElement := by
  intro c _ hbegun
  have hname : ("data-s9e-mediaembed-" : Text) <+: attributeName := by
    unfold attributeName
    rw [String.toList_ofList, String.toList_ofList]
    decide
  exact (misses_loaderElement hname).not_isInfix isName_titleName.1
    ((List.suffix_cons c _).isInfix.trans hbegun)

/-- Deferring a page that says nothing of titles writes none. -/
theorem untitled_deferred (htitle : ¬attributeName <:+: page)
    (hbackground : ¬("-background:" : Text) <:+: page) : Untitled (deferred page) := by
  have hreplaced := untold_replaceFrames htitle hbackground
  unfold deferred
  split
  · rw [List.append_nil]
    exact hreplaced.untitled
  · have hhead : ∀ c ∈ loaderElement.head?, c ∉ attributeName := by
      rw [loaderElement_eq]
      rintro c ⟨⟩
      exact not_mem_attributeName rfl
    exact (hreplaced.append untold_loaderElement hhead).untitled

/-- Where nothing was recorded no title is known, whoever is asked. -/
theorem titlesWith_start (host : Host) (numbers : List Int) :
    Session.start.titlesWith host numbers = .empty := by
  have hstore : Session.start.askStore host = (Session.start, []) := by
    unfold Session.askStore
    cases host.store <;> rfl
  have hnone : ∀ site media, ¬Session.start.candidates.Has site media :=
    fun _ _ => Candidates.not_has_empty
  rw [Session.titlesWith, hstore, Session.askService_of_no_candidate hnone]
  rfl

theorem retitle_empty (h : Untitled page) : retitle .empty page = page := by
  induction page using titleInduction with
  | clear page hpasses => rw [retitle, Pattern.replace_eq_self _ hpasses]
  | tag before tag inside left hfits hpasses ih =>
    obtain ⟨-, -, -, hleft⟩ := untitled_parts hfits h
    rw [retitle_step hfits hpasses h, ih hleft]
    rfl

/-- Deferring a page with nobody to ask gives it no titles. -/
theorem defer_marked (hmarker : Text.contains marker page = true)
    (huntitled : Untitled (deferred page)) : defer page = deferred page := by
  have hstore : (sessionOf page).titlesWith ⟨none, none, 0⟩ [] = (sessionOf page).titles := rfl
  have htitles : ∀ frames : List Frame, ∀ session : Session, session.titles = .empty →
      (frames.foldl (fun session frame => recordFrame session frame.element) session).titles =
        .empty := by
    intro frames
    induction frames with
    | nil => exact fun _ hsession => hsession
    | cons frame frames ih =>
      intro session hsession
      refine ih _ ?_
      change (recordFrame session frame.element).titles = .empty
      unfold recordFrame
      split
      · exact hsession
      · exact hsession
  rw [defer, page_deferWith_marked hmarker, hstore, sessionOf, htitles _ _ rfl,
    retitle_empty huntitled]

/-- A marked page is, once deferred, its placeholders with titles, and the titles are all that goes
when it is deferred again. -/
theorem deferWith_retitled (huntitled : Untitled (deferred page)) (hmarker : marker <:+: page)
    (titles : Titles) (host : Host) (numbers : List Int) :
    (deferWith host numbers (retitle titles (deferred page))).page = deferred page ∧
      frames (retitle titles (deferred page)) = [] := by
  have hpasses := (milder_retitle titles huntitled).2 (passes_deferred page)
  have hframes : frames (retitle titles (deferred page)) = [] := Pattern.hits_eq_nil hpasses
  have hkept := marker_isInfix_retitle titles huntitled (contains_marker_deferred hmarker)
  have hsame : deferred (retitle titles (deferred page)) = retitle titles (deferred page) := by
    rw [deferred, hframes, replaceFrames, Pattern.replace_eq_self _ hpasses]
    exact List.append_nil _
  have hsession : sessionOf (retitle titles (deferred page)) = .start := by
    rw [sessionOf, hframes]
    rfl
  refine ⟨?_, hframes⟩
  rw [page_deferWith_marked (Text.contains_iff.2 hkept), hsame, hsession, titlesWith_start,
    retitle_retitle huntitled, retitle_empty huntitled]

/-- Deferring a page again gives what deferring it once gives with nobody to ask, whoever was asked
and is asked: the page has no frames any more, and all that can change is that its titles go. -/
theorem deferWith_deferWith (htitle : ¬attributeName <:+: page)
    (hbackground : ¬("-background:" : Text) <:+: page)
    (first second : Host) (numbers others : List Int) :
    let once := (deferWith first numbers page).page
    (deferWith second others once).page = defer page ∧ frames once = [] ∧
      titleAttribute.remove once = defer page := by
  intro once
  by_cases hmarker : Text.contains marker page = true
  · have huntitled := untitled_deferred htitle hbackground
    have honce : once = retitle ((sessionOf page).titlesWith first numbers) (deferred page) :=
      page_deferWith_marked hmarker first numbers
    obtain ⟨hagain, hframes⟩ := deferWith_retitled huntitled (Text.contains_iff.1 hmarker)
      ((sessionOf page).titlesWith first numbers) second others
    rw [honce, defer_marked hmarker huntitled]
    exact ⟨hagain, hframes, remove_retitle huntitled _⟩
  · have honce : once = page := page_deferWith_unmarked hmarker first numbers
    have hdefer : defer page = page := page_deferWith_unmarked hmarker _ _
    rw [honce, hdefer]
    exact ⟨page_deferWith_unmarked hmarker second others,
      frames_eq_nil_of_unmarked (mt Text.contains_iff.2 hmarker),
      (untitled_of_not_isInfix htitle).remove_eq_self⟩

/-- The first time the title is known, the second time there is nobody who knows it. -/
theorem deferWith_deferWith_titled :
    let page : Text :=
      "<p><iframe data-s9e-mediaembed=\"x\" data-s9e-mediaembed-c2l=\"s\"" ++
        " data-s9e-mediaembed-c2l-oembed-id=\"m\"></iframe></p>"
    let first : Host := ⟨some fun _ => [⟨"m", "s", some "t", 0, 0⟩], none, 0⟩
    let once := (deferWith first [] page).page
    (¬attributeName <:+: page ∧ ¬("-background:" : Text) <:+: page) ∧
      (deferWith ⟨none, none, 0⟩ [] once).page = defer page ∧ frames once = [] ∧
        titleAttribute.remove once = defer page := by
  intro page first once
  have hpage : page = _ ++ _ :=
    congrArg₂ (fun front rest : Text => front ++ rest) String.toList_ofList String.toList_ofList
  have htitle : ¬attributeName <:+: page := by
    unfold attributeName
    rw [hpage, String.toList_ofList]
    decide +kernel
  have hbackground : ¬("-background:" : Text) <:+: page := by
    rw [hpage, String.toList_ofList]
    decide +kernel
  exact ⟨⟨htitle, hbackground⟩, deferWith_deferWith htitle hbackground first ⟨none, none, 0⟩ [] []⟩

end Page

end LazyEmbed
