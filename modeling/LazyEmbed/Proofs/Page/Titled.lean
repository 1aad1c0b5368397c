import LazyEmbed.Page.Deferral
import LazyEmbed.Proofs.Page.Frame
import LazyEmbed.Proofs.Placeholder.Escaping
import LazyEmbed.Proofs.Placeholder.Reading
import LazyEmbed.Proofs.Title.Known
import LazyEmbed.Proofs.Title.Retitling

/-!
# Titles of deferred frames

The media item of a frame is recorded as its attributes are written. The placeholder has the same
attributes with some characters replaced, and its title is looked up as the placeholder is written.
So a title that is known reaches its placeholder if the replacement changes neither the site nor the
item.
-/

namespace LazyEmbed

open Title Title.Tag Placeholder ClickToLoad

namespace Placeholder

variable {attributes : Attributes} {site media name value : Text}

def written (attributes : Attributes) (name : Text) : Text :=
  (attributes.get? name).elim [] (renderAttribute name)

def front (attributes : Attributes) : Text :=
  "<span" ++ (written attributes markName ++ (written attributes siteName ++
    (written attributes backgroundName ++ written attributes mediaName)))

theorem front_def (attributes : Attributes) : front attributes =
    "<span" ++ (written attributes markName ++ (written attributes siteName ++
      (written attributes backgroundName ++ written attributes mediaName))) := rfl

def inside (attributes : Attributes) : Text :=
  written attributes "style" ++
    (" " ++ Payload.attributeName ++ "='" ++ Payload.render attributes ++ "'")

theorem renderAttributes_eq_flatMap (attributes : Attributes) :
    renderAttributes attributes = attributeNames.flatMap (written attributes) := by
  unfold renderAttributes
  refine List.flatMap_congr fun name _ => ?_
  unfold written
  cases attributes.get? name <;> rfl

/-- A placeholder in three pieces: its tag up to where a title is put, the rest of the tag, its end.
-/
theorem render_cut (attributes : Attributes) :
    render attributes = front attributes ++ (inside attributes ++ '>' :: "</span>") := by
  have hend : ("'></span>" : Text) = "'" ++ '>' :: "</span>" := by decide
  have hnames : attributeNames.flatMap (written attributes) =
      written attributes markName ++
      (written attributes siteName ++
      (written attributes backgroundName ++
        (written attributes mediaName ++ written attributes "style"))) := by
    rw [attributeNames]
    simp only [List.flatMap_cons, List.flatMap_nil, List.append_nil]
  have hrender :
      render attributes = ("<span" ++ attributeNames.flatMap (written attributes) ++ " " ++
      Payload.attributeName ++ "='" ++ Payload.render attributes) ++ ("'" ++ '>' :: "</span>") := by
    rw [← renderAttributes_eq_flatMap]
    exact congrArg (_ ++ ·) hend
  rw [hrender, hnames, front_def, inside]
  simp only [List.append_assoc]

theorem written_of_get? (h : attributes.get? name = some value) :
    written attributes name = ' ' :: (name ++ ['=']) ++
      '"' :: (Html.forDoubleQuotes value ++ ['"']) := by
  rw [written, h, Option.elim_some]
  unfold renderAttribute
  simp

theorem written_cases (attributes : Attributes) (name : Text) :
    written attributes name = [] ∨ ∃ value ∈ attributes.get? name,
      written attributes name = ' ' :: (name ++ ['=']) ++
        '"' :: (Html.forDoubleQuotes value ++ ['"']) := by
  cases hget : attributes.get? name with
  | none => exact .inl (by rw [written, hget]; rfl)
  | some value => exact .inr ⟨value, rfl, written_of_get? hget⟩

theorem isInside_append {text rest : Text} :
    IsInside (text ++ rest) ↔ IsInside text ∧ IsInside rest := by
  simp only [IsInside, List.mem_append, not_or, and_and_and_comm]

/-- A written attribute stays inside the tag, whatever its value. -/
theorem isInside_written (hname : IsInside name) : IsInside (written attributes name) := by
  obtain heq | ⟨value, -, heq⟩ := written_cases attributes name
  · rw [heq]
    exact ⟨List.not_mem_nil, List.not_mem_nil⟩
  · have hless : '<' ∉ Html.forDoubleQuotes value := Html.not_mem_forDoubleQuotes (by decide) value
    have hmore : '>' ∉ Html.forDoubleQuotes value := Html.not_mem_forDoubleQuotes (by decide) value
    obtain ⟨hname₁, hname₂⟩ := hname
    rw [heq]
    constructor
    · simp [hless, hname₁]
    · simp [hmore, hname₂]

theorem isInside_inside (attributes : Attributes) : IsInside (inside attributes) := by
  have hstyle : IsInside "style" := ⟨by decide, by decide⟩
  have hname : IsInside (" " ++ Payload.attributeName ++ "='") := ⟨by decide, by decide⟩
  have hwritten : IsInside (written attributes "style") := isInside_written hstyle
  have hless : '<' ∉ Payload.render attributes :=
    Payload.not_mem_forSingleQuotes_of_mem (by decide) _
  have hmore : '>' ∉ Payload.render attributes :=
    Payload.not_mem_forSingleQuotes_of_mem (by decide) _
  have hquote : IsInside "'" := ⟨by decide, by decide⟩
  rw [inside, isInside_append, isInside_append, isInside_append]
  exact ⟨hwritten, ⟨hname, hless, hmore⟩, hquote⟩

/-- No value of the placeholder ends like the name of an attribute that is looked for, up to the
quote. -/
structure IsClear (attributes : Attributes) : Prop where
  mark : ∀ value ∈ attributes.get? markName, ¬siteName ++ ['='] <:+ value
  site : ∀ value ∈ attributes.get? siteName, ¬EndsInTitle value
  background : ∀ value ∈ attributes.get? backgroundName, ¬mediaName ++ ['='] <:+ value ∧
    ¬EndsInTitle value

def tagOf (attributes : Attributes) (site media : Text) : Tag :=
  ⟨Html.forDoubleQuotes site, written attributes backgroundName ++ [' '],
    Html.forDoubleQuotes media, inside attributes ++ ['>']⟩

def lead (attributes : Attributes) : Text := "<span" ++ (written attributes markName ++ [' '])

theorem lead_def (attributes : Attributes) :
    lead attributes = "<span" ++ (written attributes markName ++ [' ']) := rfl

theorem front_eq (hsite : attributes.get? siteName = some site)
    (hmedia : attributes.get? mediaName = some media) :
    front attributes = lead attributes ++ (tagOf attributes site media).head := by
  rw [← List.append_nil (tagOf attributes site media).head, head_append, siteStart_eq, itemStart_eq,
    front_def, lead_def, written_of_get? hsite, written_of_get? hmedia, tagOf]
  simp only [List.append_assoc, List.cons_append, List.nil_append]

/-- A word before a quote is missed in an attribute if neither its name nor its value ends with the
word. -/
theorem misses_written {word : Text} (hword : '"' ∉ word) (hname : '"' ∉ name)
    (hends : ¬word <:+ ' ' :: (name ++ ['=']))
    (hvalue : ∀ value ∈ attributes.get? name, ¬word <:+ Html.forDoubleQuotes value) (rest : Text) :
    Text.Misses (word ++ ['"']) (written attributes name) rest := by
  obtain heq | ⟨value, hget, heq⟩ := written_cases attributes name
  · rw [heq]
    exact Text.misses_nil _ rest
  · have hquoted : '"' ∉ Html.forDoubleQuotes value :=
      Html.not_mem_forDoubleQuotes (by decide) value
    have hstart : '"' ∉ ' ' :: (name ++ ['=']) := by simpa using hname
    have hsplit : written attributes name =
        (' ' :: (name ++ ['=']) ++ ['"']) ++ (Html.forDoubleQuotes value ++ ['"']) := by
      rw [heq]
      simp
    rw [hsplit]
    apply Text.Misses.append
    · exact Text.misses_concat hword hstart hends _
    · exact Text.misses_concat hword hquoted (hvalue value hget) rest

theorem misses_blank {word : Text} (h : word.head? ≠ some ' ') (hne : word ≠ []) (rest : Text) :
    Text.Misses word [' '] rest := by
  obtain ⟨c, word, rfl⟩ := List.exists_cons_of_ne_nil hne
  exact Text.misses_of_not_mem fun hmem => h (congrArg some (List.mem_singleton.1 hmem))

theorem beginsWith_siteStart : Tag.pattern.BeginsWith siteStart := by
  intro text tag rest hrun
  obtain ⟨behind, rfl, -⟩ := Title.Tag.exists_of_run hrun
  exact List.prefix_append _ _

theorem semicolon_not_mem (hname : Attributes.IsName name) : ';' ∉ name ++ ['='] :=
  List.not_mem_append (hname.not_mem rfl) (by decide)

theorem passes_lead (hclear : IsClear attributes) (rest : Text) :
    Tag.pattern.Passes (lead attributes) rest := by
  have hmark : ∀ value ∈ attributes.get? markName,
      ¬siteName ++ ['='] <:+ Html.forDoubleQuotes value :=
    fun value hget hends => hclear.mark value hget (Html.suffix_of_suffix_forDoubleQuotes
      (semicolon_not_mem isName_siteName) hends)
  have hlonger : ¬siteName ++ ['='] <:+ ' ' :: (markName ++ ['=']) := by
    unfold siteName markName
    rw [String.toList_ofList, String.toList_ofList]
    decide +kernel
  refine beginsWith_siteStart.passes ?_
  rw [lead_def]
  apply Text.Misses.append
  · exact Text.misses_of_apart (by decide +kernel) _
  apply Text.Misses.append
  · rw [siteStart_eq]
    exact misses_written (not_mem_nameStart isName_siteName (by decide))
      (isName_markName.not_mem rfl) hlonger hmark _
  · exact misses_blank (by rw [siteStart_literal, String.toList_ofList]; decide)
      (by simp [siteStart_eq]) rest

theorem misses_between (hclear : IsClear attributes) (rest : Text) :
    Text.Misses itemStart (written attributes backgroundName ++ [' ']) rest := by
  have hbackground : ∀ value ∈ attributes.get? backgroundName,
      ¬mediaName ++ ['='] <:+ Html.forDoubleQuotes value :=
    fun value hget hends => (hclear.background value hget).1
      (Html.suffix_of_suffix_forDoubleQuotes (semicolon_not_mem isName_mediaName) hends)
  have hother : ¬mediaName ++ ['='] <:+ ' ' :: (backgroundName ++ ['=']) := by
    unfold mediaName backgroundName
    rw [String.toList_ofList, String.toList_ofList]
    decide +kernel
  apply Text.Misses.append
  · rw [itemStart_eq]
    exact misses_written (not_mem_nameStart isName_mediaName (by decide))
      (isName_backgroundName.not_mem rfl) hother hbackground _
  · exact misses_blank (by rw [itemStart_literal, String.toList_ofList]; decide)
      (by simp [itemStart_eq]) rest

theorem isName_forDoubleQuotes (h : value ≠ []) :
    Title.Tag.IsName (Html.forDoubleQuotes value) := by
  rw [Title.Tag.isName_iff]
  refine ⟨Html.forDoubleQuotes_ne_nil h, ?_, ?_, ?_⟩
  all_goals exact Html.not_mem_forDoubleQuotes (by decide) value

/-- The tag of a placeholder is one the pattern of titles takes. -/
theorem fits_tagOf (hclear : IsClear attributes) (hsite : site ≠ []) (hmedia : media ≠ []) :
    (tagOf attributes site media).Fits (inside attributes) where
  site := isName_forDoubleQuotes hsite
  between := by
    have hwritten : IsInside (written attributes backgroundName) :=
      isInside_written ⟨by decide, by decide⟩
    simpa [tagOf] using hwritten.2
  media := isName_forDoubleQuotes hmedia
  free := isInside_inside attributes
  rest := rfl
  nearest := by
    intro first second heq hne
    rw [← Option.not_isSome_iff_eq_none, isSome_itemReader_iff]
    rintro ⟨item, behind, left, -, -, htext⟩
    have hbegins :
        itemStart <+: second ++
          itemText (tagOf attributes site media).media (inside attributes) [] := by
      rw [htext]
      exact List.prefix_append _ _
    exact misses_between hclear _ first second heq hne hbegins

/-! ### Titles that the attributes of a frame seem to have -/

theorem not_endsInTitle_forDoubleQuotes (h : ¬EndsInTitle value) :
    ¬EndsInTitle (Html.forDoubleQuotes value) := by
  rintro ⟨c, hblank, hends⟩
  refine h ⟨c, hblank, Html.suffix_of_suffix_forDoubleQuotes ?_ hends⟩
  have hsemicolon : Text.isBlank ';' = false := by decide
  rw [List.mem_cons, not_or]
  refine ⟨?_, semicolon_not_mem isName_titleName⟩
  rintro rfl
  rw [hsemicolon] at hblank
  cases hblank

/-- A text that is no longer than the name does not end like that. -/
theorem not_endsInTitle {text : Text} (h : text.length ≤ attributeName.length) :
    ¬EndsInTitle text := by
  rintro ⟨c, -, hends⟩
  have hlength := hends.length_le
  rw [List.length_cons, List.length_append] at hlength
  omega

/-- Nor does the beginning of another attribute. -/
theorem not_endsInTitle_nameStart (h : name ∈ attributeNames) :
    ¬EndsInTitle (' ' :: (name ++ ['='])) := by
  refine not_endsInTitle ?_
  rw [List.length_cons, List.length_append, List.length_singleton]
  exact length_attributeNames name h

theorem passes_title_written (hname : '"' ∉ name) (hends : ¬EndsInTitle (' ' :: (name ++ ['='])))
    (hvalue : ∀ value ∈ attributes.get? name, ¬EndsInTitle value) (rest : Text) :
    titleAttribute.Passes (written attributes name) rest := by
  apply passes_of_misses
  intro c hblank
  refine misses_written (not_mem_titleStart (by decide) hblank) hname
    (fun h => hends ⟨c, hblank, h⟩) ?_ rest
  intro value hget h
  exact not_endsInTitle_forDoubleQuotes (hvalue value hget) ⟨c, hblank, h⟩

theorem passes_title_head (hclear : IsClear attributes)
    (hsite : attributes.get? siteName = some site) :
    titleAttribute.Passes (tagOf attributes site media).head [] := by
  have hquoted : ∀ value : Text, '"' ∉ Html.forDoubleQuotes value :=
    Html.not_mem_forDoubleQuotes (by decide)
  have hsiteStart : ¬EndsInTitle (siteName ++ ['=']) := fun ⟨c, hblank, hends⟩ =>
    not_endsInTitle_nameStart (by simp [attributeNames]) ⟨c, hblank,
      hends.trans (List.suffix_cons ' ' _)⟩
  have hsplit : (tagOf attributes site media).head = ((siteName ++ ['=']) ++ ['"']) ++
      ((Html.forDoubleQuotes site ++ ['"']) ++ (written attributes backgroundName ++
        ((' ' :: (mediaName ++ ['=']) ++ ['"']) ++ (Html.forDoubleQuotes media ++ ['"'])))) := by
    rw [← List.append_nil (tagOf attributes site media).head, head_append, siteStart_eq,
      itemStart_eq, tagOf]
    simp only [List.append_assoc, List.cons_append, List.nil_append]
  rw [hsplit]
  apply Pattern.Passes.append
  · exact passes_quoted (not_mem_nameStart isName_siteName (by decide)) hsiteStart _
  apply Pattern.Passes.append
  · exact passes_quoted (hquoted site) (not_endsInTitle_forDoubleQuotes (hclear.site site hsite)) _
  apply Pattern.Passes.append
  · exact passes_title_written (isName_backgroundName.not_mem rfl)
      (not_endsInTitle_nameStart (by simp [attributeNames]))
      (fun value hget => (hclear.background value hget).2) _
  apply Pattern.Passes.append
  · exact passes_quoted (by simpa using isName_mediaName.not_mem (c := '"') rfl)
      (not_endsInTitle_nameStart (by simp [attributeNames])) _
  · exact passes_last_quote (hquoted media)

/-- The placeholder with a text behind the attribute of the item. A title that the rest of its start
tag seems to have is gone. -/
def titled (attributes : Attributes) (addition : Text) : Text :=
  front attributes ++
    (addition ++ (titleAttribute.remove (inside attributes ++ ['>']) ++ "</span>"))

theorem titled_injective (attributes : Attributes) : Function.Injective (titled attributes) :=
  fun _ _ h => List.append_cancel_right (List.append_cancel_left h)

/-- What becomes of a placeholder when titles come: behind the attribute of the item stands the
title that is known for the site and the item as the placeholder has them. -/
theorem retitle_render (titles : Titles) (hclear : IsClear attributes)
    (hsite : attributes.get? siteName = some site) (hmedia : attributes.get? mediaName = some media)
    (hsite_ne : site ≠ []) (hmedia_ne : media ≠ []) :
    retitle titles (render attributes) =
      titled attributes ((titles.get? (Html.forDoubleQuotes site) (Html.forDoubleQuotes media)).elim
        [] renderTitle) := by
  have hbehind : Tag.pattern.Passes "</span>" [] :=
    beginsWith_siteStart.passes (Text.misses_of_apart (by decide) [])
  rw [render_cut, front_eq hsite hmedia, List.append_assoc,
    retitle_tag titles (fits_tagOf hclear hsite_ne hmedia_ne) (passes_lead hclear _)
    (passes_title_head hclear hsite) hbehind, titled, front_eq hsite hmedia, List.append_assoc]
  rfl

end Placeholder

namespace Page

theorem endsTemplate_nil : Frame.endsTemplate [] = false := by
  have hnothing : Frame.afterWrappers [] = [] := by
    rw [Frame.afterWrappers]
    rfl
  rw [Frame.endsTemplate, hnothing]
  rfl

theorem marker_eq : marker = markName ++ ['=', '"'] := by
  unfold marker markName
  rw [String.toList_ofList, String.toList_ofList]
  rfl

theorem isNameChar_iframe : ∀ c ∈ ("iframe" : Text), Attributes.isNameChar c = true := by decide

/-- A frame that loads a media item on a click, by the values of its first attributes and the text
of the others. -/
structure ItemFrame where
  mark : Text
  site : Text
  media : Text
  more : Text
  mark_ne : mark ≠ []
  site_ne : site ≠ []
  media_ne : media ≠ []
  mark_free : '"' ∉ mark ∧ '>' ∉ mark
  site_free : '"' ∉ site ∧ '>' ∉ site
  media_free : '"' ∉ media ∧ '>' ∉ media
  more_free : '>' ∉ more
  /-- Neither the site nor the item is named a second time. -/
  named_once : siteName ∉ (Attributes.pattern.hits more).map Prod.fst ∧
    mediaName ∉ (Attributes.pattern.hits more).map Prod.fst

namespace ItemFrame

variable (frame : ItemFrame)

def others : Text :=
  ' ' :: (Attributes.written siteName frame.site ++
    ' ' :: (Attributes.written mediaName frame.media ++ frame.more))

def inside : Text := ' ' :: (Attributes.written markName frame.mark ++ frame.others)

def page : Text := Frame.elementText frame.inside

def attributes : Attributes := attributesOf frame.page

theorem no_bracket_inside : '>' ∉ frame.inside := by
  have hnames : '>' ∉ markName ∧ '>' ∉ siteName ∧ '>' ∉ mediaName :=
    ⟨isName_markName.not_mem rfl, isName_siteName.not_mem rfl, isName_mediaName.not_mem rfl⟩
  simp [inside, others, Attributes.written, hnames, frame.mark_free.2, frame.site_free.2,
    frame.media_free.2, frame.more_free]

theorem opensFrame : OpensFrame ("<iframe" ++ frame.inside) := by
  have hstart : markAttribute = ' ' :: (markName ++ ['=', '"']) := congrArg (' ' :: ·) marker_eq
  obtain ⟨c, mark, hmark⟩ := List.exists_cons_of_ne_nil frame.mark_ne
  have hquote : c ≠ '"' := fun hc => frame.mark_free.1 (by simp [hmark, hc])
  have hmarked : Frame.isMarked (frame.inside ++ '>' :: []) = true := by
    refine isMarked_iff.2 ⟨c, mark ++ '"' :: (frame.others ++ ['>']), ?_, hquote⟩
    rw [hstart, inside, Attributes.written, hmark]
    simp only [List.append_assoc, List.cons_append, List.nil_append]
  exact (opensFrame_iff frame.no_bracket_inside).2 hmarked

theorem reads : Reads frame.page ⟨[], frame.page⟩ [] := by
  have hsegment : '>' ∉ "<iframe" ++ frame.inside := by
    simpa using frame.no_bracket_inside
  have hreads := Reads.marked hsegment frame.opensFrame endsTemplate_nil
  rwa [← closing_eq, List.append_nil] at hreads

/-! ### The attributes -/

theorem page_eq :
    frame.page = ['<'] ++
      (("iframe" ++ [' ']) ++
        (Attributes.written markName frame.mark ++ (frame.others ++ '>' :: "</iframe>"))) := by
  have hopening : ("<iframe" : Text) = ['<'] ++ "iframe" := by decide
  have hclosing : ("></iframe>" : Text) = '>' :: "</iframe>" := by decide
  have hpage : frame.page = (['<'] ++ "iframe") ++ frame.inside ++ '>' :: "</iframe>" :=
    congrArg₂ (fun opening closing => opening ++ frame.inside ++ closing) hopening hclosing
  rw [hpage, inside]
  simp only [List.append_assoc, List.cons_append, List.nil_append]

/-- The attributes of the frame of a page, as the program reads them. -/
theorem hits_page : Attributes.pattern.hits frame.page =
    (markName, frame.mark) :: (siteName, frame.site) :: (mediaName, frame.media) ::
      Attributes.pattern.hits (frame.more ++ '>' :: "</iframe>") := by
  have hblank := Attributes.passes_char (d := ' ') (by decide) (by decide)
    (Attributes.written markName frame.mark ++ (frame.others ++ '>' :: "</iframe>"))
  rw [page_eq, Pattern.hits_append (Attributes.passes_char (by decide) (by decide) _),
    Pattern.hits_append (Attributes.passes_word isNameChar_iframe (by decide) (by decide) _),
    ← Pattern.hits_append hblank, List.singleton_append,
    Attributes.hits_written isName_markName frame.mark_free.1, others]
  simp only [List.cons_append, List.append_assoc]
  rw [Attributes.hits_written isName_siteName frame.site_free.1,
    Attributes.hits_written isName_mediaName frame.media_free.1]

theorem hits_end : Attributes.pattern.hits ('>' :: "</iframe>") = [] :=
  Attributes.hits_of_not_mem (by decide)

/-- Behind the first attributes no site and no item is named. -/
theorem names_more : ∀ pair ∈ Attributes.pattern.hits (frame.more ++ '>' :: "</iframe>"),
    pair.1 ≠ siteName ∧ pair.1 ≠ mediaName := by
  intro pair hpair
  have hname : pair.1 ∈ (Attributes.pattern.hits frame.more).map Prod.fst := by
    rw [← Attributes.names_append_bracket (by decide) hits_end]
    exact List.mem_map_of_mem hpair
  exact ⟨ne_of_mem_of_not_mem hname frame.named_once.1,
    ne_of_mem_of_not_mem hname frame.named_once.2⟩

theorem get?_site : frame.attributes.get? siteName = some frame.site := by
  have hmore : ∀ pair ∈ Attributes.pattern.hits (frame.more ++ '>' :: "</iframe>"),
      ¬decide (pair.1 = siteName) = true :=
    fun pair hpair => by simpa using (frame.names_more pair hpair).1
  obtain ⟨hmark, -, hmedia⟩ := itemNames_ne
  rw [attributes, get?_attributesOf_itemName _ (by simp), Attributes.ofElement, Keyed.get?_ofPairs,
    hits_page, List.filter_cons_of_neg (by simpa using hmark), List.filter_cons_of_pos (by simp),
    List.filter_cons_of_neg (by simpa using hmedia.symm), List.filter_eq_nil_iff.2 hmore]
  rfl

theorem get?_media : frame.attributes.get? mediaName = some frame.media := by
  have hmore : ∀ pair ∈ Attributes.pattern.hits (frame.more ++ '>' :: "</iframe>"),
      ¬decide (pair.1 = mediaName) = true :=
    fun pair hpair => by simpa using (frame.names_more pair hpair).2
  obtain ⟨-, hmark, hsite⟩ := itemNames_ne
  rw [attributes, get?_attributesOf_itemName _ (by simp), Attributes.ofElement, Keyed.get?_ofPairs,
    hits_page, List.filter_cons_of_neg (by simpa using hmark),
    List.filter_cons_of_neg (by simpa using hsite), List.filter_cons_of_pos (by simp),
    List.filter_eq_nil_iff.2 hmore]
  rfl

/-! ### Frames without any other attribute -/

def IsValue (text : Text) : Prop := text ≠ [] ∧ '"' ∉ text ∧ '>' ∉ text

def bare (site media : Text) (hsite : IsValue site) (hmedia : IsValue media) : ItemFrame where
  mark := ['x']
  site := site
  media := media
  more := []
  mark_ne := List.cons_ne_nil _ _
  site_ne := hsite.1
  media_ne := hmedia.1
  mark_free := by decide
  site_free := hsite.2
  media_free := hmedia.2
  more_free := List.not_mem_nil
  named_once := by
    rw [Pattern.hits_nil]
    exact ⟨List.not_mem_nil, List.not_mem_nil⟩

variable {site media : Text} {hsite : IsValue site} {hmedia : IsValue media}

theorem get?_bare : (bare site media hsite hmedia).attributes.get? markName = some ['x'] ∧
    (bare site media hsite hmedia).attributes.get? backgroundName = none := by
  have hhits : Attributes.pattern.hits (bare site media hsite hmedia).page =
      [(markName, ['x']), (siteName, site), (mediaName, media)] :=
    (hits_page _).trans
      (congrArg ((markName, ['x']) :: (siteName, site) :: (mediaName, media) :: ·) hits_end)
  obtain ⟨hsiteName, hmediaName, -⟩ := itemNames_ne
  constructor
  · rw [attributes, get?_attributesOf_itemName _ (by simp), Attributes.ofElement,
      Keyed.get?_ofPairs, hhits, List.filter_cons_of_pos (by simp),
      List.filter_cons_of_neg (by simpa using hsiteName.symm),
      List.filter_cons_of_neg (by simpa using hmediaName.symm)]
    rfl
  · rw [attributes, attributesOf, Attributes.ofElement, hhits]
    rfl

theorem isClear_bare (h : ¬EndsInTitle site) :
    IsClear (bare site media hsite hmedia).attributes where
  mark := by
    rw [get?_bare.1]
    rintro value ⟨⟩
    decide +kernel
  site := by
    rw [get?_site]
    rintro value ⟨⟩
    exact h
  background := by
    rw [get?_bare.2]
    rintro value ⟨⟩

end ItemFrame

theorem frames_page (frame : ItemFrame) : frames frame.page = [⟨[], frame.page⟩] := by
  rw [frames, Pattern.hits_of_run_eq_some (run_eq_some_iff.2 frame.reads), Pattern.hits_nil]

theorem replaceFrames_page (frame : ItemFrame) :
    replaceFrames frame.page = render frame.attributes := by
  rw [replaceFrames, Pattern.replace_of_run_eq_some (run_eq_some_iff.2 frame.reads),
    Pattern.replace_nil, List.append_nil]
  rfl

theorem sessionOf_page (frame : ItemFrame) :
    sessionOf frame.page = Session.ofPair frame.site frame.media := by
  have hmedia : mediaOf? frame.page = some (frame.site, frame.media) := by
    have hsite := frame.get?_site
    have hitem := frame.get?_media
    rw [ItemFrame.attributes] at hsite hitem
    simp only [mediaOf?, hsite, hitem]
  rw [sessionOf, frames_page, List.foldl_cons, List.foldl_nil, recordFrame, hmedia]
  rfl

theorem contains_marker (frame : ItemFrame) : Text.contains marker frame.page = true := by
  rw [Text.contains_iff, marker_eq, ItemFrame.page_eq, Attributes.written]
  refine ⟨['<'] ++ ("iframe" ++ [' ']),
    frame.mark ++ '"' :: (frame.others ++ '>' :: "</iframe>"), ?_⟩
  simp only [List.append_assoc, List.cons_append, List.nil_append]

/-- The page with the placeholder, which has the title that is known for its site and its item as
they are written in it. -/
theorem page_deferWith (frame : ItemFrame) (host : Host) (numbers : List Int)
    (hclear : IsClear frame.attributes) :
    (deferWith host numbers frame.page).page =
      titled frame.attributes ((((Session.ofPair frame.site frame.media).titlesWith host
          numbers).get? (Html.forDoubleQuotes frame.site)
            (Html.forDoubleQuotes frame.media)).elim [] renderTitle) ++
        loaderElement := by
  have hframes : (frames frame.page).isEmpty = false := by rw [frames_page]; rfl
  have hretitle :=
    retitle_render ((Session.ofPair frame.site frame.media).titlesWith host numbers) hclear
    frame.get?_site frame.get?_media frame.site_ne frame.media_ne
  rw [deferWith, if_pos (contains_marker frame), sessionOf_page, replaceFrames_page, ← hretitle]
  simp only [hframes]
  rfl

/-- The placeholder gets the title just if the title is known for what is written in it. -/
theorem page_deferWith_eq_iff (frame : ItemFrame) (host : Host) (numbers : List Int) (title : Text)
    (hclear : IsClear frame.attributes) :
    (deferWith host numbers frame.page).page =
        titled frame.attributes (renderTitle title) ++ loaderElement ↔
      ((Session.ofPair frame.site frame.media).titlesWith host numbers).get?
        (Html.forDoubleQuotes frame.site) (Html.forDoubleQuotes frame.media) = some title := by
  rw [page_deferWith frame host numbers hclear, List.append_left_inj, (titled_injective _).eq_iff]
  cases Titles.get? _ _ _ with
  | none => simpa using (renderTitle_ne_nil title).symm
  | some known => rw [Option.elim_some, renderTitle_injective.eq_iff, Option.some.injEq]

/-- Neither the site nor the item has a character that is replaced in the placeholder. -/
def ItemFrame.IsPlain (frame : ItemFrame) : Prop :=
  ∀ c ∈ frame.site ++ frame.media, c ≠ '&' ∧ c ≠ '<'

theorem forDoubleQuotes_eq_self_of_free {text : Text} (h : '"' ∉ text ∧ '>' ∉ text) :
    Html.forDoubleQuotes text = text ↔ ∀ c ∈ text, c ≠ '&' ∧ c ≠ '<' := by
  rw [Html.forDoubleQuotes_eq_self_iff]
  refine forall₂_congr fun c hc => ?_
  have hquote : c ≠ '"' := fun heq => h.1 (heq ▸ hc)
  have hmore : c ≠ '>' := fun heq => h.2 (heq ▸ hc)
  simp [hquote, hmore]

theorem ItemFrame.isPlain_iff (frame : ItemFrame) :
    frame.IsPlain ↔ Html.forDoubleQuotes frame.site = frame.site ∧
      Html.forDoubleQuotes frame.media = frame.media := by
  rw [forDoubleQuotes_eq_self_of_free frame.site_free,
    forDoubleQuotes_eq_self_of_free frame.media_free, IsPlain, List.forall_mem_append]

/-- A title that is told for the site and the item of a frame reaches its placeholder just if the
placeholder writes both as they are, or if the same title happens to be known for them as it writes
them. -/
theorem page_deferWith_titled (frame : ItemFrame) (host : Host) (numbers : List Int) (title : Text)
    (hclear : IsClear frame.attributes) (h : host.Tells frame.site frame.media title) :
    (deferWith host numbers frame.page).page =
        titled frame.attributes (renderTitle title) ++ loaderElement ↔
      frame.IsPlain ∨
        (((host.recordsOf [itemDigest frame.site frame.media]).filter
          (Record.isOf (Html.forDoubleQuotes frame.site)
            (Html.forDoubleQuotes frame.media))).getLast?.map fun record =>
              record.title.getD []) = some title := by
  rw [page_deferWith_eq_iff frame host numbers title hclear, Session.get?_titlesWith_ofPair h,
    frame.isPlain_iff]
  by_cases hplain : Html.forDoubleQuotes frame.site = frame.site ∧
    Html.forDoubleQuotes frame.media = frame.media
  · rw [if_pos hplain]
    exact iff_of_true rfl (.inl hplain)
  · rw [if_neg hplain, or_iff_right hplain]

/-- The only record of the pair has a title, and the placeholder has it too. -/
theorem page_deferWith_plain :
    let frame := ItemFrame.bare "s" "m" (by unfold ItemFrame.IsValue; decide)
      (by unfold ItemFrame.IsValue; decide)
    let host : Host := ⟨some fun _ => [⟨"m", "s", some "t", 0, 0⟩], none, 0⟩
    host.Tells "s" "m" "t" ∧
    (deferWith host [] frame.page).page = titled frame.attributes (renderTitle "t") ++
      loaderElement := by
  intro frame host
  have htells : host.Tells "s" "m" "t" := .inl ⟨_, rfl, rfl⟩
  have hclear : IsClear frame.attributes :=
    ItemFrame.isClear_bare (not_endsInTitle (by simp [length_titleName]))
  have hplain : frame.IsPlain := by
    have hchars : ∀ c ∈ ("s" : Text) ++ ("m" : Text), c ≠ '&' ∧ c ≠ '<' := by decide
    exact hchars
  exact ⟨htells, (page_deferWith_titled frame host [] "t" hclear htells).2 (.inl hplain)⟩

/-- The title of an item with an ampersand is known, and its placeholder has none. -/
theorem page_deferWith_ampersand :
    let frame := ItemFrame.bare "s" "a&b" (by unfold ItemFrame.IsValue; decide)
      (by unfold ItemFrame.IsValue; decide)
    let host : Host := ⟨some fun _ => [⟨"a&b", "s", some "t", 0, 0⟩], none, 0⟩
    frame.page =
      "<iframe data-s9e-mediaembed=\"x\" data-s9e-mediaembed-c2l=\"s\"" ++
        " data-s9e-mediaembed-c2l-oembed-id=\"a&b\"></iframe>" ∧
    host.Tells "s" "a&b" "t" ∧
    (deferWith host [] frame.page).page = titled frame.attributes [] ++ loaderElement ∧
    (deferWith host [] frame.page).page ≠ titled frame.attributes (renderTitle "t") ++
      loaderElement := by
  intro frame host
  have htells : host.Tells "s" "a&b" "t" := .inl ⟨_, rfl, rfl⟩
  have hclear : IsClear frame.attributes :=
    ItemFrame.isClear_bare (not_endsInTitle (by simp [length_titleName]))
  have hunknown : ((Session.ofPair frame.site frame.media).titlesWith host []).get?
      (Html.forDoubleQuotes frame.site) (Html.forDoubleQuotes frame.media) = none := by
    refine (Session.get?_titlesWith_ofPair htells _ _).trans ?_
    decide +kernel
  refine ⟨?_, htells, ?_, ?_⟩
  · rw [String.toList_ofList, String.toList_ofList]
    decide +kernel
  · rw [page_deferWith frame host [] hclear, hunknown]
    rfl
  · rw [ne_eq, page_deferWith_eq_iff frame host [] "t" hclear, hunknown]
    exact Option.some_ne_none _ ∘ Eq.symm

end Page

end LazyEmbed
