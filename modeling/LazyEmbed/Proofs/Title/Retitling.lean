import LazyEmbed.Proofs.Title.Tag
import Mathlib.Data.List.Forall2

/-!
# Titles come and go

A title stands between the attributes of its tag and what is behind them, and it has no brackets. So
a page with titles is cut into the same tags as the page without them, and each tag names the same
item. Giving the page titles again takes the old ones out, and taking out all titles leaves the page
as it was before.
-/

namespace LazyEmbed

/-- The pieces are of one kind, and so related if they are hits. -/
inductive Piece.Rel {α β : Type} (related : α → β → Prop) : Piece α → Piece β → Prop
  | plain (c : Char) : Rel related (.plain c) (.plain c)
  | hit {value : α} {other : β} (h : related value other) : Rel related (.hit value) (.hit other)

namespace Pattern

variable {α : Type} {pattern : Pattern α} {before text other rest left : Text} {value new : α}

/-- Related searches write the same text, if related hits are written alike. -/
theorem flatMap_text_eq {related : α → α → Prop} {write : α → Text} {pieces others : List (Piece α)}
    (h : List.Forall₂ (Piece.Rel related) pieces others)
    (hwrite : ∀ value new, related value new → write new = write value) :
    others.flatMap (Piece.text write) = pieces.flatMap (Piece.text write) := by
  induction h with
  | nil => rfl
  | @cons piece new pieces others hpiece hpieces ih =>
    rw [List.flatMap_cons, List.flatMap_cons, ih]
    cases hpiece with
    | plain c => rfl
    | hit hrelated => exact congrArg (· ++ _) (hwrite _ _ hrelated)

theorem forall₂_plain {related : α → α → Prop} (text : Text) :
    List.Forall₂ (Piece.Rel related) (text.map .plain) (text.map .plain) := by
  rw [List.forall₂_map_left_iff, List.forall₂_map_right_iff, List.forall₂_same]
  intro c _
  exact .plain c

/-- A stretch without hits and a hit behind it. -/
theorem pieces_stretch (hpasses : pattern.Passes before text)
    (hrun : pattern.reader.run text = some (value, rest)) :
    pattern.pieces (before ++ text) = before.map .plain ++ .hit value :: pattern.pieces rest := by
  rw [pieces_append hpasses, pieces_of_run_eq_some hrun]

end Pattern

namespace Title

variable {page before inside left value : Text} {titles first second : Titles} {tag : Tag}

namespace Tag

def titleText (value : Text) : Text := " " ++ attributeName ++ "=\"" ++ value ++ "\""

def insert (tag : Tag) (text : Text) : Tag := { tag with rest := text ++ tag.rest }

/-- What becomes of a tag when the page gets the titles: it gets the one that is known for its own
item. -/
inductive Gets (titles : Titles) (tag : Tag) : Tag → Prop
  | nothing (hunknown : titles.get? tag.site tag.media = none) : Gets titles tag tag
  | title {title value : Text} (hknown : titles.get? tag.site tag.media = some title)
      (hquote : '"' ∉ value) (hdecode : Html.decodeReferences value = .ok title) :
      Gets titles tag (tag.insert (titleText value))

theorem remove_titleText (hvalue : '"' ∉ value) (rest : Text) :
    titleAttribute.remove (titleText value ++ rest) = titleAttribute.remove rest := by
  have htext : titleText value ++ rest = ' ' :: (attributeName ++ ['=']) ++
      '"' :: (value ++ '"' :: rest) := by
    unfold titleText
    simp
  rw [htext, Pattern.remove,
    Pattern.replace_of_run_eq_some (run_titleAttribute (by decide) hvalue rest)]
  rfl

def addition (titles : Titles) (tag : Tag) : Text :=
  (titles.get? tag.site tag.media).elim [] renderTitle

theorem gets_insert (titles : Titles) (tag : Tag) :
    Gets titles tag (tag.insert (addition titles tag)) := by
  unfold addition
  cases hget : titles.get? tag.site tag.media with
  | none => exact .nothing hget
  | some title =>
    exact .title hget (Html.not_mem_forAnyQuotes (by decide) title)
      (Html.decodeReferences_forAnyQuotes title)

theorem isInside_addition (titles : Titles) (tag : Tag) : IsInside (addition titles tag) := by
  unfold addition
  cases titles.get? tag.site tag.media with
  | none => exact ⟨List.not_mem_nil, List.not_mem_nil⟩
  | some title => exact isInside_renderTitle title

theorem remove_addition (titles : Titles) (tag : Tag) (rest : Text) :
    titleAttribute.remove (addition titles tag ++ rest) = titleAttribute.remove rest := by
  unfold addition
  cases titles.get? tag.site tag.media with
  | none => rfl
  | some title => exact remove_renderTitle title rest

/-- An old title goes when a tag gets a new one. -/
theorem Gets.retitled_eq {new : Tag} (h : Gets first tag new) :
    new.retitled second = tag.retitled second := by
  cases h with
  | nothing hunknown => rfl
  | title hknown hquote hdecode => exact congrArg (_ ++ ·) (remove_titleText hquote tag.rest)

/-- No tag begins before another one, whatever comes behind the attributes of the other. -/
theorem Fits.passes (h : tag.Fits inside)
    (hpasses : pattern.Passes before (tag.head ++ (inside ++ '>' :: left))) (other : Text) :
    pattern.Passes before (tag.head ++ other) := by
  intro front after heq hne
  have hnone := hpasses front after heq hne
  rw [← Option.not_isSome_iff_eq_none] at hnone ⊢
  intro hsome
  apply hnone
  by_cases hmem : '>' ∈ after
  · obtain ⟨segment, behind, rfl⟩ := List.append_of_mem hmem
    rw [List.append_assoc, List.cons_append] at hsome ⊢
    exact isSome_run_bracket hsome _
  · exact isSome_run_before h hne hmem hsome

theorem Fits.run (h : tag.Fits inside) (left : Text) :
    pattern.reader.run (tag.head ++ (inside ++ '>' :: left)) = some (tag, left) :=
  run_eq_some_iff.2 ⟨inside, h, rfl⟩

theorem Fits.run_insert (h : tag.Fits inside) (titles : Titles) (left : Text) :
    pattern.reader.run (tag.head ++ (addition titles tag ++ (inside ++ '>' :: left))) =
      some (tag.insert (addition titles tag), left) := by
  refine run_eq_some_iff.2 ⟨addition titles tag ++ inside,
    h.insert (isInside_addition titles tag), ?_⟩
  rw [List.append_assoc]
  rfl

end Tag

open Tag

/-- A tag without titles gets its own, whatever stands in front of it and behind it. -/
theorem retitle_tag (titles : Titles) (hfits : tag.Fits inside)
    (hpasses : Tag.pattern.Passes before (tag.head ++ (inside ++ '>' :: behind)))
    (hhead : titleAttribute.Passes tag.head []) (hbehind : Tag.pattern.Passes behind []) :
    retitle titles (before ++ (tag.head ++ (inside ++ '>' :: behind))) =
      before ++ (tag.head ++
        (addition titles tag ++ (titleAttribute.remove (inside ++ ['>']) ++ behind))) := by
  have hretitled : tag.retitled titles =
      tag.head ++ (addition titles tag ++ titleAttribute.remove (inside ++ ['>'])) := by
    rw [retitled, Pattern.remove, Pattern.replace_eq_self _ hhead, hfits.rest, addition,
      List.append_assoc]
  rw [retitle, Pattern.replace_append hpasses, Pattern.replace_of_run_eq_some (hfits.run behind),
    hretitled, Pattern.replace_eq_self _ hbehind]
  simp only [List.append_assoc]

/-! ### Pages without titles -/

/-- A page from one tag to the next. -/
theorem titleInduction {motive : Text → Prop}
    (clear : ∀ page, Tag.pattern.Passes page [] → motive page)
    (tag : ∀ before tag inside left, Tag.Fits tag inside →
      Tag.pattern.Passes before (tag.head ++ (inside ++ '>' :: left)) → motive left →
      motive (before ++ (tag.head ++ (inside ++ '>' :: left)))) (page : Text) : motive page := by
  induction page using Tag.pattern.stretchInduction with
  | clear page hpasses => exact clear page hpasses
  | hit before text found left hpasses hrun ih =>
    obtain ⟨inside, hfits, rfl⟩ := run_eq_some_iff.1 hrun
    exact tag before found inside left hfits hpasses ih

/-- The parts of a page without titles have none. -/
theorem untitled_parts (hfits : tag.Fits inside)
    (h : Untitled (before ++ (tag.head ++ (inside ++ '>' :: left)))) :
    Untitled (before ++ tag.head) ∧ Untitled tag.head ∧ Untitled tag.rest ∧ Untitled left := by
  have hpart : ∀ first part last : Text,
      before ++ (tag.head ++ (inside ++ '>' :: left)) = first ++ part ++ last →
      Untitled part := fun first part last heq => h.of_isInfix ⟨first, last, heq.symm⟩
  rw [hfits.rest]
  refine ⟨hpart [] _ (inside ++ '>' :: left) ?_, hpart before _ (inside ++ '>' :: left) ?_,
    hpart (before ++ tag.head) _ left ?_, hpart (before ++ tag.head ++ inside ++ ['>']) _ [] ?_⟩
  all_goals simp

/-- The next tag of a page without titles gets its own. -/
theorem retitle_step (hfits : tag.Fits inside)
    (hpasses : Tag.pattern.Passes before (tag.head ++ (inside ++ '>' :: left)))
    (h : Untitled (before ++ (tag.head ++ (inside ++ '>' :: left)))) (titles : Titles) :
    retitle titles (before ++ (tag.head ++ (inside ++ '>' :: left))) =
      before ++ (tag.head ++ (addition titles tag ++ (inside ++ '>' :: retitle titles left))) := by
  obtain ⟨-, hhead, hrest, -⟩ := untitled_parts hfits h
  have hretitled : tag.retitled titles = tag.head ++ addition titles tag ++ tag.rest := by
    rw [retitled, hhead.remove_eq_self, hrest.remove_eq_self, addition]
  rw [retitle, Pattern.replace_append hpasses, Pattern.replace_of_run_eq_some (hfits.run left),
    hretitled, hfits.rest]
  simp only [List.append_assoc, List.singleton_append]
  rfl

/-- The page with the titles is cut as the page is, and each tag has got its title. -/
theorem forall₂_pieces_retitle (h : Untitled page) (titles : Titles) :
    List.Forall₂ (Piece.Rel (Gets titles)) (Tag.pattern.pieces page)
      (Tag.pattern.pieces (retitle titles page)) := by
  induction page using titleInduction with
  | clear page hpasses =>
    have hpieces := Pattern.pieces_append hpasses
    rw [List.append_nil, Pattern.pieces_nil, List.append_nil] at hpieces
    rw [retitle, Pattern.replace_eq_self _ hpasses, hpieces]
    exact Pattern.forall₂_plain page
  | tag before tag inside left hfits hpasses ih =>
    obtain ⟨-, -, -, hleft⟩ := untitled_parts hfits h
    rw [retitle_step hfits hpasses h, Pattern.pieces_stretch hpasses (hfits.run left),
      Pattern.pieces_stretch (hfits.passes hpasses _) (hfits.run_insert titles _)]
    exact List.rel_append (Pattern.forall₂_plain before)
      (.cons (.hit (gets_insert titles tag)) (ih hleft))

/-- Taking the titles off again gives the page back. -/
theorem remove_retitle (h : Untitled page) (titles : Titles) :
    titleAttribute.remove (retitle titles page) = page := by
  induction page using titleInduction with
  | clear page hpasses =>
    rw [retitle, Pattern.replace_eq_self _ hpasses]
    exact h.remove_eq_self
  | tag before tag inside left hfits hpasses ih =>
    obtain ⟨hbefore, -, hrest, hleft⟩ := untitled_parts hfits h
    obtain ⟨front, hfront⟩ : ∃ front, before ++ tag.head = front ++ ['"'] :=
      ⟨_, (List.append_assoc _ _ _).symm⟩
    -- the stretches on both sides of the title end with a character that no title can go over
    rw [hfront] at hbefore
    have hpassesBefore := hbefore.passes (by decide)
    rw [hfits.rest] at hrest
    have hpassesRest := hrest.passes (by decide) (retitle titles left)
    calc titleAttribute.remove (retitle titles (before ++ (tag.head ++ (inside ++ '>' :: left))))
        = titleAttribute.remove ((before ++ tag.head) ++
            (addition titles tag ++ ((inside ++ ['>']) ++ retitle titles left))) := by
          rw [retitle_step hfits hpasses h]
          simp
      _ = (before ++ tag.head) ++ titleAttribute.remove
        ((inside ++ ['>']) ++ retitle titles left) := by
          rw [hfront, Pattern.remove, Pattern.replace_append (hpassesBefore _), ← Pattern.remove,
            remove_addition]
      _ = (before ++ tag.head) ++ ((inside ++ ['>']) ++ left) := by
          rw [Pattern.remove, Pattern.replace_append hpassesRest, ← Pattern.remove, ih hleft]
      _ = before ++ (tag.head ++ (inside ++ '>' :: left)) := by simp

/-- Of titles given one after the other only the last count. -/
theorem retitle_retitle (h : Untitled page) (first second : Titles) :
    retitle second (retitle first page) = retitle second page :=
  Pattern.flatMap_text_eq (forall₂_pieces_retitle h first) fun _ _ hgets => hgets.retitled_eq

/-- Of titles given one after the other only the last count, taking titles out gives the page back,
and what a tag gets is a value that stands for the title of its own site and item. -/
theorem retitle_page (h : ¬attributeName <:+: page) (first second : Titles) :
    retitle second (retitle first page) = retitle second page ∧
    titleAttribute.remove (retitle first page) = page ∧
    List.Forall₂ (Piece.Rel (Gets first)) (Tag.pattern.pieces page)
      (Tag.pattern.pieces (retitle first page)) := by
  have huntitled := untitled_of_not_isInfix h
  exact ⟨retitle_retitle huntitled first second, remove_retitle huntitled first,
    forall₂_pieces_retitle huntitled first⟩

/-- The first title ends like the beginning of the attribute that names an item. -/
theorem retitle_page_spelled :
    let page : Text :=
      "<b data-s9e-mediaembed-c2l=\"s\" data-s9e-mediaembed-c2l-oembed-id=\"m\" title=\"n\">"
    let first := Titles.put .empty "s" "m" "<data-s9e-mediaembed-c2l-oembed-id="
    let second := Titles.put .empty "s" "m" "\""
    ¬attributeName <:+: page ∧ retitle second (retitle first page) = retitle second page ∧
      titleAttribute.remove (retitle first page) = page ∧
      List.Forall₂ (Piece.Rel (Gets first)) (Tag.pattern.pieces page)
        (Tag.pattern.pieces (retitle first page)) := by
  intro page first second
  have htext : page = _ := String.toList_ofList
  have hpage : ¬attributeName <:+: page := by
    unfold attributeName
    rw [htext, String.toList_ofList]
    decide +kernel
  exact ⟨hpage, retitle_page hpage first second⟩

end Title

end LazyEmbed
