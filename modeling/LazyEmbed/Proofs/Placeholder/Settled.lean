import LazyEmbed.Proofs.Keyed
import LazyEmbed.Proofs.Placeholder.Background

/-!
# Setting apart what is set apart already

When a background is taken out of a style, what stood before it meets what stood behind it. A
background could only come up there if a word ended in front of one, but words are read as a whole,
and the character behind a word is kept. Blanks at the ends of a style are no part of words either.
So no background is left, and setting apart a second time finds nothing to do.
-/

namespace LazyEmbed.ClickToLoad

open Text

variable {attributes : Attributes} {text rest style value found : Text} {c : Char} {name : Text}

/-! ### No background is left -/

/-- A text that begins with no part of a word still does so without its backgrounds. -/
theorem head?_withoutBackground (h : ∀ c ∈ text.head?, isWord c = false) :
    (withoutBackground text).head? = text.head? := by
  cases text with
  | nil => rw [withoutBackground_nil]
  | cons c text => rw [withoutBackground_plain (h c rfl), List.head?_cons, List.head?_cons]

theorem beginsBackground_of_word (hfound : ∀ c ∈ found, isWord c = true)
    (hrest : ∀ c ∈ rest.head?, isWord c = false)
    (h : BeginsBackground (found ++ withoutBackground rest)) :
    BeginsBackground (found ++ rest) := by
  obtain ⟨c, behind, htext, hc⟩ := h
  have hproperty : ("background:" : Text) = "background" ++ [':'] := by decide
  have hword : ∀ c ∈ ("background" : Text), isWord c = true := by decide
  rw [hproperty, List.append_assoc, List.singleton_append] at htext
  cases rest with
  | nil =>
    rw [withoutBackground_nil, List.append_nil] at htext
    exact absurd (hfound ':' (by simp [htext])) (by decide)
  | cons d rest =>
    have hd : isWord d = false := hrest d rfl
    rw [withoutBackground_plain hd] at htext
    obtain rfl : found = "background" := by
      rw [← takeWhile_of_all hfound hd, htext, takeWhile_of_all hword (by decide)]
    obtain ⟨rfl, hbehind⟩ := List.cons.inj (List.append_cancel_left htext)
    -- a semicolon in front of what is left would have been left there
    cases rest with
    | nil =>
      rw [withoutBackground_nil] at hbehind
      cases hbehind
    | cons e rest =>
      refine ⟨e, rest, by rw [hproperty]; simp, ?_⟩
      rintro rfl
      rw [withoutBackground_plain (by decide)] at hbehind
      exact hc (List.cons.inj hbehind).1.symm

/-- Behind the removal no background is left to be found. -/
theorem background?_withoutBackground (text : Text) :
    background? (withoutBackground text) = none := by
  induction text using readInduction with
  | nil => rw [withoutBackground_nil, background?_nil]
  | plain c text hc ih => rw [withoutBackground_plain hc, background?_cons hc, ih]
  | word found rest hne hfound hrest hbegins ih =>
    have hnot : ¬BeginsBackground (found ++ withoutBackground rest) :=
      fun hleft => hbegins (beginsBackground_of_word hfound hrest hleft)
    have hhead : ∀ c ∈ (withoutBackground rest).head?, isWord c = false := by
      rwa [head?_withoutBackground hrest]
    rw [withoutBackground_word hbegins hne hfound hrest, background?_word hnot hne hfound hhead, ih]
  | last value hne hvalue => rw [withoutBackground_last hne hvalue, background?_nil]
  | background value rest hne hvalue ih => rw [withoutBackground_background hne hvalue, ih]

theorem HasBackground.append (h : HasBackground text) (rest : Text) :
    HasBackground (text ++ rest) := by
  obtain ⟨before, _, rfl, ⟨c, behind, rfl, hc⟩, hbefore⟩ := h
  exact ⟨before, "background:" ++ c :: (behind ++ rest), by simp,
    ⟨c, behind ++ rest, rfl, hc⟩, hbefore⟩

theorem HasBackground.behind_blanks (h : HasBackground text) {lead : Text} (hlead : IsBlanks lead) :
    HasBackground (lead ++ text) := by
  obtain ⟨before, behind, rfl, hbegins, hbefore⟩ := h
  refine ⟨lead ++ before, behind, by simp, hbegins, fun c hc => ?_⟩
  rw [List.getLast?_append, Option.mem_def, Option.or_eq_some_iff] at hc
  rcases hc with hc | ⟨-, hc⟩
  · exact hbefore c hc
  · exact isWord_eq_false_of_isBlank (hlead c (List.mem_of_getLast? hc))

theorem HasBackground.of_trim (h : HasBackground (trim text)) : HasBackground text := by
  obtain ⟨before, after, hbefore, -, htext⟩ := exists_trim text
  rw [htext]
  exact (h.append after).behind_blanks hbefore

theorem not_hasBackground_trim (style : Text) :
    ¬HasBackground (trim (withoutBackground style)) := fun h =>
  (background?_eq_none_iff _).1 (background?_withoutBackground style) h.of_trim

/-! ### Attributes that are set apart -/

/-- There is nothing left to set apart: the address to load is that of the frame, and the style of a
frame that loads on a click has no background. -/
structure IsSettled (attributes : Attributes) : Prop where
  source : ∀ source, attributes.get? sourceName = some source → attributes.get? "src" = some source
  style : attributes.contains siteName = true → ∀ style, attributes.get? "style" = some style →
    ¬HasBackground style

theorem promoteSource_eq_self (h : ∀ source, attributes.get? sourceName = some source →
    attributes.get? "src" = some source) : promoteSource attributes = attributes := by
  unfold promoteSource
  split
  · next source hsource => exact Keyed.put_eq_self (h source hsource)
  · rfl

theorem extractBackground_eq_self (h : attributes.contains siteName = true →
    ∀ style, attributes.get? "style" = some style → ¬HasBackground style) :
    extractBackground attributes = attributes := by
  unfold extractBackground
  split
  · next style hsite hstyle => rw [(background?_eq_none_iff style).2 (h hsite style hstyle)]
  · rfl

theorem IsSettled.setApart_eq (h : IsSettled attributes) : setApart attributes = attributes := by
  rw [setApart, promoteSource_eq_self h.source, extractBackground_eq_self h.style]

theorem contains_extractBackground (attributes : Attributes) :
    (extractBackground attributes).contains siteName = attributes.contains siteName := by
  obtain ⟨-, hbackground, hstyle⟩ := clickName_ne siteName (by simp)
  rw [Keyed.contains_eq_isSome, Keyed.contains_eq_isSome,
    get?_extractBackground _ hbackground hstyle]

/-- With a site the style that stays behind has no background. -/
theorem not_hasBackground_extractBackground (hsite : attributes.contains siteName = true)
    (hstyle : (extractBackground attributes).get? "style" = some style) : ¬HasBackground style := by
  unfold extractBackground at hstyle
  split at hstyle
  · next old _ hold =>
    split at hstyle
    · simp only at hstyle
      split at hstyle
      · rw [Keyed.get?_erase_self] at hstyle
        cases hstyle
      · rw [Keyed.get?_put_self, Option.some_inj] at hstyle
        exact hstyle ▸ not_hasBackground_trim old
    · next hnone =>
      obtain rfl : old = style := Option.some.inj (hold.symm.trans hstyle)
      exact (background?_eq_none_iff old).1 hnone
  · next hother => exact absurd hstyle (hother style hsite)

theorem isSettled_setApart (attributes : Attributes) : IsSettled (setApart attributes) where
  source source hsource := by
    obtain ⟨hsrc, hbackground, hstyle⟩ := clickName_ne sourceName (by simp)
    have hother : ("src" : Text) ≠ backgroundName ∧ ("src" : Text) ≠ "style" := by decide
    rw [setApart, get?_extractBackground _ hbackground hstyle, get?_promoteSource _ hsrc] at hsource
    rw [setApart, get?_extractBackground _ hother.1 hother.2, promoteSource, hsource]
    exact Keyed.get?_put_self _ _ _
  style hsite _ hstyle :=
    not_hasBackground_extractBackground (contains_extractBackground _ ▸ hsite) hstyle

/-! ### What is left alone -/

def touched : List Text := ["src", "style", backgroundName]

theorem keep_promoteSource {test : Text → Bool} (h : test "src" = false) (attributes : Attributes) :
    (promoteSource attributes).keep test = attributes.keep test := by
  unfold promoteSource
  split
  · exact Keyed.keep_put h _ _
  · rfl

/-- A selection without the two keys is the same before and after. -/
theorem keep_extractBackground {test : Text → Bool} (hstyle : test "style" = false)
    (hbackground : test backgroundName = false) (attributes : Attributes) :
    (extractBackground attributes).keep test = attributes.keep test := by
  unfold extractBackground
  split
  · split
    · simp only
      split
      · rw [Keyed.keep_erase hstyle, Keyed.keep_put hbackground]
      · rw [Keyed.keep_put hstyle, Keyed.keep_put hbackground]
    · rfl
  · rfl

/-- Setting apart a second time changes nothing, all attributes but three stay in their order with
their values, and a frame that loads on a click has no background in its style any more. -/
theorem setApart_setApart (attributes : Attributes) :
    setApart (setApart attributes) = setApart attributes ∧
      (setApart attributes).keep (· ∉ touched) = attributes.keep (· ∉ touched) ∧
      (attributes.contains siteName = true →
        ∀ style, (setApart attributes).get? "style" = some style → ¬HasBackground style) := by
  refine ⟨(isSettled_setApart attributes).setApart_eq, ?_, fun hsite style hstyle => ?_⟩
  · rw [setApart, keep_extractBackground (by decide) (by decide), keep_promoteSource (by decide)]
  · have hapart : (setApart attributes).contains siteName = true := by
      rw [setApart, contains_extractBackground, Keyed.contains_eq_isSome,
        get?_promoteSource _ (clickName_ne siteName (by simp)).1,
        ← Keyed.contains_eq_isSome, hsite]
    exact (isSettled_setApart attributes).style hapart style hstyle

/-- A declaration without a value is no background, and it ends in front of the next. -/
example : withoutBackground "background:a;background:;background:b" = "background:;" := by
  decide +kernel

end LazyEmbed.ClickToLoad
