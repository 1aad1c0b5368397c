import LazyEmbed.Proofs.Placeholder.Declaration
import LazyEmbed.Proofs.Placeholder.Reading
import LazyEmbed.Proofs.Placeholder.Style

/-!
# Which background is taken out of a style

A style is read from word to word, and the sign behind a property ends no word but a hyphen does. So
a background is found where the name of another property, or a value, has `background:` behind
something that is no part of a word. It goes on to the next semicolon, and that may be the end of a
character reference. Otherwise a style is read declaration by declaration.
-/

namespace LazyEmbed.ClickToLoad

open Text Style

variable {text rest value piece : Text} {c : Char}

/-! ### Reading one declaration -/

def BeginsBackground (text : Text) : Prop :=
  ∃ c behind, text = ("background:" : Text) ++ c :: behind ∧ c ≠ ';'

/-- There is `background:` in the text with something behind it, and not behind a part of a word. -/
def HasBackground (text : Text) : Prop :=
  ∃ before behind, text = before ++ behind ∧ BeginsBackground behind ∧
    ∀ c ∈ before.getLast?, isWord c = false

namespace StylePart

theorem run_background (hne : value ≠ []) (h : ';' ∉ value) (rest : Text) :
    pattern.reader.run ("background:" ++ (value ++ ';' :: rest)) =
      some (.background value, rest) := by
  have hvalue : (Reader.many1 (· ≠ ';')).run (value ++ ';' :: rest) = some (value, ';' :: rest) :=
    Reader.run_many1_ne hne h rest
  have hend : (Reader.optional (.literal ";")).run (';' :: rest) = some (some (), rest) :=
    Reader.run_optional_of_run_eq_some (Reader.run_literal_singleton ';' rest)
  refine Option.or_eq_some_iff.2 (.inl ?_)
  simp only [Reader.run_bind, Reader.run_literal_append, Option.bind_some, hvalue, hend,
    Reader.run_pure]

theorem run_background_end (hne : value ≠ []) (h : ';' ∉ value) :
    pattern.reader.run ("background:" ++ value) = some (.background value, []) := by
  have hvalue : (Reader.many1 (· ≠ ';')).run (value ++ []) = some (value, []) :=
    Reader.run_many1_append hne (Text.forall_ne_iff.2 h) (by simp)
  have hend : (Reader.optional (.literal ";")).run [] = some (none, []) :=
    Reader.run_optional_of_run_eq_none rfl
  rw [List.append_nil] at hvalue
  refine Option.or_eq_some_iff.2 (.inl ?_)
  simp only [Reader.run_bind, Reader.run_literal_append, Option.bind_some, hvalue, hend,
    Reader.run_pure]

/-- Where no background begins, a word is read if there is one. -/
theorem run_of_not_begins (h : ¬BeginsBackground text) : pattern.reader.run text =
    ((Reader.many1 isWord).run text).map fun (found, rest) => (.word found, rest) := by
  have hbackground : (do
      .literal "background:"
      let value ← .many1 (· ≠ ';')
      let _ ← Reader.optional (.literal ";")
      pure (.background value) : Reader StylePart).run text = none := by
    rw [Option.eq_none_iff_forall_ne_some]
    rintro ⟨part, left⟩ hrun
    obtain ⟨_, behind, hstart, hrun⟩ := Reader.run_bind_eq_some_iff.1 hrun
    obtain ⟨value, _, hvalue, -⟩ := Reader.run_bind_eq_some_iff.1 hrun
    obtain rfl := Reader.run_literal_eq_some_iff.1 hstart
    obtain ⟨rfl, hne, hall⟩ := Reader.eq_append_of_run_many1 hvalue
    obtain ⟨c, value, rfl⟩ := List.exists_cons_of_ne_nil hne
    exact h ⟨c, _, rfl, by simpa using hall c List.mem_cons_self⟩
  have hpattern : pattern.reader.run text = (none : Option (StylePart × Text)).or ((do
      let found ← Reader.many1 isWord
      pure (.word found) : Reader StylePart).run text) := congrArg (Option.or · _) hbackground
  rw [hpattern, Option.none_or, Reader.run_bind]
  cases (Reader.many1 isWord).run text <;> rfl

end StylePart

theorem not_beginsBackground_nil : ¬BeginsBackground [] := by
  rintro ⟨c, behind, htext, -⟩
  cases htext

theorem not_beginsBackground_of_isWord (h : ∀ c ∈ text.head?, isWord c = false) :
    ¬BeginsBackground text := by
  rintro ⟨c, behind, rfl, -⟩
  exact absurd (h 'b' rfl) (by decide)

theorem beginsBackground_value (hne : value ≠ []) (h : ';' ∉ value) (rest : Text) :
    BeginsBackground ("background:" ++ (value ++ rest)) := by
  obtain ⟨c, value, rfl⟩ := List.exists_cons_of_ne_nil hne
  exact ⟨c, value ++ rest, rfl, ne_of_mem_of_not_mem List.mem_cons_self h⟩

theorem hasBackground_of_begins (h : BeginsBackground text) : HasBackground text :=
  ⟨[], text, rfl, h, fun _ hc => by cases hc⟩

/-- A semicolon behind a text begins no background in it. -/
theorem beginsBackground_append_iff (text rest : Text) :
    BeginsBackground (text ++ ';' :: rest) ↔ BeginsBackground text := by
  constructor
  · rintro ⟨c, behind, htext, hc⟩
    have hprefix : ("background:" : Text) <+: text :=
      Text.prefix_of_prefix_append_cons ⟨c :: behind, htext.symm⟩ (by decide)
    obtain ⟨left, rfl⟩ := hprefix
    rw [List.append_assoc] at htext
    have hleft := List.append_cancel_left htext
    cases left with
    | nil => exact absurd (List.cons.inj hleft).1.symm hc
    | cons d left => exact ⟨d, left, rfl, (List.cons.inj hleft).1 ▸ hc⟩
  · rintro ⟨c, behind, rfl, hc⟩
    exact ⟨c, behind ++ ';' :: rest, by simp, hc⟩

theorem run_word {found : Text} (h : ¬BeginsBackground (found ++ rest)) (hne : found ≠ [])
    (hfound : ∀ c ∈ found, isWord c = true) (hrest : ∀ c ∈ rest.head?, isWord c = false) :
    StylePart.pattern.reader.run (found ++ rest) = some (.word found, rest) := by
  rw [StylePart.run_of_not_begins h, Reader.run_many1_append hne hfound hrest]
  rfl

theorem run_eq_none (hc : isWord c = false) (text : Text) :
    StylePart.pattern.reader.run (c :: text) = none := by
  rw [StylePart.run_of_not_begins (not_beginsBackground_of_isWord (by simpa using hc)),
    Reader.run_many1, List.takeWhile_cons_of_neg (by simpa using hc)]
  rfl

theorem background?_hit {part : StylePart}
    (h : StylePart.pattern.reader.run text = some (part, rest)) :
    background? text = part.background?.or (background? rest) := by
  rw [background?, Pattern.hits_of_run_eq_some h, List.findSome?_cons]
  cases part.background? <;> rfl

/-- Proof along the reading of a style: characters between words, words, and backgrounds. -/
theorem readInduction {motive : Text → Prop} (nil : motive [])
    (plain : ∀ c text, isWord c = false → motive text → motive (c :: text))
    (word : ∀ found rest : Text, found ≠ [] → (∀ c ∈ found, isWord c = true) →
      (∀ c ∈ rest.head?, isWord c = false) →
      ¬BeginsBackground (found ++ rest) → motive rest → motive (found ++ rest))
    (last : ∀ value : Text, value ≠ [] → ';' ∉ value → motive ("background:" ++ value))
    (background : ∀ value rest : Text, value ≠ [] → ';' ∉ value → motive rest →
      motive ("background:" ++ (value ++ ';' :: rest))) (text : Text) : motive text := by
  induction hlength : text.length using Nat.strong_induction_on generalizing text with
  | h length ih =>
    subst hlength
    by_cases hbegins : BeginsBackground text
    · obtain ⟨c, behind, rfl, hc⟩ := hbegins
      by_cases hmem : ';' ∈ c :: behind
      · obtain ⟨value, rest, hvalue, hsemicolon⟩ := List.eq_append_cons_of_mem hmem
        rw [hvalue] at ih ⊢
        refine background value rest ?_ hsemicolon (ih rest.length (by simp; omega) rest rfl)
        rintro rfl
        exact hc (List.cons.inj hvalue).1
      · exact last _ (List.cons_ne_nil _ _) hmem
    · cases text with
      | nil => exact nil
      | cons c text =>
        by_cases hc : isWord c = true
        · have hsplit := List.takeWhile_append_dropWhile (p := isWord) (l := c :: text)
          rw [← hsplit] at hbegins ih ⊢
          have hfound : (c :: text).takeWhile isWord ≠ [] := by simp [hc]
          have hlonger : 0 < ((c :: text).takeWhile isWord).length := List.length_pos_iff.2 hfound
          have hhead := List.head?_dropWhile_not isWord (c :: text)
          refine word _ _ hfound (fun d hd => List.mem_takeWhile_imp hd) (fun d hd => ?_) hbegins
            (ih _ (by rw [List.length_append]; omega) _ rfl)
          rw [Option.mem_def.1 hd] at hhead
          exact hhead
        · exact plain c text (Bool.eq_false_iff.2 hc) (ih text.length (Nat.lt_succ_self _) text rfl)

/-! ### What is found and what is left -/

theorem background?_cons (hc : isWord c = false) (text : Text) :
    background? (c :: text) = background? text := by
  rw [background?, Pattern.hits_cons_of_run_eq_none (run_eq_none hc text), background?]

theorem withoutBackground_plain (hc : isWord c = false) (text : Text) :
    withoutBackground (c :: text) = c :: withoutBackground text :=
  withoutBackground_cons (run_eq_none hc text)

section

variable {found : Text} (h : ¬BeginsBackground (found ++ rest)) (hne : found ≠ [])
  (hfound : ∀ c ∈ found, isWord c = true) (hrest : ∀ c ∈ rest.head?, isWord c = false)
include h hne hfound hrest

theorem background?_word : background? (found ++ rest) = background? rest := by
  rw [background?_hit (run_word h hne hfound hrest)]
  rfl

theorem withoutBackground_word :
    withoutBackground (found ++ rest) = found ++ withoutBackground rest :=
  withoutBackground_hit (run_word h hne hfound hrest)

end

section

variable (hne : value ≠ []) (h : ';' ∉ value)
include hne h

theorem background?_background (rest : Text) :
    background? ("background:" ++ (value ++ ';' :: rest)) = some value := by
  rw [background?_hit (StylePart.run_background hne h rest)]
  rfl

theorem withoutBackground_background (rest : Text) :
    withoutBackground ("background:" ++ (value ++ ';' :: rest)) = withoutBackground rest :=
  withoutBackground_hit (StylePart.run_background hne h rest)

theorem background?_last : background? ("background:" ++ value) = some value := by
  rw [background?_hit (StylePart.run_background_end hne h)]
  rfl

theorem withoutBackground_last : withoutBackground ("background:" ++ value) = [] := by
  rw [withoutBackground_hit (StylePart.run_background_end hne h), withoutBackground_nil]
  rfl

end

theorem background?_nil : background? [] = none := by
  rw [background?, Pattern.hits_nil]
  rfl

/-- Only a text with a background is changed. -/
theorem withoutBackground_eq_self (h : background? text = none) :
    withoutBackground text = text := by
  induction text using readInduction with
  | nil => exact withoutBackground_nil
  | plain c text hc ih =>
    rw [background?_cons hc] at h
    rw [withoutBackground_plain hc, ih h]
  | word found rest hne hfound hrest hbegins ih =>
    rw [background?_word hbegins hne hfound hrest] at h
    rw [withoutBackground_word hbegins hne hfound hrest, ih h]
  | last value hne hvalue => exact absurd ((background?_last hne hvalue).symm.trans h) (by simp)
  | background value rest hne hvalue ih =>
    exact absurd ((background?_background hne hvalue rest).symm.trans h) (by simp)

/-- Nothing gets into a text as backgrounds are taken out of it. -/
theorem mem_of_mem_withoutBackground (h : c ∈ withoutBackground text) : c ∈ text := by
  induction text using readInduction with
  | nil => rwa [withoutBackground_nil] at h
  | plain d text hd ih =>
    rw [withoutBackground_plain hd] at h
    exact List.mem_cons.2 ((List.mem_cons.1 h).imp_right ih)
  | word found rest hne hfound hrest hbegins ih =>
    rw [withoutBackground_word hbegins hne hfound hrest] at h
    exact List.mem_append.2 ((List.mem_append.1 h).imp_right ih)
  | last value hne hvalue =>
    rw [withoutBackground_last hne hvalue] at h
    cases h
  | background value rest hne hvalue ih =>
    rw [withoutBackground_background hne hvalue] at h
    exact List.mem_append_right _ (List.mem_append_right _ (List.mem_cons_of_mem _ (ih h)))

/-- A piece of a style up to a semicolon is read by itself, if a background in it can only end
there. -/
theorem read_piece (h : ';' ∉ piece ∨ background? piece = none) (rest : Text) :
    background? (piece ++ ';' :: rest) = (background? piece).or (background? rest) ∧
      withoutBackground (piece ++ ';' :: rest) =
        if (background? piece).isSome then withoutBackground piece ++ withoutBackground rest
        else piece ++ ';' :: withoutBackground rest := by
  have hsemicolon : isWord ';' = false := by decide
  induction piece using readInduction with
  | nil =>
    rw [List.nil_append, background?_cons hsemicolon, withoutBackground_plain hsemicolon,
      background?_nil]
    exact ⟨rfl, rfl⟩
  | plain c text hc ih =>
    rw [background?_cons hc] at h
    obtain ⟨hbackground, hwithout⟩ :=
      ih (h.imp_left fun hmem hmem' => hmem (List.mem_cons_of_mem _ hmem'))
    rw [List.cons_append, background?_cons hc, background?_cons hc, withoutBackground_plain hc,
      withoutBackground_plain hc, hbackground, hwithout]
    refine ⟨rfl, ?_⟩
    split <;> rfl
  | word found left hne hfound hleft hbegins ih =>
    rw [background?_word hbegins hne hfound hleft] at h
    obtain ⟨hbackground, hwithout⟩ :=
      ih (h.imp_left fun hmem hmem' => hmem (List.mem_append_right _ hmem'))
    have hbegins' : ¬BeginsBackground (found ++ (left ++ ';' :: rest)) := by
      rwa [← List.append_assoc, beginsBackground_append_iff]
    have hleft' : ∀ c ∈ (left ++ ';' :: rest).head?, isWord c = false := by
      cases left with
      | nil => simpa using hsemicolon
      | cons d left => exact hleft
    rw [List.append_assoc, background?_word hbegins' hne hfound hleft',
      background?_word hbegins hne hfound hleft, withoutBackground_word hbegins' hne hfound hleft',
      withoutBackground_word hbegins hne hfound hleft, hbackground, hwithout]
    refine ⟨rfl, ?_⟩
    split
    · rw [List.append_assoc]
    · rw [List.append_assoc]
  | last value hne hvalue =>
    rw [List.append_assoc, background?_background hne hvalue,
      withoutBackground_background hne hvalue, background?_last hne hvalue,
      withoutBackground_last hne hvalue]
    exact ⟨rfl, rfl⟩
  | background value left hne hvalue =>
    obtain hmem | hnone := h
    · exact absurd (by simp) hmem
    · exact absurd ((background?_background hne hvalue left).symm.trans hnone) (by simp)

/-- A background does not begin before a character that is no part of a word, and may begin behind
it. -/
theorem hasBackground_cons_iff {c : Char} (hc : isWord c = false) (text : Text) :
    HasBackground (c :: text) ↔ HasBackground text := by
  constructor
  · rintro ⟨before, behind, htext, hbegins, hbefore⟩
    cases before with
    | nil =>
      rw [List.nil_append] at htext
      exact absurd (htext ▸ hbegins) (not_beginsBackground_of_isWord (by simpa using hc))
    | cons d before =>
      obtain ⟨rfl, rfl⟩ := List.cons.inj htext
      refine ⟨before, behind, rfl, hbegins, fun e he => hbefore e ?_⟩
      cases before with
      | nil => cases he
      | cons f before => simpa using he
  · rintro ⟨before, behind, rfl, hbegins, hbefore⟩
    refine ⟨c :: before, behind, rfl, hbegins, fun d hd => ?_⟩
    cases before with
    | nil =>
      obtain rfl : c = d := by simpa using hd
      exact hc
    | cons e before => exact hbefore d (by simpa using hd)

/-- Nor does it begin in a word, unless the word begins with it. -/
theorem hasBackground_append_iff {found rest : Text} (hfound : ∀ c ∈ found, isWord c = true)
    (hrest : ∀ c ∈ rest.head?, isWord c = false) (hnot : ¬BeginsBackground (found ++ rest)) :
    HasBackground (found ++ rest) ↔ HasBackground rest := by
  constructor
  · rintro ⟨before, behind, htext, hbegins, hbefore⟩
    obtain ⟨left, rfl, rfl⟩ | ⟨left, rfl, rfl⟩ := List.append_eq_append_iff.1 htext
    · refine ⟨left, behind, rfl, hbegins, fun d hd => hbefore d ?_⟩
      rw [Option.mem_def, List.getLast?_append, Option.mem_def.1 hd, Option.some_or]
    · -- the background would begin in the word, behind a part of it
      exfalso
      obtain hnil | ⟨others, last, hlast⟩ := List.eq_nil_or_concat before
      · subst hnil
        exact hnot (by simpa using hbegins)
      · have hword := hfound last (by simp [hlast])
        have hnonword := hbefore last (by simp [hlast])
        exact Bool.noConfusion (hword.symm.trans hnonword)
  · rintro ⟨before, behind, rfl, hbegins, hbefore⟩
    refine ⟨found ++ before, behind, by simp, hbegins, fun d hd => hbefore d ?_⟩
    cases before with
    | nil => exact absurd hbegins (not_beginsBackground_of_isWord hrest)
    | cons e before => simpa [List.getLast?_append] using hd

/-- What is looked for in a style is `background:` behind something that is no part of a word. -/
theorem background?_eq_none_iff (text : Text) : background? text = none ↔ ¬HasBackground text := by
  induction text using readInduction with
  | nil =>
    refine iff_of_true background?_nil ?_
    rintro ⟨before, behind, htext, hbegins, -⟩
    obtain ⟨rfl, rfl⟩ := List.append_eq_nil_iff.1 htext.symm
    exact not_beginsBackground_nil hbegins
  | plain c text hc ih =>
    rw [background?_cons hc, ih, hasBackground_cons_iff hc]
  | word found rest hne hfound hrest hnot ih =>
    rw [background?_word hnot hne hfound hrest, ih, hasBackground_append_iff hfound hrest hnot]
  | last value hne hvalue =>
    have hbegins := beginsBackground_value hne hvalue []
    rw [List.append_nil] at hbegins
    exact iff_of_false (fun hnone =>
      Option.some_ne_none _ ((background?_last hne hvalue).symm.trans hnone))
      (not_not_intro (hasBackground_of_begins hbegins))
  | background value rest hne hvalue =>
    exact iff_of_false (fun hnone =>
      Option.some_ne_none _ ((background?_background hne hvalue rest).symm.trans hnone))
      (not_not_intro (hasBackground_of_begins (beginsBackground_value hne hvalue _)))

/-- A declaration that begins with `background:` is found as a whole, and blanks before it are
left. -/
theorem read_background {lead : Text} (hlead : IsBlanks lead) (hne : value ≠ []) (h : ';' ∉ value) :
    background? (lead ++ ("background:" ++ value)) = some value ∧
      withoutBackground (lead ++ ("background:" ++ value)) = lead := by
  induction lead with
  | nil => exact ⟨background?_last hne h, withoutBackground_last hne h⟩
  | cons c lead ih =>
    obtain ⟨hc, hlead⟩ := List.forall_mem_cons.1 hlead
    obtain ⟨hbackground, hwithout⟩ := ih hlead
    have hword := isWord_eq_false_of_isBlank hc
    rw [List.cons_append, background?_cons hword, withoutBackground_plain hword, hwithout]
    exact ⟨hbackground, rfl⟩

/-- Taking backgrounds out of a text takes something out of it. -/
theorem weight_withoutBackground (text : Text) :
    weight (withoutBackground text) + (if (background? text).isSome then 1 else 0) ≤
      weight text := by
  have hname : ∀ rest : Text, weight ("background:" ++ rest) = 10 + weight rest := by
    intro rest
    have hfixed : weight "background:" = 10 := by decide
    rw [weight_append, hfixed]
  have hcons : ∀ (c : Char) (text : Text), weight (c :: text) = weight [c] + weight text :=
    fun c text =>
    weight_append [c] text
  induction text using readInduction with
  | nil => rw [withoutBackground_nil, background?_nil]; exact Nat.le_refl _
  | plain c text hc ih =>
    rw [withoutBackground_plain hc, background?_cons hc, hcons, hcons c text]
    omega
  | word found rest hne hfound hrest hbegins ih =>
    rw [withoutBackground_word hbegins hne hfound hrest, background?_word hbegins hne hfound hrest,
      weight_append, weight_append]
    omega
  | last value hne hvalue =>
    rw [withoutBackground_last hne hvalue, hname]
    have hnil : weight [] = 0 := rfl
    split <;> omega
  | background value rest hne hvalue ih =>
    rw [withoutBackground_background hne hvalue, hname, weight_append, hcons]
    split <;> omega

/-- Of a piece up to a semicolon as much is left as if it stood alone. -/
theorem weight_withoutBackground_piece (h : ';' ∉ piece) (rest : Text) :
    weight (withoutBackground (piece ++ ';' :: rest)) =
      weight (withoutBackground piece) + weight (withoutBackground rest) := by
  rw [(read_piece (.inl h) rest).2]
  split
  · exact weight_append _ _
  · next hnone =>
    rw [weight_append, weight_semicolon_cons,
      withoutBackground_eq_self (Option.not_isSome_iff_eq_none.1 hnone)]

end LazyEmbed.ClickToLoad
