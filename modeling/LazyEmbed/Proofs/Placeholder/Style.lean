import LazyEmbed.Placeholder.ClickToLoad
import LazyEmbed.Proofs.Text.Reading
import LazyEmbed.Proofs.Text.Respelling

/-!
# Styles that lose their background

Words are read as a whole, so a background is found only where a word begins. When it goes, what
stands before it meets what stands behind it, and a name can come up that was not there. It does so
only if the background stood behind a hyphen, since no word goes on to where another one begins.
-/

namespace LazyEmbed.ClickToLoad

variable {text rest style word old new : Text} {c : Char}

/-- What is found in a style is a background, or a whole word. -/
theorem StylePart.cases_of_run {part : StylePart}
    (h : StylePart.pattern.reader.run text = some (part, rest)) :
    (∃ value behind, part = .background value ∧ text = "background:" ++ (value ++ behind) ∧
      rest <:+ behind) ∨ ∃ word, part = .word word ∧ text = word ++ rest ∧
      (∀ c ∈ word, Text.isWord c = true) ∧ ∀ c ∈ rest.head?, Text.isWord c = false := by
  rcases Option.or_eq_some_iff.1 h with hbackground | ⟨-, hword⟩
  · left
    obtain ⟨_, behind, hstart, hread⟩ := Reader.run_bind_eq_some_iff.1 hbackground
    obtain ⟨value, behind₁, hvalue, hread⟩ := Reader.run_bind_eq_some_iff.1 hread
    obtain ⟨_, behind₂, hend, hpure⟩ := Reader.run_bind_eq_some_iff.1 hread
    obtain ⟨rfl, rfl⟩ := Prod.mk.inj (Option.some.inj hpure)
    obtain rfl := Reader.run_literal_eq_some_iff.1 hstart
    obtain ⟨rfl, -, -⟩ := Reader.eq_append_of_run_many1 hvalue
    exact ⟨value, behind₁, rfl, rfl, Reader.suffix_of_run _ hend⟩
  · right
    obtain ⟨word, behind, hread, hpure⟩ := Reader.run_bind_eq_some_iff.1 hword
    obtain ⟨rfl, rfl⟩ := Prod.mk.inj (Option.some.inj hpure)
    obtain ⟨htext, -, hall⟩ := Reader.eq_append_of_run_many1 hread
    refine ⟨word, rfl, htext, hall, fun c hc => ?_⟩
    rw [Reader.run_many1, Option.ite_none_left_eq_some] at hread
    obtain ⟨-, rfl⟩ := Prod.mk.inj (Option.some.inj hread.2)
    have hhead := List.head?_dropWhile_not Text.isWord text
    rw [hc] at hhead
    exact hhead

theorem isWord_eq_false_of_run_eq_none (h : StylePart.pattern.reader.run (c :: text) = none) :
    Text.isWord c = false := by
  have hword := (Option.or_eq_none_iff.1 h).2
  by_contra hc
  rw [Bool.not_eq_false] at hc
  have hread : (Reader.many1 Text.isWord).run (c :: text) ≠ none := by
    rw [Reader.run_many1, List.takeWhile_cons_of_pos hc, if_neg (List.cons_ne_nil _ _)]
    exact Option.some_ne_none _
  rw [Reader.run_bind, Option.bind_eq_none_iff] at hword
  obtain ⟨⟨found, left⟩, hfound⟩ := Option.ne_none_iff_exists'.1 hread
  exact Option.some_ne_none _ (hword (found, left) hfound)

theorem withoutBackground_nil : withoutBackground [] = [] := Pattern.replace_nil _ _

theorem withoutBackground_cons (h : StylePart.pattern.reader.run (c :: text) = none) :
    withoutBackground (c :: text) = c :: withoutBackground text :=
  Pattern.replace_cons_of_run_eq_none h

theorem withoutBackground_hit {part : StylePart}
    (h : StylePart.pattern.reader.run text = some (part, rest)) :
    withoutBackground text = part.otherText ++ withoutBackground rest :=
  Pattern.replace_of_run_eq_some h

/-- A background behind a hyphen is in the text if it is so in front of a word or of nothing. -/
theorem not_isInfix_hyphen (h : ¬("-background:" : Text) <:+: text)
    (hhead : ∀ c ∈ text.head?, Text.isWord c = false) :
    ¬("-background:" : Text) <:+: '-' :: text := by
  have hsplit : ("-background:" : Text) = '-' :: 'b' :: "ackground:" := by decide
  rw [List.infix_cons_iff, not_or]
  refine ⟨fun hbegins => ?_, h⟩
  rw [hsplit, List.cons_prefix_cons] at hbegins
  obtain ⟨behind, rfl⟩ := hbegins.2
  exact absurd (hhead 'b' rfl) (by decide)

def IsNamePart (c : Char) : Prop := Text.isWord c = true ∨ c = '-'

theorem isPrefix_of_isPrefix_withoutBackground (hword : ∀ c ∈ word, IsNamePart c)
    (hstyle : ¬("-background:" : Text) <:+: '-' :: style) (h : word <+: withoutBackground style) :
    word <+: style := by
  induction style using StylePart.pattern.searchInduction generalizing word with
  | nil => rwa [withoutBackground_nil] at h
  | plain c text hrun ih =>
    rw [withoutBackground_cons hrun] at h
    cases word with
    | nil => exact List.nil_prefix
    | cons d word =>
      obtain ⟨hd, hwordRest⟩ := List.forall_mem_cons.1 hword
      obtain ⟨rfl, hlater⟩ := List.cons_prefix_cons.1 h
      -- a character of the name that is in no word is a hyphen, so no background stands behind it
      obtain hd | rfl := hd
      · rw [isWord_eq_false_of_run_eq_none hrun] at hd
        cases hd
      · have htext : ¬("-background:" : Text) <:+: '-' :: text := fun hbegun =>
          hstyle (hbegun.trans (List.suffix_cons '-' _).isInfix)
        exact List.cons_prefix_cons.2 ⟨rfl, ih hwordRest htext hlater⟩
  | hit text part rest hrun ih =>
    obtain ⟨value, behind, -, rfl, -⟩ | ⟨found, rfl, rfl, hfound, hhead⟩ :=
      StylePart.cases_of_run hrun
    · have hhyphen : ("-background:" : Text) = '-' :: "background:" := by decide
      refine absurd ?_ hstyle
      rw [hhyphen]
      exact (List.cons_prefix_cons.2 ⟨rfl, List.prefix_append _ _⟩).isInfix
    · rw [withoutBackground_hit hrun] at h
      have hrest : ¬("-background:" : Text) <:+: '-' :: rest := by
        refine not_isInfix_hyphen (fun hbegun => hstyle ?_) hhead
        exact hbegun.trans ((List.suffix_append found rest).trans (List.suffix_cons '-' _)).isInfix
      exact Text.isPrefix_append_of (fun word hword hbegins => ih hword hrest hbegins) found hword h

/-- A name in a style that lost its background was there before, if the background stood behind no
hyphen. -/
theorem isInfix_of_isInfix_withoutBackground (hword : ∀ c ∈ word, IsNamePart c)
    (hfirst : ∃ c ∈ word.head?, Text.isWord c = true) (hstyle : ¬("-background:" : Text) <:+: style)
    (h : word <:+: withoutBackground style) : word <:+: style := by
  induction style using StylePart.pattern.searchInduction with
  | nil => rwa [withoutBackground_nil] at h
  | plain c text hrun ih =>
    rw [withoutBackground_cons hrun] at h
    have hmore := (List.suffix_cons c text).isInfix
    rcases List.infix_cons_iff.1 h with hbegins | hlater
    · obtain ⟨d, hd, hdword⟩ := hfirst
      cases word with
      | nil => cases hd
      | cons e word =>
        cases hd
        obtain ⟨rfl, -⟩ := List.cons_prefix_cons.1 hbegins
        rw [isWord_eq_false_of_run_eq_none hrun] at hdword
        cases hdword
    · exact (ih (fun hbegun => hstyle (hbegun.trans hmore)) hlater).trans hmore
  | hit text part rest hrun ih =>
    have hmore : rest <:+: text := (StylePart.pattern.reader.suffix_of_run hrun).isInfix
    have hrest : ¬("-background:" : Text) <:+: rest := fun hbegun => hstyle (hbegun.trans hmore)
    rw [withoutBackground_hit hrun] at h
    obtain ⟨value, behind, rfl, -, -⟩ | ⟨found, rfl, rfl, hfound, hhead⟩ :=
      StylePart.cases_of_run hrun
    · exact (ih hrest h).trans hmore
    · have hbegins : ∀ word : Text, (∀ c ∈ word, IsNamePart c) → word <+: withoutBackground rest →
          word <+: rest :=
        fun word hword =>
          isPrefix_of_isPrefix_withoutBackground hword (not_isInfix_hyphen hrest hhead)
      have hfront : ∀ front : Text, word <:+: front ++ withoutBackground rest →
          word <:+: front ++ rest := by
        intro front
        induction front with
        | nil => exact ih hrest
        | cons c front ihfront =>
          intro hbegun
          rcases List.infix_cons_iff.1 hbegun with hprefix | hlater
          · exact (Text.isPrefix_append_of hbegins (c :: front) hword hprefix).isInfix
          · exact (ihfront hlater).trans (List.suffix_cons c _).isInfix
      exact hfront found h

theorem isInfix_of_background? {value : Text} (h : background? style = some value) :
    value <:+: style := by
  obtain ⟨part, hpart, hvalue⟩ := List.exists_of_findSome?_eq_some h
  obtain ⟨behind, rest, hsuffix, hrun⟩ := Pattern.exists_run_of_mem_hits hpart
  obtain ⟨found, left, rfl, rfl, -⟩ | ⟨found, rfl, -, -, -⟩ := StylePart.cases_of_run hrun
  · obtain rfl := Option.some.inj hvalue
    have hfound : found <:+: "background:" ++ (found ++ left) :=
      ⟨"background:", left, List.append_assoc _ _ _⟩
    exact hfound.trans hsuffix.isInfix
  · cases hvalue

end LazyEmbed.ClickToLoad
