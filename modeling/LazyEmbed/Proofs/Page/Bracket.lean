import LazyEmbed.Proofs.Page.Frame

/-!
# Frames by their brackets

What is read as a frame is a matter of the stretches between closing brackets: of how they begin,
and of whether they are closing tags. So a page that is changed without harm to these begins with a
frame only where it did so before. `Milder` says what has to be shown of the text behind a bracket,
and a milder text stays so with anything in front of it.
-/

namespace LazyEmbed.Page

variable {start next : Text → Prop} {text segment rest old new : Text}

/-! ### Texts by their first bracket -/

/-- The text is cut by its first bracket into a segment and a rest of the given kinds. -/
def Cut (start next : Text → Prop) (text : Text) : Prop :=
  ∃ segment rest, '>' ∉ segment ∧ start segment ∧ next rest ∧ text = segment ++ '>' :: rest

theorem cut_iff (hsegment : '>' ∉ segment) :
    Cut start next (segment ++ '>' :: rest) ↔ start segment ∧ next rest := by
  constructor
  · rintro ⟨other, left, hother, hstart, hnext, heq⟩
    obtain ⟨rfl, rfl⟩ := Text.append_cons_inj hsegment hother heq
    exact ⟨hstart, hnext⟩
  · rintro ⟨hstart, hnext⟩
    exact ⟨segment, rest, hsegment, hstart, hnext, rfl⟩

theorem not_cut (h : '>' ∉ text) : ¬Cut start next text := by
  rintro ⟨segment, rest, -, -, -, rfl⟩
  exact h (List.mem_append_right _ List.mem_cons_self)

/-- A text has no bracket, or it is cut by its last one. -/
theorem eq_last_or (text : Text) :
    '>' ∉ text ∨ ∃ front last, '>' ∉ last ∧ text = front ++ '>' :: last := by
  by_cases h : '>' ∈ text
  · obtain ⟨last, front, heq, hlast⟩ := List.eq_append_cons_of_mem (List.mem_reverse.2 h)
    have htext := congrArg List.reverse heq
    rw [List.reverse_reverse, List.reverse_append, List.reverse_cons, List.append_assoc,
      List.singleton_append] at htext
    exact .inr ⟨front.reverse, last.reverse, fun hmem => hlast (List.mem_reverse.1 hmem), htext⟩
  · exact .inl h

/-- A text has no bracket, or it is cut by its first one. -/
theorem eq_segment_or (text : Text) :
    '>' ∉ text ∨ ∃ segment rest, '>' ∉ segment ∧ text = segment ++ '>' :: rest := by
  by_cases h : '>' ∈ text
  · obtain ⟨segment, rest, heq, hsegment⟩ := List.eq_append_cons_of_mem h
    exact .inr ⟨segment, rest, hsegment, heq⟩
  · exact .inl h

/-! ### Frames -/

def Closes : Text → Prop := Cut (· = "</iframe") (Frame.endsTemplate · = false)

def Holds : Text → Prop := Cut ("<iframe" <+: ·) Closes

def Wraps : Text → Prop := Cut ("<span" <+: ·) Holds

/-- What may stand behind a bracket of a frame that is not its last one. -/
def GoesOn (text : Text) : Prop := Closes text ∨ Holds text ∨ Wraps text

theorem closes_append (h : Frame.endsTemplate rest = false) : Closes ("</iframe>" ++ rest) := by
  have hclosing : ("</iframe>" : Text) = "</iframe" ++ ['>'] := by decide
  exact ⟨"</iframe", rest, by decide, rfl,
    h, by rw [hclosing, List.append_assoc, List.singleton_append]⟩

theorem exists_of_closes (h : Closes text) :
    ∃ rest, text = "</iframe>" ++ rest ∧ Frame.endsTemplate rest = false := by
  have hclosing : ("</iframe>" : Text) = "</iframe" ++ ['>'] := by decide
  obtain ⟨_, rest, -, rfl, hends, rfl⟩ := h
  exact ⟨rest, by rw [hclosing, List.append_assoc, List.singleton_append], hends⟩

/-- A frame is told by its first bracket: by the tag before it and what kind of text goes on behind.
-/
theorem isFrame_iff : IsFrame text ↔ Cut OpensFrame Closes text ∨ Cut OpensWrapper Wraps text := by
  constructor
  · rintro ⟨frame, rest, hreads⟩
    cases hreads with
    | @marked segment _ hsegment hopens hrest =>
      exact .inl ⟨segment, _, hsegment, hopens, closes_append hrest, rfl⟩
    | @wrapped segment inner inside _ hsegment hopens hinner hinside hrest =>
      have hspan : '>' ∉ ("<span" : Text) ++ inner := by simp [hinner]
      have hiframe : '>' ∉ ("<iframe" : Text) ++ inside := by simp [hinside]
      have hholds : Holds ("<iframe" ++ (inside ++ '>' :: ("</iframe>" ++ rest))) :=
        ⟨_, _, hiframe, List.prefix_append _ _, closes_append hrest, (List.append_assoc _ _ _).symm⟩
      have hwraps :
          Wraps ("<span" ++
            (inner ++ '>' :: ("<iframe" ++ (inside ++ '>' :: ("</iframe>" ++ rest))))) :=
        ⟨_, _, hspan, List.prefix_append _ _, hholds, (List.append_assoc _ _ _).symm⟩
      exact .inr ⟨segment, _, hsegment, hopens, hwraps, rfl⟩
  · rintro (⟨segment, _, hsegment, hopens, hcloses, rfl⟩ | ⟨segment, _, hsegment,
      hopens, hwraps, rfl⟩)
    · obtain ⟨rest, rfl, hends⟩ := exists_of_closes hcloses
      exact ⟨_, rest, .marked hsegment hopens hends⟩
    · obtain ⟨_, _, hspan, ⟨inner, rfl⟩, ⟨_, _, hiframe, ⟨inside, rfl⟩, hcloses, rfl⟩,
          rfl⟩ := hwraps
      obtain ⟨rest, rfl, hends⟩ := exists_of_closes hcloses
      rw [List.mem_append, not_or] at hspan hiframe
      rw [List.append_assoc, List.append_assoc]
      exact ⟨_, rest, .wrapped hsegment hopens hspan.2 hiframe.2 hends⟩

theorem starts_of_isFrame (h : IsFrame text) : markedStart <+: text ∨ wrapperStart <+: text := by
  rcases isFrame_iff.1 h
      with ⟨segment, rest, -, hopens, -, rfl⟩ | ⟨segment, rest, -, hopens, -, rfl⟩
  · exact .inl (hopens.1.trans (List.prefix_append _ _))
  · exact .inr (hopens.1.trans (List.prefix_append _ _))

/-- No frame begins where neither an embedded frame nor a wrapper does. -/
theorem passes_of_misses (hmarked : Text.Misses markedStart text rest)
    (hwrapper : Text.Misses wrapperStart text rest) : Frame.pattern.Passes text rest := by
  intro front after heq hne
  rw [run_eq_none_iff]
  intro hframe
  rcases starts_of_isFrame hframe with hbegins | hbegins
  · exact hmarked front after heq hne hbegins
  · exact hwrapper front after heq hne hbegins

/-! ### The end of a template -/

def EndsLast (segment : Text) : Prop :=
  ∃ blanks : Text, (∀ c ∈ blanks, Text.isBlank c = true) ∧ segment = blanks ++ "</template"

theorem afterWrappers_append (text : Text) :
    Frame.afterWrappers ("</span>" ++ text) = Frame.afterWrappers text := by
  rw [Frame.afterWrappers]
  split
  · next rest hrest =>
    rw [Text.afterStart?_append] at hrest
    rw [Option.some.inj hrest]
  · next hnone =>
    rw [Text.afterStart?_append] at hnone
    cases hnone

theorem afterWrappers_eq_self (h : ¬("</span>" : Text) <+: text) :
    Frame.afterWrappers text = text := by
  rw [Frame.afterWrappers]
  split
  · next rest hrest => exact absurd ⟨rest, (Text.eq_append_of_afterStart? hrest).symm⟩ h
  · rfl

theorem endsTemplate_iff_of_not_begins (h : ¬("</span>" : Text) <+: text) :
    Frame.endsTemplate text = true ↔ Cut EndsLast (fun _ => True) text := by
  have htemplate : ("</template>" : Text) = "</template" ++ ['>'] := by decide
  have hfirst : ("</template" : Text) = '<' :: "/template" := by decide
  rw [Frame.endsTemplate, afterWrappers_eq_self h, List.isPrefixOf_iff_prefix]
  constructor
  · rintro ⟨rest, hrest⟩
    have hblanks : ∀ c ∈ text.takeWhile Text.isBlank, Text.isBlank c = true :=
      fun c hc => List.mem_takeWhile_imp hc
    have hbracket : '>' ∉ text.takeWhile Text.isBlank :=
      fun hmem => absurd (hblanks _ hmem) (by decide)
    have htag : '>' ∉ ("</template" : Text) := by decide
    refine ⟨text.takeWhile Text.isBlank ++ "</template", rest, ?_, ⟨_, hblanks, rfl⟩, trivial, ?_⟩
    · rw [List.mem_append, not_or]
      exact ⟨hbracket, htag⟩
    · calc text = text.takeWhile Text.isBlank ++ text.dropWhile Text.isBlank :=
        List.takeWhile_append_dropWhile.symm
        _ = text.takeWhile Text.isBlank ++ (("</template" ++ ['>']) ++ rest) := by
          rw [← hrest, ← htemplate]
        _ = (text.takeWhile Text.isBlank ++ "</template") ++ '>' :: rest := by
          simp only [List.append_assoc, List.singleton_append]
  · rintro ⟨segment, rest, -, ⟨blanks, hblanks, rfl⟩, -, rfl⟩
    rw [List.append_assoc, hfirst, List.cons_append, Text.dropWhile_of_all hblanks (by decide)]
    exact ⟨rest, by simp⟩

/-- Whether a template ends here is told by the first bracket as well. -/
theorem endsTemplate_iff : Frame.endsTemplate text = true ↔
    Cut (· = "</span") (Frame.endsTemplate · = true) text ∨ Cut EndsLast (fun _ => True) text := by
  have hspan : ∀ rest : Text, "</span>" ++ rest = "</span" ++ '>' :: rest := by
    have hclosing : ("</span>" : Text) = "</span" ++ ['>'] := by decide
    intro rest
    rw [hclosing, List.append_assoc, List.singleton_append]
  by_cases h : ("</span>" : Text) <+: text
  · obtain ⟨rest, rfl⟩ := h
    have hlast : ¬EndsLast "</span" := by
      rintro ⟨blanks, -, heq⟩
      have hlength := congrArg List.length heq
      have hshort : ("</span" : Text).length < ("</template" : Text).length := by decide
      rw [List.length_append] at hlength
      omega
    have hbracket : '>' ∉ ("</span" : Text) := by decide
    have hends : Frame.endsTemplate ("</span>" ++ rest) = Frame.endsTemplate rest := by
      rw [Frame.endsTemplate, afterWrappers_append, Frame.endsTemplate]
    rw [hends, hspan, cut_iff hbracket, cut_iff hbracket, or_iff_left fun hcut => hlast hcut.1]
    exact (and_iff_right rfl).symm
  · rw [endsTemplate_iff_of_not_begins h, or_iff_right]
    rintro ⟨_, rest, -, rfl, -, rfl⟩
    exact h ⟨rest, hspan rest⟩

/-! ### Changes that make no frames -/

/-- Whatever stands in front of the new text, no frame is in front of it or reaches into it that was
not there with the old one. -/
structure Milder (old new : Text) : Prop where
  closes : Closes new → Closes old
  holds : Holds new → Holds old
  wraps : Wraps new → Wraps old
  ends : Frame.endsTemplate old = true → Frame.endsTemplate new = true

namespace Milder

theorem refl (text : Text) : Milder text text := ⟨id, id, id, id⟩

/-- What no frame goes on with is milder than anything that ends no template. -/
theorem of_not_goesOn (hnew : ¬GoesOn new) (hends : ¬Frame.endsTemplate old = true) :
    Milder old new where
  closes h := absurd (.inl h) hnew
  holds h := absurd (.inr (.inl h)) hnew
  wraps h := absurd (.inr (.inr h)) hnew
  ends h := absurd h hends

variable (h : Milder old new)
include h

theorem endsTemplate_eq_false (hnew : Frame.endsTemplate new = false) :
    Frame.endsTemplate old = false := by
  rw [← Bool.not_eq_true] at hnew ⊢
  exact fun hold => hnew (h.ends hold)

theorem of_segment (hsegment : '>' ∉ segment) :
    Milder (segment ++ '>' :: old) (segment ++ '>' :: new) where
  closes := by
    rw [Closes, cut_iff hsegment, cut_iff hsegment]
    exact And.imp_right h.endsTemplate_eq_false
  holds := by
    rw [Holds, cut_iff hsegment, cut_iff hsegment]
    exact And.imp_right h.closes
  wraps := by
    rw [Wraps, cut_iff hsegment, cut_iff hsegment]
    exact And.imp_right h.holds
  ends := by
    rw [endsTemplate_iff, endsTemplate_iff, cut_iff hsegment, cut_iff hsegment, cut_iff hsegment,
      cut_iff hsegment]
    exact Or.imp_left (And.imp_right h.ends)

theorem isFrame (hsegment : '>' ∉ segment) (hframe : IsFrame (segment ++ '>' :: new)) :
    IsFrame (segment ++ '>' :: old) := by
  rw [isFrame_iff, cut_iff hsegment, cut_iff hsegment] at hframe ⊢
  exact hframe.imp (And.imp_right h.closes) (And.imp_right h.wraps)

/-- A milder text stays so, whatever stands in front of the bracket. -/
theorem bracket (before : Text) : Milder (before ++ '>' :: old) (before ++ '>' :: new) := by
  induction hlength : before.length using Nat.strongRecOn generalizing before with
  | _ length ih =>
    obtain hfree | ⟨segment, rest, hsegment, rfl⟩ := eq_segment_or before
    · exact h.of_segment hfree
    · rw [List.length_append, List.length_cons] at hlength
      have hrest := (ih rest.length (by omega) rest rfl).of_segment hsegment
      rwa [List.append_assoc, List.append_assoc]

theorem isFrame_bracket (before : Text) (hframe : IsFrame (before ++ '>' :: new)) :
    IsFrame (before ++ '>' :: old) := by
  obtain hfree | ⟨segment, rest, hsegment, rfl⟩ := eq_segment_or before
  · exact h.isFrame hfree hframe
  · rw [List.append_assoc, List.cons_append] at hframe ⊢
    exact (h.bracket rest).isFrame hsegment hframe

theorem passes {before : Text} (hpasses : Frame.pattern.Passes (before ++ ['>']) old) :
    Frame.pattern.Passes (before ++ ['>']) new := by
  intro front after heq hne
  have hnone := hpasses front after heq hne
  obtain rfl | ⟨word, rfl, -⟩ := List.suffix_concat_iff.1 (heq ▸ List.suffix_append front after)
  · exact absurd rfl hne
  rw [run_eq_none_iff, List.append_assoc, List.singleton_append] at hnone ⊢
  exact fun hframe => hnone (h.isFrame_bracket word hframe)

end Milder

/-- Put in place of the old text, the new one lets no frame begin before it that did not begin there
anyway. -/
structure Tame (old new : Text) : Prop where
  milder : ∀ {last : Text}, '>' ∉ last → Milder (last ++ old) (last ++ new)
  passes : ∀ {last : Text}, '>' ∉ last → Frame.pattern.Passes last old →
    Frame.pattern.Passes last new

namespace Tame

variable (h : Tame old new) {before : Text}
include h

theorem milder_append (before : Text) : Milder (before ++ old) (before ++ new) := by
  obtain hfree | ⟨front, last, hlast, rfl⟩ := eq_last_or before
  · exact h.milder hfree
  · rw [List.append_assoc, List.append_assoc]
    exact (h.milder hlast).bracket front

theorem passes_append (hpasses : Frame.pattern.Passes before old) :
    Frame.pattern.Passes before new := by
  obtain hfree | ⟨front, last, hlast, rfl⟩ := eq_last_or before
  · exact h.passes hfree hpasses
  · rw [← List.singleton_append, ← List.append_assoc] at hpasses ⊢
    exact ((h.milder hlast).passes hpasses.left).append (h.passes hlast hpasses.right)

end Tame

/-! ### Where no frame goes on -/

/-- No frame goes on with a segment that is no closing tag if none goes on behind its bracket. -/
theorem not_goesOn_of_segment (hsegment : '>' ∉ segment) (hclosing : segment ≠ "</iframe")
    (hrest : ¬GoesOn rest) : ¬GoesOn (segment ++ '>' :: rest) := by
  rw [GoesOn, Closes, Holds, Wraps, cut_iff hsegment, cut_iff hsegment, cut_iff hsegment]
  rintro (⟨h, -⟩ | ⟨-, h⟩ | ⟨-, h⟩)
  · exact hclosing h
  · exact hrest (.inl h)
  · exact hrest (.inr (.inl h))

/-- No frame begins in a segment if none goes on behind its bracket. -/
theorem passes_segment (hsegment : '>' ∉ segment) (hrest : ¬GoesOn rest) :
    Frame.pattern.Passes (segment ++ ['>']) rest := by
  intro front after heq hne
  obtain rfl | ⟨word, rfl, hword⟩ := List.suffix_concat_iff.1 (heq ▸ List.suffix_append front after)
  · exact absurd rfl hne
  have hfree : '>' ∉ word := fun hmem => hsegment (hword.mem hmem)
  rw [run_eq_none_iff, List.append_assoc, List.singleton_append, isFrame_iff, cut_iff hfree,
    cut_iff hfree]
  rintro (⟨-, h⟩ | ⟨-, h⟩)
  · exact hrest (.inl h)
  · exact hrest (.inr (.inr h))

theorem passes_of_segment {last : Text} (hsegment : '>' ∉ last ++ segment) (hrest : ¬GoesOn rest) :
    Frame.pattern.Passes last (segment ++ '>' :: rest) := by
  have hpasses := passes_segment hsegment hrest
  rw [List.append_assoc] at hpasses
  simpa using hpasses.left

/-- A segment behind which no frame goes on is tame in place of what ends no template. -/
theorem tame_of_segment (hsegment : '>' ∉ segment) (hclosing : ∀ last, last ++ segment ≠ "</iframe")
    (hrest : ¬GoesOn rest) (hold : ∀ last, '>' ∉ last → ¬Frame.endsTemplate (last ++ old) = true) :
    Tame old (segment ++ '>' :: rest) := by
  have hfree : ∀ {last : Text}, '>' ∉ last → '>' ∉ last ++ segment := fun hlast => by
    rw [List.mem_append, not_or]
    exact ⟨hlast, hsegment⟩
  refine ⟨fun hlast => .of_not_goesOn ?_ (hold _ hlast),
    fun hlast _ => passes_of_segment (hfree hlast) hrest⟩
  rw [← List.append_assoc]
  exact not_goesOn_of_segment (hfree hlast) (hclosing _) hrest

end LazyEmbed.Page
