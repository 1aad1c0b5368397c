import LazyEmbed.Proofs.Html.Reference
import LazyEmbed.Proofs.Placeholder.Background

/-!
# Setting the background of a frame apart

The style of a frame is written with character references. If it declares no background, it stays as
it is if and only if nothing in it looks like one. If it does, and its backgrounds are written out
while nothing else looks like one, just the backgrounds are taken out of it: the first is set apart,
and all other declarations are kept. Of styles without references this holds of no others.
-/

namespace LazyEmbed.ClickToLoad

open Text Style Html

variable {attributes : Attributes} {style text part rest decoded value : Text}

def isBackground (item : Text × Text) : Bool := item.1 = ("background" : Text)

def others (items : List (Text × Text)) : List (Text × Text) :=
  items.filter fun item => !isBackground item

/-- What stands for `decoded` as the style of a frame is set apart: if there is no background,
nothing changes. Else the first one gets into an attribute of its own, trimmed, and the other
declarations stay in the style, which is dropped if there are none. -/
structure IsSetApart (attributes : Attributes) (decoded : Text) : Prop where
  unchanged : (∀ item ∈ declarations decoded, isBackground item = false) →
    (setApart attributes).get? "style" = attributes.get? "style" ∧
      (setApart attributes).get? backgroundName = attributes.get? backgroundName
  moved : ∀ first, (declarations decoded).find? isBackground = some first →
    ∃ entry, (setApart attributes).get? backgroundName = some entry ∧
      decodeReferences entry = .ok ("background:" ++ first.2)
  dropped : (∃ item ∈ declarations decoded, isBackground item = true) →
    ((setApart attributes).get? "style" = none ↔ others (declarations decoded) = [])
  kept : (∃ item ∈ declarations decoded, isBackground item = true) →
    ∀ left, (setApart attributes).get? "style" = some left →
      ∃ plain, decodeReferences left = .ok plain ∧
    declarations plain = others (declarations decoded)

/-- A part of a style between semicolons is written plainly: it is a background without references,
or nothing in it looks like a background. -/
inductive IsPlainPart : Text → Prop
  | background {lead value : Text} (hlead : IsBlanks lead) (hne : value ≠ []) (hend : ';' ∉ value)
      (hreference : '&' ∉ value) : IsPlainPart (lead ++ ("background:" ++ value))
  | other {part decoded : Text} (hescaped : IsEscaped part)
      (hdecodes : decodeReferences part = .ok decoded) (hne : declarations decoded ≠ [])
      (hothers : ∀ item ∈ declarations decoded, isBackground item = false)
      (hnone : ¬HasBackground part) : IsPlainPart part

inductive IsPlain : Text → Prop
  | blanks {text : Text} (h : IsBlanks text) : IsPlain text
  | last {text : Text} (h : IsPlainPart text) : IsPlain text
  | more {part rest : Text} (h : IsPlainPart part) (hrest : IsPlain rest) :
      IsPlain (part ++ ';' :: rest)

/-! ### What becomes of the attributes -/

section

variable (hsite : attributes.contains siteName = true)
    (hstyle : attributes.get? "style" = some style)
include hsite

theorem contains_promoteSource : (promoteSource attributes).contains siteName = true := by
  rw [Keyed.contains_eq_true_iff] at hsite ⊢
  by_contra hno
  rw [← Keyed.get?_eq_none_iff, get?_promoteSource _ (clickName_ne siteName (by simp)).1,
    Keyed.get?_eq_none_iff] at hno
  exact hno hsite

include hstyle

theorem setApart_of_none (h : background? style = none) :
    (setApart attributes).get? "style" = some style ∧
    (setApart attributes).get? backgroundName = attributes.get? backgroundName := by
  have hpromoted : (promoteSource attributes).get? "style" = attributes.get? "style" :=
    get?_promoteSource attributes (by decide)
  have hapart : setApart attributes = promoteSource attributes := by
    rw [setApart, extractBackground, contains_promoteSource hsite, hpromoted, hstyle]
    simp only [h]
  rw [hapart, hpromoted, get?_promoteSource _ (by decide)]
  exact ⟨hstyle, rfl⟩

theorem setApart_of_some (h : background? style = some value) :
    (setApart attributes).get? "style" =
        (if trim (withoutBackground style) = [] then none
          else some (trim (withoutBackground style))) ∧
      (setApart attributes).get? backgroundName = some ("background:" ++ trim value) := by
  have hpromoted := (get?_promoteSource attributes (by decide)).trans hstyle
  have hne : backgroundName ≠ ("style" : Text) := by decide
  rw [setApart, extractBackground, contains_promoteSource hsite, hpromoted]
  simp only [h]
  split
  · exact ⟨Keyed.get?_erase_self _ _, by rw [Keyed.get?_erase_of_ne hne, Keyed.get?_put_self]⟩
  · exact ⟨Keyed.get?_put_self _ _ _, by rw [Keyed.get?_put_of_ne _ _ hne, Keyed.get?_put_self]⟩

end

/-! ### Plainly written styles -/

/-- Just the backgrounds among the declarations are found in the text, and all else is left. -/
structure IsRead (text : Text) (items : List (Text × Text)) : Prop where
  found : (background? text).map (fun value => (("background" : Text), trim value)) =
    items.find? isBackground
  not_mem : ∀ value, background? text = some value → '&' ∉ value
  isEscaped : IsEscaped (withoutBackground text)
  decodes : ∃ left, decodeReferences (withoutBackground text) = .ok left ∧
    declarations left = others items
  isBlanks_iff : IsBlanks (withoutBackground text) ↔ others items = []

theorem others_eq_self {items : List (Text × Text)}
    (h : ∀ item ∈ items, isBackground item = false) : others items = items := by
  rw [others, List.filter_eq_self]
  exact fun item hitem => by simp [h item hitem]

theorem declarations_background {lead : Text} (hlead : IsBlanks lead) (hend : ';' ∉ value) :
    declarations (lead ++ ("background:" ++ value)) = [(("background" : Text), trim value)] := by
  have hcolon : ("background:" : Text) = "background" ++ [':'] := by decide
  rw [hcolon, List.append_assoc]
  exact declarations_declared hlead (by decide) hend

theorem not_mem_background {lead : Text} {c : Char} (hlead : IsBlanks lead)
    (hblank : isBlank c = false) (hname : c ∉ ("background:" : Text)) (hvalue : c ∉ value) :
    c ∉ lead ++ ("background:" ++ value) := by
  simp only [List.mem_append, not_or]
  exact ⟨hlead.not_mem hblank, hname, hvalue⟩

section

variable {lead : Text} {items : List (Text × Text)} (hlead : IsBlanks lead) (hne : value ≠ [])
    (hend : ';' ∉ value) (hreference : '&' ∉ value)

theorem isRead_blanks (h : IsBlanks text) : IsRead text [] := by
  have hreference : '&' ∉ text := h.not_mem (by decide)
  have hnone : background? text = none := by
    rw [background?_eq_none_iff]
    rintro ⟨before, behind, rfl, ⟨c, behind, rfl, -⟩, -⟩
    exact h.not_mem (c := ':') (by decide) (by simp)
  refine ⟨by rw [hnone]; rfl, by simp [hnone], ?_, ⟨text, ?_, declarations_of_isBlanks h⟩, ?_⟩
  · rw [withoutBackground_eq_self hnone]
    exact isEscaped_of_not_mem hreference
  · rw [withoutBackground_eq_self hnone, decodeReferences_of_not_mem hreference]
  · rw [withoutBackground_eq_self hnone]
    exact iff_of_true h rfl

include hlead hne hend hreference in
theorem isRead_background :
    IsRead (lead ++ ("background:" ++ value)) [(("background" : Text), trim value)] := by
  have hleadReference : '&' ∉ lead := hlead.not_mem (by decide)
  have hnothing : others [(("background" : Text), trim value)] = [] := rfl
  obtain ⟨hfound, hwithout⟩ := read_background hlead hne hend
  refine ⟨by rw [hfound]; rfl, fun found hsome =>
    Option.some.inj (hfound.symm.trans hsome) ▸ hreference, ?_, ?_, ?_⟩
  · rw [hwithout]
    exact isEscaped_of_not_mem hleadReference
  · rw [hwithout, hnothing]
    exact ⟨lead, decodeReferences_of_not_mem hleadReference, declarations_of_isBlanks hlead⟩
  · rw [hwithout, hnothing]
    exact iff_of_true hlead rfl

include hlead hne hend hreference in
/-- A background in front of declarations is read as one item more. -/
theorem IsRead.background_more (h : IsRead rest items) :
    IsRead (lead ++ ("background:" ++ value) ++ ';' :: rest)
      ((("background" : Text), trim value) :: items) := by
  have hleadReference : '&' ∉ lead := hlead.not_mem (by decide)
  have hother : others ((("background" : Text), trim value) :: items) = others items := rfl
  have hsemicolon : ';' ∉ lead ++ ("background:" ++ value) :=
    not_mem_background hlead (by decide) (by decide) hend
  obtain ⟨hfound, hwithout⟩ := read_background hlead hne hend
  obtain ⟨hfoundAll, hwithoutAll⟩ := read_piece (.inl hsemicolon) rest
  rw [hfound, Option.some_or] at hfoundAll
  rw [hfound, if_pos Option.isSome_some, hwithout] at hwithoutAll
  obtain ⟨left, hleft, hdeclarations⟩ := h.decodes
  refine ⟨by rw [hfoundAll]; rfl, fun found hsome =>
    Option.some.inj (hfoundAll.symm.trans hsome) ▸ hreference, ?_, ⟨lead ++ left, ?_, ?_⟩, ?_⟩
  · rw [hwithoutAll]
    exact (isEscaped_of_not_mem hleadReference).append h.isEscaped
  · rw [hwithoutAll, decodeReferences_append_of_not_mem hleadReference, hleft]
    rfl
  · rw [declarations_blanks_append hlead, hdeclarations, hother]
  · rw [hwithoutAll, hother, isBlanks_append_iff hlead, h.isBlanks_iff]

section

variable (hescaped : IsEscaped part) (hdecodes : decodeReferences part = .ok decoded)
    (hnone : ¬HasBackground part) (hsome : declarations decoded ≠ [])
    (hothers : ∀ item ∈ declarations decoded, isBackground item = false)
include hescaped hdecodes hnone hsome hothers

theorem isRead_other : IsRead part (declarations decoded) := by
  have hfound := (background?_eq_none_iff part).2 hnone
  have hwithout := withoutBackground_eq_self hfound
  have hnotBlanks : ¬IsBlanks part := by
    intro hblanks
    rw [decodeReferences_of_not_mem (hblanks.not_mem (by decide))] at hdecodes
    exact hsome (Except.ok.inj hdecodes ▸ declarations_of_isBlanks hblanks)
  refine ⟨?_, by simp [hfound], by rwa [hwithout], ⟨decoded, by rw [hwithout, hdecodes], ?_⟩, ?_⟩
  · rw [hfound]
    exact (List.find?_eq_none.2 fun item hitem => by simp [hothers item hitem]).symm
  · rw [others_eq_self hothers]
  · rw [hwithout, others_eq_self hothers]
    exact iff_of_false hnotBlanks hsome

/-- A part without a background in front of declarations is read with its own. -/
theorem IsRead.other_more (h : IsRead rest items) :
    IsRead (part ++ ';' :: rest) (declarations decoded ++ items) := by
  have hfound := (background?_eq_none_iff part).2 hnone
  obtain ⟨hfoundAll, hwithoutAll⟩ := read_piece (.inr hfound) rest
  rw [hfound, Option.none_or] at hfoundAll
  rw [hfound, if_neg (by simp)] at hwithoutAll
  have hother : others (declarations decoded ++ items) = declarations decoded ++ others items := by
    rw [others, List.filter_append]
    exact congrArg (· ++ _) (others_eq_self hothers)
  obtain ⟨left, hleft, hdeclarations⟩ := h.decodes
  refine ⟨?_, by simpa [hfoundAll] using h.not_mem, ?_, ⟨decoded ++ ';' :: left, ?_, ?_⟩, ?_⟩
  · have hmisses : (declarations decoded).find? isBackground = none :=
      List.find?_eq_none.2 fun item hitem => by simp [hothers item hitem]
    rw [hfoundAll, List.find?_append, hmisses, Option.none_or, h.found]
  · rw [hwithoutAll]
    exact hescaped.append (.plain (by decide) h.isEscaped)
  · rw [hwithoutAll, hescaped.decodeReferences_append]
    refine ⟨decoded, ';' :: left, hdecodes, ?_, rfl⟩
    rw [decodeReferences_cons (by decide), hleft]
    rfl
  · rw [declarations_append, hdeclarations, hother]
  · rw [hwithoutAll, hother]
    refine iff_of_false (fun hblanks => ?_) (List.append_ne_nil_of_left_ne_nil hsome _)
    exact hblanks.not_mem (c := ';') (by decide) (List.mem_append_right _ List.mem_cons_self)

end

end

theorem IsPlainPart.isEscaped (h : IsPlainPart part) : IsEscaped part := by
  cases h with
  | background hlead hne hend hreference =>
    exact isEscaped_of_not_mem (not_mem_background hlead (by decide) (by decide) hreference)
  | other hescaped => exact hescaped

/-- A part in front of declarations is read as its own declarations with theirs behind. -/
def IsReadBefore (part : Text) (items : List (Text × Text)) : Prop :=
  IsRead part items ∧ ∀ rest more, IsRead rest more → IsRead (part ++ ';' :: rest) (items ++ more)

theorem IsPlainPart.isReadBefore (h : IsPlainPart part)
    (hdecodes : decodeReferences part = .ok decoded) :
    IsReadBefore part (declarations decoded) := by
  cases h with
  | @background lead value hlead hne hend hreference =>
    have hpart : '&' ∉ lead ++ ("background:" ++ value) :=
      not_mem_background hlead (by decide) (by decide) hreference
    obtain rfl := Except.ok.inj ((decodeReferences_of_not_mem hpart).symm.trans hdecodes)
    rw [declarations_background hlead hend]
    exact ⟨isRead_background hlead hne hend hreference, fun rest more hrest =>
      hrest.background_more hlead hne hend hreference⟩
  | other hescaped hdecodes' hsome hothers hnone =>
    obtain rfl := Except.ok.inj (hdecodes'.symm.trans hdecodes)
    exact ⟨isRead_other hescaped hdecodes hnone hsome hothers, fun rest more hrest =>
      hrest.other_more hescaped hdecodes hnone hsome hothers⟩

/-- A plain style is read with the declarations it decodes to. -/
theorem IsPlain.isRead (h : IsPlain style) (hdecodes : decodeReferences style = .ok decoded) :
    IsRead style (declarations decoded) := by
  induction h generalizing decoded with
  | @blanks text h =>
    obtain rfl :=
      Except.ok.inj ((decodeReferences_of_not_mem (h.not_mem (by decide))).symm.trans hdecodes)
    rw [declarations_of_isBlanks h]
    exact isRead_blanks h
  | last h => exact (h.isReadBefore hdecodes).1
  | more h hrest ih =>
    obtain ⟨first, second, hfirst, hsecond, rfl⟩ :=
      h.isEscaped.decodeReferences_append _ |>.1 hdecodes
    rw [decodeReferences_cons (by decide), map_eq_ok_iff] at hsecond
    obtain ⟨second, hsecond, rfl⟩ := hsecond
    rw [declarations_append]
    exact (h.isReadBefore hfirst).2 _ _ (ih hsecond)

/-- Trimming an escaped text changes no declaration of it. -/
theorem exists_decodes_trim {plain : Text} (h : IsEscaped text)
    (hdecodes : decodeReferences text = .ok plain) :
    ∃ trimmed, decodeReferences (trim text) = .ok trimmed ∧
      declarations trimmed = declarations plain := by
  obtain ⟨before, after, hbefore, hafter, htext⟩ := exists_trim text
  have hafterReference : '&' ∉ after := hafter.not_mem (by decide)
  rw [htext] at h hdecodes
  have hescaped : IsEscaped (trim text) :=
    (h.of_append_left (hbefore.not_mem (by decide))).of_append_right (hafter.not_mem (by decide))
  rw [decodeReferences_append_of_not_mem (hbefore.not_mem (by decide)), map_eq_ok_iff] at hdecodes
  obtain ⟨behind, hbehind, rfl⟩ := hdecodes
  obtain ⟨trimmed, ending, htrimmed, hending, rfl⟩ :=
    hescaped.decodeReferences_append _ |>.1 hbehind
  rw [decodeReferences_of_not_mem hafterReference] at hending
  obtain rfl := Except.ok.inj hending
  exact ⟨trimmed, htrimmed, by rw [declarations_blanks_append hbefore,
    declarations_append_blanks hafter]⟩

theorem isSetApart_of_none (hsite : attributes.contains siteName = true)
    (hstyle : attributes.get? "style" = some style) (hnone : background? style = none)
    (hno : ∀ item ∈ declarations decoded, isBackground item = false) :
    IsSetApart attributes decoded := by
  obtain ⟨hleft, hentry⟩ := setApart_of_none hsite hstyle hnone
  have hnot : ¬∃ item ∈ declarations decoded, isBackground item = true := by
    rintro ⟨item, hitem, hbackground⟩
    exact Bool.noConfusion ((hno item hitem).symm.trans hbackground)
  refine ⟨fun _ => ⟨hleft.trans hstyle.symm, hentry⟩, fun first hfirst => ?_,
    fun h => absurd h hnot, fun h => absurd h hnot⟩
  exact absurd ⟨first, List.mem_of_find?_eq_some hfirst, List.find?_some hfirst⟩ hnot

/-- Where the style is read as its declarations, the background is set apart as they say. -/
theorem IsRead.isSetApart (h : IsRead style (declarations decoded))
    (hsite : attributes.contains siteName = true) (hstyle : attributes.get? "style" = some style) :
    IsSetApart attributes decoded := by
  cases hbackground : background? style with
  | none =>
    have hfind : (declarations decoded).find? isBackground = none := by
      rw [← h.found, hbackground]
      rfl
    exact isSetApart_of_none hsite hstyle hbackground fun item hitem =>
      Bool.eq_false_iff.2 (List.find?_eq_none.1 hfind item hitem)
  | some value =>
    have hfind :
        (declarations decoded).find? isBackground = some (("background" : Text), trim value) := by
      rw [← h.found, hbackground]
      rfl
    have htrim : '&' ∉ trim value := fun hmem => h.not_mem value hbackground (mem_of_mem_trim hmem)
    have hentryReference : '&' ∉ ("background:" : Text) ++ trim value := by
      rw [List.mem_append, not_or]
      exact ⟨by decide, htrim⟩
    obtain ⟨hleft, hentry⟩ := setApart_of_some hsite hstyle hbackground
    refine ⟨fun hno => ?_, fun first hfirst => ?_, fun _ => ?_, fun _ left hsome => ?_⟩
    · exact absurd ((hno _ (List.mem_of_find?_eq_some hfind)).symm.trans (List.find?_some hfind))
        Bool.false_ne_true
    · obtain rfl := Option.some.inj (hfind.symm.trans hfirst)
      exact ⟨_, hentry, decodeReferences_of_not_mem hentryReference⟩
    · rw [hleft, ← h.isBlanks_iff, ← trim_eq_nil_iff]
      simp
    · rw [hleft, Option.ite_none_left_eq_some] at hsome
      obtain ⟨plain, hplain, hdeclarations⟩ := h.decodes
      obtain ⟨trimmed, htrimmed, hsame⟩ := exists_decodes_trim h.isEscaped hplain
      exact ⟨trimmed, Option.some.inj hsome.2 ▸ htrimmed, hsame.trans hdeclarations⟩

/-! ### Other styles -/

theorem others_append (first second : List (Text × Text)) :
    others (first ++ second) = others first ++ others second :=
  List.filter_append ..

/-- A declaration without references that is no background is lost in part, unless it is written
plainly. -/
theorem isPlainPart_of_weight (h : IsDeclared part) (hreference : '&' ∉ part) :
    weight (withoutBackground part) ≤ weightAll (others (declarations part)) ∧
      (weight (withoutBackground part) = weightAll (others (declarations part)) →
      IsPlainPart part) := by
  cases h with
  | @mk lead property value hlead hproperty hname hvalue hend =>
    have hdeclared := declarations_declared hlead hname hend
    by_cases hbackground : property = ("background" : Text)
    · have hcolon : ("background" : Text) ++ ':' :: value = ("background:" : Text) ++ value :=
        have hname : ("background:" : Text) = "background" ++ [':'] := by decide
        by rw [hname, List.append_assoc]; rfl
      have hvalueReference : '&' ∉ value := fun hmem => hreference (by simp [hmem])
      rw [hbackground, hcolon, (read_background hlead hvalue hend).2, weight_of_isBlanks hlead]
      exact ⟨Nat.zero_le _, fun _ => .background hlead hvalue hend hvalueReference⟩
    · have hother : ∀ item ∈ declarations (lead ++ (property ++ ':' :: value)),
          isBackground item = false := by
        rw [hdeclared, List.forall_mem_singleton]
        exact decide_eq_false hbackground
      have hweight := weight_withoutBackground (lead ++ (property ++ ':' :: value))
      rw [others_eq_self hother, weightAll_declarations]
      refine ⟨by omega, fun hsame => ?_⟩
      have hnone : ¬(background? (lead ++ (property ++ ':' :: value))).isSome := by
        intro hsome
        rw [if_pos hsome] at hweight
        omega
      rw [Option.not_isSome_iff_eq_none, background?_eq_none_iff] at hnone
      exact .other (isEscaped_of_not_mem hreference) (decodeReferences_of_not_mem hreference)
        (by rw [hdeclared]; exact List.cons_ne_nil _ _) hother hnone

/-- Of a list without references no more is left than the declarations that are no backgrounds, and
as much only if it is written plainly. -/
theorem isPlain_of_weight (h : IsList style) (hreference : '&' ∉ style) :
    weight (withoutBackground style) ≤ weightAll (others (declarations style)) ∧
      (weight (withoutBackground style) = weightAll (others (declarations style)) →
      IsPlain style) := by
  induction h with
  | @blanks text h =>
    have hweight := weight_withoutBackground text
    rw [weight_of_isBlanks h] at hweight
    exact ⟨by omega, fun _ => .blanks h⟩
  | last h =>
    obtain ⟨hle, hplain⟩ := isPlainPart_of_weight h hreference
    exact ⟨hle, fun hsame => .last (hplain hsame)⟩
  | @more part rest h hrest ih =>
    rw [List.mem_append, not_or] at hreference
    obtain ⟨hle, hplain⟩ := isPlainPart_of_weight h hreference.1
    obtain ⟨hleRest, hplainRest⟩ := ih fun hmem => hreference.2 (List.mem_cons_of_mem _ hmem)
    rw [weight_withoutBackground_piece h.not_mem, declarations_append, others_append,
      weightAll_append]
    exact ⟨by omega, fun hsame => .more (hplain (by omega)) (hplainRest (by omega))⟩

section

variable (hsite : attributes.contains siteName = true)
    (hstyle : attributes.get? "style" = some style)
include hsite hstyle

/-- A style that stays as it is has nothing that looks like a background. -/
theorem background?_eq_none_of_unchanged (h : (setApart attributes).get? "style" = some style) :
    background? style = none := by
  cases hbackground : background? style with
  | none => rfl
  | some value =>
    have hweight := weight_withoutBackground style
    rw [(setApart_of_some hsite hstyle hbackground).1, Option.ite_none_left_eq_some] at h
    have htrim : weight (trim (withoutBackground style)) = weight style :=
      congrArg weight (Option.some.inj h.2)
    rw [weight_trim] at htrim
    rw [hbackground, if_pos Option.isSome_some] at hweight
    omega

/-- If a style without references is set apart, just its backgrounds are taken out. -/
theorem IsSetApart.weight_eq (h : IsSetApart attributes style) (hreference : '&' ∉ style) :
    weight (withoutBackground style) = weightAll (others (declarations style)) := by
  by_cases hno : ∀ item ∈ declarations style, isBackground item = false
  · have hnone := background?_eq_none_of_unchanged hsite hstyle ((h.unchanged hno).1.trans hstyle)
    rw [withoutBackground_eq_self hnone, others_eq_self hno, weightAll_declarations]
  · have hsome : ∃ item ∈ declarations style, isBackground item = true := by simpa using hno
    have hleft : '&' ∉ trim (withoutBackground style) := fun hmem =>
      hreference (mem_of_mem_withoutBackground (mem_of_mem_trim hmem))
    cases hbackground : background? style with
    | none =>
      obtain ⟨plain, hplain, hothers⟩ :=
        h.kept hsome style (setApart_of_none hsite hstyle hbackground).1
      rw [decodeReferences_of_not_mem hreference] at hplain
      obtain rfl := Except.ok.inj hplain
      rw [← hothers, weightAll_declarations, withoutBackground_eq_self hbackground]
    | some value =>
      have hstyleLeft := (setApart_of_some hsite hstyle hbackground).1
      by_cases hnil : trim (withoutBackground style) = []
      · rw [if_pos hnil] at hstyleLeft
        rw [(h.dropped hsome).1 hstyleLeft, weight_of_isBlanks (trim_eq_nil_iff.1 hnil)]
        rfl
      · rw [if_neg hnil] at hstyleLeft
        obtain ⟨plain, hplain, hothers⟩ := h.kept hsome _ hstyleLeft
        rw [decodeReferences_of_not_mem hleft] at hplain
        obtain rfl := Except.ok.inj hplain
        rw [← hothers, weightAll_declarations, weight_trim]

/-- If no background is declared, the style of a frame stays as it is if and only if nothing in it
looks like one. Plainly written styles are set apart, and of those without references no others. -/
theorem setApart_style (hdecodes : decodeReferences style = .ok decoded) (hlist : IsList decoded) :
    ((∀ item ∈ declarations decoded, isBackground item = false) →
      (IsSetApart attributes decoded ↔ ¬HasBackground style)) ∧
    (IsPlain style → IsSetApart attributes decoded) ∧
    ('&' ∉ style → (IsSetApart attributes decoded ↔ IsPlain style)) := by
  have hplain : IsPlain style → IsSetApart attributes decoded :=
    fun h => (h.isRead hdecodes).isSetApart hsite hstyle
  refine ⟨fun hno => ⟨fun h => ?_, fun h => ?_⟩, hplain, fun hreference => ⟨fun h => ?_, hplain⟩⟩
  · rw [← background?_eq_none_iff]
    exact background?_eq_none_of_unchanged hsite hstyle ((h.unchanged hno).1.trans hstyle)
  · exact isSetApart_of_none hsite hstyle ((background?_eq_none_iff style).2 h) hno
  · rw [decodeReferences_of_not_mem hreference] at hdecodes
    obtain rfl := Except.ok.inj hdecodes
    exact (isPlain_of_weight hlist hreference).2 (h.weight_eq hsite hstyle hreference)

end

def styledFrame (style : Text) : Attributes := Keyed.ofPairs [(siteName, ['x']), ("style", style)]

theorem setApart_style_between :
    IsList "a:b; background: c ;d:e" ∧ IsPlain "a:b; background: c ;d:e" ∧
    IsSetApart (styledFrame "a:b; background: c ;d:e") "a:b; background: c ;d:e" := by
  have htext :
      ("a:b; background: c ;d:e" : Text) = ([] ++ (['a'] ++ ':' :: ['b'])) ++
        ';' :: (([' '] ++ (("background" : Text) ++ ':' :: [' ', 'c', ' '])) ++
          ';' :: ([] ++ (['d'] ++ ':' :: ['e']))) := by
    decide
  have hbackground : ([' '] : Text) ++ (("background" : Text) ++ ':' :: [' ', 'c', ' ']) =
      [' '] ++ (("background:" : Text) ++ [' ', 'c', ' ']) := by decide
  have hother : ∀ part : Text, '&' ∉ part → declarations part ≠ [] →
      (∀ item ∈ declarations part, isBackground item = false) → background? part = none →
      IsPlainPart part :=
    fun part hreference hne hothers hnone => .other (isEscaped_of_not_mem hreference)
      (decodeReferences_of_not_mem hreference) hne hothers ((background?_eq_none_iff part).1 hnone)
  have hlist : IsList "a:b; background: c ;d:e" := by
    rw [htext]
    exact .more (.mk (by decide) (by decide) (by decide) (by decide) (by decide))
      (.more (.mk (by decide) (by decide) (by decide) (by decide) (by decide))
        (.last (.mk (by decide) (by decide) (by decide) (by decide) (by decide))))
  have hplain : IsPlain "a:b; background: c ;d:e" := by
    rw [htext, hbackground]
    exact .more (hother _ (by decide) (by decide) (by decide) (by decide +kernel))
      (.more (.background (by decide) (by decide) (by decide) (by decide))
        (.last (hother _ (by decide) (by decide) (by decide) (by decide +kernel))))
  exact ⟨hlist, hplain, (setApart_style (by decide +kernel) (by decide +kernel)
    (decodeReferences_of_not_mem (by decide)) hlist).2.1 hplain⟩

/-- A custom property with a hyphen in front of `background:` is cut in two. -/
theorem not_setApart_hyphenated :
    IsList "--b-background:c;d:e" ∧
    (∀ item ∈ declarations "--b-background:c;d:e", isBackground item = false) ∧
    (setApart (styledFrame "--b-background:c;d:e")).get? "style" = some ("--b-d:e" : Text) ∧
    (setApart (styledFrame "--b-background:c;d:e")).get? backgroundName =
      some ("background:c" : Text) ∧
    ¬IsSetApart (styledFrame "--b-background:c;d:e") "--b-background:c;d:e" := by
  have htext : ("--b-background:c;d:e" : Text) =
      ([] ++ (("--b-background" : Text) ++ ':' :: ['c'])) ++
      ';' :: ([] ++ (['d'] ++ ':' :: ['e'])) := by decide
  have hlist : IsList "--b-background:c;d:e" := by
    rw [htext]
    exact .more (.mk (by decide) (by decide) (by decide) (by decide) (by decide))
      (.last (.mk (by decide) (by decide) (by decide) (by decide) (by decide)))
  have hno : ∀ item ∈ declarations "--b-background:c;d:e", isBackground item = false := by
    rw [String.toList_ofList]
    decide +kernel
  have hapart :
      (setApart (styledFrame "--b-background:c;d:e")).get? "style" = some ("--b-d:e" : Text) ∧
      (setApart (styledFrame "--b-background:c;d:e")).get? backgroundName =
        some ("background:c" : Text) ∧
        (styledFrame "--b-background:c;d:e").get? "style" ≠ some ("--b-d:e" : Text) := by
    repeat rewrite [String.toList_ofList]
    decide +kernel
  exact ⟨hlist, hno, hapart.1, hapart.2.1,
    fun h => hapart.2.2 ((h.unchanged hno).1.symm.trans hapart.1)⟩

end LazyEmbed.ClickToLoad
