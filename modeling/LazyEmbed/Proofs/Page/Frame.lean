import LazyEmbed.Page.Frame
import LazyEmbed.Proofs.Text.Reading

/-!
# What is read as a frame

A frame is marked itself or stands in a marked wrapper, and what its tags say apart from the marks
does not matter. So a text begins with a frame exactly if it is put together in one of the two ways
that `IsFrame` names, and then the reader gives the frame's own text back.
-/

namespace LazyEmbed.Page

variable {text segment old rest inner : Text}

def markAttribute : Text := " " ++ marker

def markedStart : Text := "<iframe" ++ markAttribute

def wrapperStart : Text := "<span" ++ markAttribute

def OpensFrame (segment : Text) : Prop :=
  markedStart <+: segment ∧ ¬markedStart ++ ['"'] <+: segment

def OpensWrapper (segment : Text) : Prop := wrapperStart <+: segment ∧ wrapperStart ≠ segment

/-- The text begins with a frame, which is read so, and goes on with the rest. -/
inductive Reads : Text → Frame → Text → Prop
  | marked {segment rest : Text} (hsegment : '>' ∉ segment) (hopens : OpensFrame segment)
      (hrest : Frame.endsTemplate rest = false) :
      Reads (segment ++ '>' :: ("</iframe>" ++ rest)) ⟨[], segment ++ "></iframe>"⟩ rest
  | wrapped {segment inner inside rest : Text} (hsegment : '>' ∉ segment)
      (hopens : OpensWrapper segment) (hinner : '>' ∉ inner) (hinside : '>' ∉ inside)
      (hrest : Frame.endsTemplate rest = false) :
      Reads (segment ++ '>' :: ("<span" ++ (inner ++ '>' :: ("<iframe" ++
          (inside ++ '>' :: ("</iframe>" ++ rest))))))
        ⟨segment ++ '>' :: ("<span" ++ (inner ++ ['>'])), Frame.elementText inside⟩ rest

def IsFrame (text : Text) : Prop := ∃ frame rest, Reads text frame rest

/-- The mark counts only with something behind it that is no quote. -/
theorem isMarked_iff :
    Frame.isMarked text = true ↔
      ∃ c rest, text = markAttribute ++ c :: rest ∧ c ≠ '"' := by
  rw [Frame.isMarked, ← markAttribute]
  constructor
  · intro h
    split at h
    · next c rest hafter =>
      exact ⟨c, rest, Text.eq_append_of_afterStart? hafter, by simpa using h⟩
    · exact absurd h Bool.false_ne_true
  · rintro ⟨c, rest, rfl, hc⟩
    rw [Text.afterStart?_append]
    simpa using hc

theorem closing_eq (rest : Text) : "></iframe>" ++ rest = '>' :: ("</iframe>" ++ rest) := by
  have hclosing : ("></iframe>" : Text) = '>' :: "</iframe>" := by decide
  rw [hclosing, List.cons_append]

theorem bracket_span : ("><span" : Text) = '>' :: "<span" := by decide

theorem bracket_iframe : ("><iframe" : Text) = '>' :: "<iframe" := by decide

theorem run_attributes {inside : Text} (h : '>' ∉ inside)
    (hrest : Frame.endsTemplate rest = false) :
    Frame.attributes.run (inside ++ '>' :: ("</iframe>" ++ rest)) = some (inside, rest) := by
  have htake :=
    Text.takeWhile_of_all (Text.forall_ne_iff.2 h) (d := '>') (by decide) ("</iframe>" ++ rest)
  have hdrop :=
    Text.dropWhile_of_all (Text.forall_ne_iff.2 h) (d := '>') (by decide) ("</iframe>" ++ rest)
  refine Reader.run_bind_eq_some_iff.2 ⟨inside, '>' :: ("</iframe>" ++ rest), ?_, ?_⟩
  · rw [Reader.run_many, htake, hdrop]
  · rw [← closing_eq]
    refine Reader.run_bind_eq_some_iff.2 ⟨(), rest, Reader.run_literal_append _ rest, ?_⟩
    refine Reader.run_bind_eq_some_iff.2 ⟨(), rest, ?_, rfl⟩
    rw [Reader.run_ahead, hrest]
    rfl

theorem eq_append_of_run_attributes {inside : Text}
    (h : Frame.attributes.run text = some (inside, rest)) :
    '>' ∉ inside ∧ text = inside ++ '>' :: ("</iframe>" ++ rest) ∧
      Frame.endsTemplate rest = false := by
  obtain ⟨found, behind, hfound, h⟩ := Reader.run_bind_eq_some_iff.1 h
  obtain ⟨_, left, hclose, h⟩ := Reader.run_bind_eq_some_iff.1 h
  obtain ⟨_, left', hahead, h⟩ := Reader.run_bind_eq_some_iff.1 h
  obtain ⟨rfl, hall⟩ := Reader.eq_append_of_run_many hfound
  obtain rfl := Reader.run_literal_eq_some_iff.1 hclose
  rw [Reader.run_ahead, Option.ite_none_right_eq_some] at hahead
  obtain ⟨hends, hleft⟩ := hahead
  obtain ⟨-, rfl⟩ := Prod.mk.inj (Option.some.inj hleft)
  obtain ⟨rfl, rfl⟩ := Prod.mk.inj (Option.some.inj h)
  rw [closing_eq]
  exact ⟨Text.forall_ne_iff.1 hall, rfl, by simpa using hends⟩

theorem markedStart_append (more : Text) :
    markedStart ++ more = "<iframe" ++ (markAttribute ++ more) := List.append_assoc _ _ _

theorem opensFrame_iff {inside behind : Text} (h : '>' ∉ inside) :
    OpensFrame ("<iframe" ++ inside) ↔ Frame.isMarked (inside ++ '>' :: behind) = true := by
  have hstart : markedStart <+: "<iframe" ++ inside ↔ markAttribute <+: inside :=
    List.prefix_append_right_inj _
  have hquote : markedStart ++ ['"'] <+: "<iframe" ++ inside ↔
      markAttribute ++ ['"'] <+: inside := by
    rw [markedStart_append]
    exact List.prefix_append_right_inj _
  rw [OpensFrame, hstart, hquote, isMarked_iff]
  constructor
  · rintro ⟨⟨more, rfl⟩, hnot⟩
    cases more with
    | nil => exact ⟨'>', behind, by rw [List.append_nil], by decide⟩
    | cons c more =>
      refine ⟨c, more ++ '>' :: behind, by rw [List.append_assoc, List.cons_append],
        fun hc => hnot ?_⟩
      rw [hc, List.prefix_append_right_inj]
      exact ⟨more, rfl⟩
  · rintro ⟨c, rest, heq, hc⟩
    have hbegins : markAttribute <+: inside ++ '>' :: behind := ⟨c :: rest, heq.symm⟩
    obtain ⟨more, rfl⟩ := Text.prefix_of_prefix_append_cons hbegins (by decide)
    refine ⟨List.prefix_append _ _, fun hmore => ?_⟩
    rw [List.append_assoc] at heq
    obtain ⟨left, rfl⟩ := (List.prefix_append_right_inj _).1 hmore
    have hcons : '"' :: (left ++ '>' :: behind) = c :: rest := List.append_cancel_left heq
    exact hc (List.cons.inj hcons).1.symm

theorem opensWrapper_iff {outer : Text} : OpensWrapper (wrapperStart ++ outer) ↔ outer ≠ [] := by
  have hself : wrapperStart = wrapperStart ++ outer ↔ outer = [] := by
    rw [eq_comm]
    exact List.append_right_eq_self
  rw [OpensWrapper, ne_eq, hself]
  exact and_iff_right (List.prefix_append wrapperStart outer)

/-! ### What is read as a frame -/

/-- What a marked iframe was read from, and what the frame keeps of it. -/
theorem eq_append_of_run_readMarked {frame : Frame}
    (h : Frame.readMarked.run text = some (frame, rest)) :
    ∃ inside, '>' ∉ inside ∧ OpensFrame ("<iframe" ++ inside) ∧
      Frame.endsTemplate rest = false ∧
      text = "iframe" ++ (inside ++ '>' :: ("</iframe>" ++ rest)) ∧
      frame = ⟨[], Frame.elementText inside⟩ := by
  obtain ⟨_, behind, hstart, h⟩ := Reader.run_bind_eq_some_iff.1 h
  obtain ⟨_, left, hahead, h⟩ := Reader.run_bind_eq_some_iff.1 h
  obtain ⟨inside, left', hinside, hpure⟩ := Reader.run_bind_eq_some_iff.1 h
  obtain rfl := Reader.run_literal_eq_some_iff.1 hstart
  rw [Reader.run_ahead, Option.ite_none_right_eq_some] at hahead
  obtain ⟨hmarked, hleft⟩ := hahead
  obtain ⟨-, rfl⟩ := Prod.mk.inj (Option.some.inj hleft)
  obtain ⟨rfl, rfl⟩ := Prod.mk.inj (Option.some.inj hpure)
  obtain ⟨hbracket, rfl, hends⟩ := eq_append_of_run_attributes hinside
  exact ⟨inside, hbracket, (opensFrame_iff hbracket).2 hmarked, hends, rfl, rfl⟩

/-- What a wrapped iframe was read from, and what the frame keeps of it. -/
theorem eq_append_of_run_readWrapped {frame : Frame}
    (h : Frame.readWrapped.run text = some (frame, rest)) :
    ∃ outer inner inside, outer ≠ [] ∧ '>' ∉ outer ∧ '>' ∉ inner ∧ '>' ∉ inside ∧
      Frame.endsTemplate rest = false ∧
      text = "span data-s9e-mediaembed=\"" ++ (outer ++ ("><span" ++ (inner ++ ("><iframe" ++
        (inside ++ '>' :: ("</iframe>" ++ rest)))))) ∧
      frame = ⟨"<span data-s9e-mediaembed=\"" ++ outer ++ "><span" ++ inner ++ ">",
        Frame.elementText inside⟩ := by
  obtain ⟨_, behind, hstart, h⟩ := Reader.run_bind_eq_some_iff.1 h
  obtain ⟨outer, left, houter, h⟩ := Reader.run_bind_eq_some_iff.1 h
  obtain ⟨_, left₂, hspan, h⟩ := Reader.run_bind_eq_some_iff.1 h
  obtain ⟨inner, left₃, hinner, h⟩ := Reader.run_bind_eq_some_iff.1 h
  obtain ⟨_, left₄, hframe, h⟩ := Reader.run_bind_eq_some_iff.1 h
  obtain ⟨inside, left₅, hinside, hpure⟩ := Reader.run_bind_eq_some_iff.1 h
  obtain ⟨rfl, rfl⟩ := Prod.mk.inj (Option.some.inj hpure)
  obtain rfl := Reader.run_literal_eq_some_iff.1 hstart
  obtain ⟨rfl, hne, hallOuter⟩ := Reader.eq_append_of_run_many1 houter
  obtain rfl := Reader.run_literal_eq_some_iff.1 hspan
  obtain ⟨rfl, hallInner⟩ := Reader.eq_append_of_run_many hinner
  obtain rfl := Reader.run_literal_eq_some_iff.1 hframe
  obtain ⟨hbracket, rfl, hends⟩ := eq_append_of_run_attributes hinside
  exact ⟨outer, inner, inside, hne, Text.forall_ne_iff.1 hallOuter,
    Text.forall_ne_iff.1 hallInner, hbracket, hends, rfl, rfl⟩

theorem run_readMarked {inside : Text} (hinside : '>' ∉ inside)
    (hopens : OpensFrame ("<iframe" ++ inside)) (hrest : Frame.endsTemplate rest = false) :
    Frame.readMarked.run ("iframe" ++ (inside ++ '>' :: ("</iframe>" ++ rest))) =
      some (⟨[], Frame.elementText inside⟩, rest) := by
  have hmarked : Frame.isMarked (inside ++ '>' :: ("</iframe>" ++ rest)) = true :=
    (opensFrame_iff hinside).1 hopens
  refine Reader.run_bind_eq_some_iff.2 ⟨(), _, Reader.run_literal_append "iframe" _, ?_⟩
  refine Reader.run_bind_eq_some_iff.2 ⟨(), inside ++ '>' :: ("</iframe>" ++ rest), ?_, ?_⟩
  · rw [Reader.run_ahead, hmarked]
    rfl
  · exact Reader.run_bind_eq_some_iff.2 ⟨inside, rest, run_attributes hinside hrest, rfl⟩

theorem run_readWrapped {outer inner inside : Text} (hne : outer ≠ []) (houter : '>' ∉ outer)
    (hinner : '>' ∉ inner) (hinside : '>' ∉ inside) (hrest : Frame.endsTemplate rest = false) :
    Frame.readWrapped.run ("span data-s9e-mediaembed=\"" ++ (outer ++ ("><span" ++ (inner ++
      ("><iframe" ++ (inside ++ '>' :: ("</iframe>" ++ rest))))))) =
      some (⟨"<span data-s9e-mediaembed=\"" ++ outer ++ "><span" ++ inner ++ ">",
        Frame.elementText inside⟩, rest) := by
  have houterRead : ∀ tail : Text, (Reader.many1 (· ≠ '>')).run (outer ++ ("><span" ++ tail)) =
      some (outer, "><span" ++ tail) := by
    intro tail
    rw [bracket_span]
    exact Reader.run_many1_ne hne houter _
  have hinnerRead : ∀ tail : Text, (Reader.many (· ≠ '>')).run (inner ++ ("><iframe" ++ tail)) =
      some (inner, "><iframe" ++ tail) := by
    intro tail
    rw [bracket_iframe]
    exact Reader.run_many_ne hinner _
  refine Reader.run_bind_eq_some_iff.2 ⟨(), _, Reader.run_literal_append _ _, ?_⟩
  refine Reader.run_bind_eq_some_iff.2 ⟨outer, _, houterRead _, ?_⟩
  refine Reader.run_bind_eq_some_iff.2 ⟨(), _, Reader.run_literal_append _ _, ?_⟩
  refine Reader.run_bind_eq_some_iff.2 ⟨inner, _, hinnerRead _, ?_⟩
  refine Reader.run_bind_eq_some_iff.2 ⟨(), _, Reader.run_literal_append _ _, ?_⟩
  exact Reader.run_bind_eq_some_iff.2 ⟨inside, rest, run_attributes hinside hrest, rfl⟩

theorem wrapped_eq (outer inner rest : Text) :
    '<' :: ("span data-s9e-mediaembed=\"" ++
        (outer ++ ("><span" ++ (inner ++ ("><iframe" ++ rest))))) =
      wrapperStart ++ outer ++ '>' :: ("<span" ++ (inner ++ '>' :: ("<iframe" ++ rest))) := by
  have hstart : '<' :: ("span data-s9e-mediaembed=\"" : Text) = wrapperStart := by decide
  rw [← List.cons_append, hstart, bracket_span, bracket_iframe, List.append_assoc, List.cons_append,
    List.cons_append]

theorem wrapper_eq (outer inner : Text) :
    ("<span data-s9e-mediaembed=\"" : Text) ++ outer ++ "><span" ++ inner ++ ">" =
      wrapperStart ++ outer ++ '>' :: ("<span" ++ (inner ++ ['>'])) := by
  have hstart : ("<span data-s9e-mediaembed=\"" : Text) = wrapperStart := by decide
  have hclose : (">" : Text) = ['>'] := by decide
  rw [hstart, bracket_span, hclose, List.append_assoc, List.append_assoc, List.cons_append]

theorem marked_eq (inside rest : Text) :
    '<' :: ("iframe" ++ (inside ++ rest)) = "<iframe" ++ inside ++ rest := by
  have hstart : '<' :: ("iframe" : Text) = "<iframe" := by decide
  rw [← List.cons_append, hstart, List.append_assoc]

theorem run_cons (text : Text) : Frame.pattern.reader.run ('<' :: text) =
    (Frame.readWrapped.run text).or (Frame.readMarked.run text) := by
  have hrun : Frame.pattern.reader.run (['<'] ++ text) = _ := Pattern.run_after_append _ _ _ text
  rwa [List.singleton_append, Reader.run_orElse] at hrun

/-- The pattern of frames as a relation between a text, the frame at its head and the rest. -/
theorem run_eq_some_iff {frame : Frame} :
    Frame.pattern.reader.run text = some (frame, rest) ↔ Reads text frame rest := by
  constructor
  · intro h
    obtain ⟨_, behind, hstart, hread⟩ := Reader.run_bind_eq_some_iff.1 h
    obtain rfl := Reader.run_literal_eq_some_iff.1 hstart
    rw [Reader.run_orElse, Option.or_eq_some_iff] at hread
    rcases hread with hwrapped | ⟨-, hmarked⟩
    · obtain ⟨outer, inner, inside, hne, houter, hinner, hinside, hends, rfl, rfl⟩ :=
        eq_append_of_run_readWrapped hwrapped
      have hstart : '>' ∉ wrapperStart := by decide
      have hsegment : '>' ∉ wrapperStart ++ outer := by simp [hstart, houter]
      have hframe := Reads.wrapped hsegment (opensWrapper_iff.2 hne) hinner hinside hends
      rwa [← wrapped_eq, ← wrapper_eq] at hframe
    · obtain ⟨inside, hinside, hopens, hends, rfl, rfl⟩ := eq_append_of_run_readMarked hmarked
      have hsegment : '>' ∉ "<iframe" ++ inside := by simp [hinside]
      have hframe := Reads.marked hsegment hopens hends
      rwa [← marked_eq] at hframe
  · intro h
    cases h with
    | @marked segment _ hsegment hopens hrest =>
      obtain ⟨more, rfl⟩ := hopens.1
      rw [markedStart_append] at hsegment hopens ⊢
      have hinside : '>' ∉ markAttribute ++ more := fun hmem =>
        hsegment (List.mem_append_right _ hmem)
      rw [← marked_eq, run_cons, run_readMarked hinside hopens hrest]
      rfl
    | @wrapped segment inner inside _ hsegment hopens hinner hinside hrest =>
      obtain ⟨outer, rfl⟩ := hopens.1
      have houter : '>' ∉ outer := fun hmem => hsegment (List.mem_append_right _ hmem)
      rw [← wrapped_eq, run_cons, ← wrapper_eq,
        run_readWrapped (opensWrapper_iff.1 hopens) houter hinner hinside hrest, Option.some_or]

theorem run_eq_none_iff : Frame.pattern.reader.run text = none ↔ ¬IsFrame text := by
  rw [Option.eq_none_iff_forall_ne_some]
  simp only [IsFrame, ← run_eq_some_iff, Prod.forall, not_exists, ne_eq]

end LazyEmbed.Page
