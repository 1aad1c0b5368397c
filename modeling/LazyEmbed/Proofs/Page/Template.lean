import LazyEmbed.Proofs.Page.Repeated
import Mathlib.Data.List.Infix

/-!
# Frames in templates

Whether a frame is in a template is told by what stands right behind it: closing tags of wrappers,
blanks and the end of the template. A frame in front of such a tail is left as it is, since no hit
can reach over its closing tag, wherever it begins. A marked frame in a template with anything else
behind it, be it another frame, gives way to a placeholder like one outside of templates.
-/

namespace LazyEmbed

namespace Pattern

variable {α : Type} {pattern : Pattern α} {source : α → Text} {front rest : Text}

/-- Where no hit reaches over a place in the text, the search goes on there as if it began there. -/
theorem exists_pieces_append
    (hsource : ∀ {text value rest}, pattern.reader.run text = some (value, rest) →
      text = source value ++ rest)
    (hstops : ∀ tail, tail <:+ front →
      ∀ value behind, pattern.reader.run (tail ++ rest) = some (value, behind) →
      ∃ more, tail = source value ++ more) :
    ∃ before, pattern.pieces (front ++ rest) = before ++ pattern.pieces rest ∧
      before.flatMap (Piece.text source) = front := by
  induction hlength : front.length using Nat.strongRecOn generalizing front with
  | _ length ih =>
    cases front with
    | nil => exact ⟨[], rfl, rfl⟩
    | cons c front =>
      cases hrun : pattern.reader.run ((c :: front) ++ rest) with
      | none =>
        obtain ⟨before, hpieces, htext⟩ := ih front.length (by simp [← hlength])
          (fun tail htail => hstops tail (htail.trans (List.suffix_cons c front))) rfl
        refine ⟨.plain c :: before, ?_, ?_⟩
        · have hstep :
              pattern.pieces (c :: (front ++ rest)) = .plain c :: pattern.pieces (front ++ rest) :=
            pieces_cons_of_run_eq_none hrun
          rw [List.cons_append, hstep, hpieces, List.cons_append]
        · rw [List.flatMap_cons, htext, Piece.text, List.singleton_append]
      | some found =>
        obtain ⟨value, behind⟩ := found
        obtain ⟨more, hmore⟩ := hstops _ List.suffix_rfl value behind hrun
        have hbehind : behind = more ++ rest := by
          have heq := hsource hrun
          rw [hmore, List.append_assoc, List.append_cancel_left_eq] at heq
          exact heq.symm
        have hshorter := pattern.consumes hrun
        rw [hbehind, List.length_append, List.length_append] at hshorter
        have hsuffix : more <:+ c :: front := hmore ▸ List.suffix_append _ _
        obtain ⟨before, hpieces, htext⟩ := ih more.length (by omega)
          (fun tail htail => hstops tail (htail.trans hsuffix)) rfl
        refine ⟨.hit value :: before, ?_, ?_⟩
        · rw [pieces_of_run_eq_some hrun, hbehind, hpieces, List.cons_append]
        · rw [List.flatMap_cons, htext, Piece.text, ← hmore]

end Pattern

namespace Page

variable {front inside rest behind : Text} {frame : Frame}

def Frame.text (frame : Frame) : Text := frame.wrapper ++ frame.element

theorem eq_append_of_run {text : Text} (h : Frame.pattern.reader.run text = some (frame, rest)) :
    text = frame.text ++ rest := by
  rw [text_of_reads (run_eq_some_iff.1 h), Frame.text, List.append_assoc]

/-! ### Hits in front of a closing tag -/

/-- Two texts with a bracket each: the first bracket of the one is that of the other, or comes
before it. -/
theorem bracket_cases {segment left word right : Text} (hsegment : '>' ∉ segment)
    (h : segment ++ '>' :: left = word ++ '>' :: right) :
    word = segment ∧ left = right ∨ ∃ more, word = segment ++ '>' :: more ∧
      left = more ++ '>' :: right := by
  obtain hfree | ⟨first, more, hfirst, rfl⟩ := eq_segment_or word
  · obtain ⟨rfl, rfl⟩ := Text.append_cons_inj hsegment hfree h
    exact .inl ⟨rfl, rfl⟩
  · rw [List.append_assoc, List.cons_append] at h
    obtain ⟨rfl, rfl⟩ := Text.append_cons_inj hsegment hfirst h
    exact .inr ⟨more, rfl, rfl⟩

theorem closing_split : ("</iframe>" : Text) = "</iframe" ++ ['>'] := by decide

/-- A closing tag ends in front of another one, or is it. -/
theorem closing_cases {left word right : Text} (h : "</iframe>" ++ left = word ++ '>' :: right) :
    ∃ more, word ++ ['>'] = "</iframe>" ++ more ∧ left = more ++ right := by
  rw [closing_split, List.append_assoc, List.singleton_append] at h
  obtain ⟨rfl, rfl⟩ | ⟨more, rfl, rfl⟩ := bracket_cases (by decide) h
  · exact ⟨[], by rw [List.append_nil, closing_split], rfl⟩
  · refine ⟨more ++ ['>'], ?_, (List.append_cons more '>' right)⟩
    calc ("</iframe" ++ '>' :: more) ++ ['>'] = "</iframe" ++ '>' :: (more ++ ['>']) :=
      List.append_assoc _ _ _
      _ = ("</iframe" ++ ['>']) ++ (more ++ ['>']) := List.append_cons _ _ _
      _ = "</iframe>" ++ (more ++ ['>']) := congrArg (· ++ (more ++ ['>'])) closing_split.symm

/-- A frame that is read in front of a closing tag ends with that tag, or in front of it. -/
theorem reads_closing {word left : Text}
    (h : Reads (word ++ '>' :: ("</iframe>" ++ rest)) frame left) :
    left = rest ∧ Frame.endsTemplate rest = false ∨ ∃ more, word ++ ['>'] = frame.text ++ more := by
  have hspan : ∀ one other : Text, "<span" ++ one ≠ "</iframe>" ++ other := fun one other heq => by
    have hsecond : some 's' = some '/' := congrArg (fun text : Text => text[1]?) heq
    exact absurd hsecond (by decide)
  have hiframe : ∀ one other : Text, "<iframe" ++ one ≠ "</iframe>" ++ other :=
    fun one other heq => by
    have hsecond : some 'i' = some '/' := congrArg (fun text : Text => text[1]?) heq
    exact absurd hsecond (by decide)
  generalize htext : word ++ '>' :: ("</iframe>" ++ rest) = text at h
  cases h with
  | @marked segment _ hsegment hopens hrest =>
    obtain ⟨rfl, heq⟩ | ⟨more, rfl, heq⟩ := bracket_cases hsegment htext.symm
    · obtain rfl := List.append_cancel_left heq
      exact .inl ⟨rfl, hrest⟩
    · obtain ⟨after, hafter, -⟩ := closing_cases heq
      refine .inr ⟨after, ?_⟩
      rw [List.append_assoc, List.cons_append, hafter, Frame.text, List.nil_append,
        List.append_assoc, closing_eq]
  | @wrapped segment inner inside _ hsegment hopens hinner hinside hrest =>
    have hinner : '>' ∉ ("<span" : Text) ++ inner := by simp [hinner]
    have hinside : '>' ∉ ("<iframe" : Text) ++ inside := by simp [hinside]
    obtain ⟨rfl, hfirst⟩ | ⟨first, rfl, hfirst⟩ := bracket_cases hsegment htext.symm
    · exact absurd hfirst (hspan _ _)
    rw [← List.append_assoc] at hfirst
    obtain ⟨rfl, hsecond⟩ | ⟨second, rfl, hsecond⟩ := bracket_cases hinner hfirst
    · exact absurd hsecond (hiframe _ _)
    rw [← List.append_assoc] at hsecond
    obtain ⟨rfl, hthird⟩ | ⟨third, rfl, hthird⟩ := bracket_cases hinside hsecond
    · obtain rfl := List.append_cancel_left hthird
      exact .inl ⟨rfl, hrest⟩
    · obtain ⟨after, hafter, -⟩ := closing_cases hthird
      refine .inr ⟨after, ?_⟩
      have hframe :
          ∀ more : Text,
            segment ++ '>' :: ("<span" ++ inner ++ '>' :: ("<iframe" ++ inside ++ '>' :: more)) =
              (segment ++ '>' :: ("<span" ++ (inner ++ ['>']))) ++
              ("<iframe" ++ (inside ++ '>' :: more)) := by
        intro more
        simp only [List.append_assoc, List.cons_append, List.nil_append]
      calc (segment ++ '>' :: ("<span" ++ inner ++ '>' ::
            ("<iframe" ++ inside ++ '>' :: third))) ++ ['>']
        _ = segment ++
          '>' :: ("<span" ++ inner ++ '>' :: ("<iframe" ++ inside ++ '>' :: (third ++ ['>']))) := by
          simp only [List.append_assoc, List.cons_append]
        _ = (segment ++ '>' :: ("<span" ++ (inner ++ ['>']))) ++
          ("<iframe" ++ (inside ++ '>' :: ("</iframe>" ++ after))) := by
          rw [hafter, hframe]
        _ = (segment ++ '>' :: ("<span" ++ (inner ++ ['>']))) ++
          (Frame.elementText inside ++ after) := by
          rw [elementText_append]
        _ = _ := (List.append_assoc _ _ _).symm

/-! ### The tail of a template -/

/-- Closing tags of wrappers, and blanks behind them. -/
inductive IsTail : Text → Prop
  | blanks {text : Text} (h : ∀ c ∈ text, Text.isBlank c = true) : IsTail text
  | wrapper {text : Text} (h : IsTail text) : IsTail ("</span>" ++ text)

theorem template_split : ("</template>" : Text) = "</template" ++ ['>'] := by decide

/-- The text up to the nearest end of a template is a tail exactly if the template counts as
ended. -/
theorem endsTemplate_template (h : ¬("</template" : Text) <:+: front) :
    Frame.endsTemplate (front ++ ("</template>" ++ rest)) = true ↔ IsTail front := by
  have hsplit :
      ∀ text : Text, text ++ ("</template>" ++ rest) = (text ++ "</template") ++ '>' :: rest := by
    intro text
    rw [template_split, List.append_assoc, List.append_assoc, List.singleton_append]
  induction hlength : front.length using Nat.strongRecOn generalizing front with
  | _ length ih =>
    obtain hfree | ⟨segment, more, hsegment, rfl⟩ := eq_segment_or front
    · have hbracket : '>' ∉ front ++ "</template" := by simp [hfree]
      have hwrapper : front ++ "</template" ≠ "</span" := by
        intro heq
        have hlast : some 'e' = some 'n' := by
          calc some 'e' = (front ++ "</template").getLast? := by simp [List.getLast?_append]
            _ = some 'n' := by rw [heq]; rfl
        exact absurd hlast (by decide)
      rw [hsplit, endsTemplate_iff, cut_iff hbracket, cut_iff hbracket,
        or_iff_right fun hcut => hwrapper hcut.1, and_iff_left trivial]
      constructor
      · rintro ⟨blanks, hblanks, heq⟩
        obtain rfl := List.append_cancel_right heq
        exact .blanks hblanks
      · rintro (hblanks | hrest)
        · exact ⟨front, hblanks, rfl⟩
        · exact absurd hfree (by simp)
    · rw [List.append_assoc, List.cons_append, endsTemplate_iff, cut_iff hsegment,
        cut_iff hsegment, or_iff_left]
      · have hmore : ¬("</template" : Text) <:+: more := fun hbegun =>
          h (hbegun.trans ((List.suffix_cons '>' more).trans (List.suffix_append _ _)).isInfix)
        rw [List.length_append, List.length_cons] at hlength
        have hiff : Frame.endsTemplate (more ++ ("</template>" ++ rest)) = true ↔ IsTail more :=
          ih more.length (by omega) hmore rfl
        rw [hiff]
        constructor
        · rintro ⟨rfl, htail⟩
          exact span_eq more ▸ .wrapper htail
        · intro htail
          generalize hfront : segment ++ '>' :: more = front at htail
          cases htail with
          | blanks hblanks =>
            have hblank : Text.isBlank '>' = true := hblanks '>' (by simp [← hfront])
            exact absurd hblank (by decide)
          | @wrapper text htail =>
            rw [span_eq] at hfront
            obtain ⟨rfl, rfl⟩ := Text.append_cons_inj hsegment (by decide) hfront
            exact ⟨rfl, htail⟩
      · rintro ⟨⟨blanks, -, rfl⟩, -⟩
        exact h ⟨blanks, '>' :: more, by rw [List.append_assoc]⟩

/-! ### Frames that survive -/

/-- No part of the element belongs to a hit: the search cuts the text in front of the element into
pieces of its own, leaves all of the element, and begins anew behind it. -/
def Survives (front element rest : Text) : Prop :=
  ∃ before, Frame.pattern.pieces (front ++ (element ++ rest)) =
      before ++ (element.map .plain ++ Frame.pattern.pieces rest) ∧
    before.flatMap (Piece.text Frame.text) = front

def Replaced (front element rest : Text) : Prop :=
  ∃ before frame, Frame.pattern.pieces (front ++ (element ++ rest)) = before ++
    .hit frame :: Frame.pattern.pieces rest ∧
    before.flatMap (Piece.text Frame.text) ++ frame.text = front ++ element

theorem not_survives_of_replaced {element : Text} (hne : element ≠ [])
    (h : Replaced front element rest) : ¬Survives front element rest := by
  rintro ⟨before, hpieces, -⟩
  obtain ⟨others, frame, hhit, -⟩ := h
  rw [hpieces, ← List.append_assoc, ← List.singleton_append, ← List.append_assoc] at hhit
  have hlast := congrArg List.getLast? (List.append_cancel_right hhit)
  rw [List.getLast?_concat, List.getLast?_append, List.getLast?_map,
    List.getLast?_eq_some_getLast hne] at hlast
  cases hlast

def IsElement (inside : Text) : Prop := ¬("></iframe>" : Text) <:+: inside ++ ['>']

theorem IsElement.not_isInfix (h : IsElement inside) :
    ¬("></iframe>" : Text) <:+: "<iframe" ++ (inside ++ ['>']) := by
  apply Text.Misses.not_isInfix _ (by decide)
  apply Text.Misses.append
  · exact Text.misses_of_not_mem (by decide)
  · exact Text.misses_of_not_isInfix h (by simp)

/-- A frame that begins in front of the element, or in it, ends in front of it. -/
theorem prefix_of_frame {more : Text} (hinside : IsElement inside)
    (hframe : ("></iframe>" : Text) <:+ frame.text)
    (h : front ++ ("<iframe" ++ (inside ++ ['>'])) = frame.text ++ more) :
    ∃ left, front = frame.text ++ left := by
  obtain ⟨word, htext, hword⟩ | ⟨left, hleft, -⟩ := List.append_eq_append_iff.1 h
  · have hsuffix : word <:+ frame.text := htext ▸ List.suffix_append front word
    obtain hlong | hshort := List.suffix_or_suffix_of_suffix hframe hsuffix
    · exact absurd (hlong.isInfix.trans ⟨[], more, by rw [List.nil_append, hword]⟩)
        hinside.not_isInfix
    · cases word with
      | nil => exact ⟨[], by rw [List.append_nil, htext, List.append_nil]⟩
      | cons c word =>
        -- The closing tag would have to go on like the beginning of a frame.
        obtain ⟨rfl, hrest⟩ : '<' = c ∧ "iframe" ++ (inside ++ ['>']) = word ++ more :=
          List.cons.inj hword
        have htails : ∀ tail ∈ ("></iframe>" : Text).tails, tail.head? = some '<' →
            tail[1]? = some '/' := by decide
        have hslash : word[0]? = some '/' := htails _ ((List.mem_tails _ _).2 hshort) rfl
        have hsecond : some 'i' = (word ++ more)[0]? := by rw [← hrest]; rfl
        cases word with
        | nil => cases hslash
        | cons d word =>
          cases hslash
          cases hsecond
  · exact ⟨left, hleft⟩

theorem closing_suffix_of_reads {text : Text} (h : Reads text frame rest) :
    ("></iframe>" : Text) <:+ frame.text := by
  cases h with
  | marked => exact List.suffix_append _ _
  | wrapped => exact (List.suffix_append _ _).trans (List.suffix_append _ _)

theorem front_elementText (front inside rest : Text) :
    front ++ (Frame.elementText inside ++ rest) = (front ++ ("<iframe" ++ inside)) ++
      '>' :: ("</iframe>" ++ rest) := by
  rw [elementText_append, List.append_assoc, List.append_assoc]

/-- A frame that begins in front of the element ends with it, or in front of it. -/
theorem reads_element (hinside : IsElement inside)
    (h : Reads (front ++ (Frame.elementText inside ++ rest)) frame behind) :
    behind = rest ∧ Frame.endsTemplate rest = false ∨ ∃ left, front = frame.text ++ left := by
  have hsuffix := closing_suffix_of_reads h
  rw [front_elementText] at h
  refine (reads_closing h).imp_right fun ⟨more, hmore⟩ => ?_
  have hwhole : front ++ ("<iframe" ++ (inside ++ ['>'])) = frame.text ++ more := by
    rw [← hmore, List.append_assoc, List.append_assoc]
  exact prefix_of_frame hinside hsuffix hwhole

/-- No frame begins in an element at the end of a template. -/
theorem passes_element (hinside : IsElement inside) (hrest : Frame.endsTemplate rest = true) :
    Frame.pattern.Passes (Frame.elementText inside) rest := by
  apply Pattern.Passes.append
  · intro before after heq _
    rw [run_eq_none_iff, closing_eq]
    rintro ⟨frame, behind, hreads⟩
    obtain ⟨-, hends⟩ | ⟨more, hmore⟩ := reads_closing hreads
    · rw [hrest] at hends
      cases hends
    · have hclosing : ("></iframe>" : Text) <:+: frame.text ++ more :=
        (closing_suffix_of_reads hreads).isInfix.trans (List.prefix_append _ _).isInfix
      refine hinside.not_isInfix (hclosing.trans ⟨before, [], ?_⟩)
      rw [← hmore, List.append_nil, ← List.append_assoc, ← heq, List.append_assoc]
  · exact passes_of_misses (Text.misses_of_apart (by decide) rest)
      (Text.misses_of_apart (by decide) rest)

theorem survives_of_endsTemplate (hinside : IsElement inside)
    (hrest : Frame.endsTemplate rest = true) : Survives front (Frame.elementText inside) rest := by
  rw [Survives, ← Pattern.pieces_append (passes_element hinside hrest)]
  refine Pattern.exists_pieces_append eq_append_of_run fun tail _ frame behind hrun => ?_
  refine (reads_element hinside (run_eq_some_iff.1 hrun)).resolve_left fun ⟨_, hends⟩ => ?_
  rw [hrest] at hends
  cases hends

theorem isElement_of_not_mem (h : '>' ∉ inside) : IsElement inside := by
  apply Text.Misses.not_isInfix _ (by decide)
  apply Text.Misses.append
  · exact Text.misses_of_not_mem h
  · exact Text.misses_of_not_isInfix (by decide) (by simp)

theorem replaced_of_not_endsTemplate (hinside : '>' ∉ inside)
    (hopens : OpensFrame ("<iframe" ++ inside)) (hrest : Frame.endsTemplate rest = false) :
    Replaced front (Frame.elementText inside) rest := by
  have hends :
      ∀ {front frame}, Frame.pattern.reader.run (front ++ (Frame.elementText inside ++ rest)) =
        some (frame, rest) → Replaced front (Frame.elementText inside) rest := by
    intro front frame hrun
    refine ⟨[], frame, Pattern.pieces_of_run_eq_some hrun, ?_⟩
    have hsource := eq_append_of_run hrun
    rw [← List.append_assoc] at hsource
    exact (List.append_cancel_right hsource).symm
  induction hlength : front.length using Nat.strongRecOn generalizing front with
  | _ length ih =>
    cases hrun : Frame.pattern.reader.run (front ++ (Frame.elementText inside ++ rest)) with
    | none =>
      cases front with
      | nil =>
        have hsegment : '>' ∉ ("<iframe" : Text) ++ inside := by simp [hinside]
        have hmarked := run_eq_some_iff.2 (Reads.marked hsegment hopens hrest)
        rw [List.nil_append, elementText_append, ← List.append_assoc, hmarked] at hrun
        cases hrun
      | cons c front =>
        have hstep : Frame.pattern.pieces (c :: (front ++ (Frame.elementText inside ++ rest))) =
            .plain c :: Frame.pattern.pieces (front ++ (Frame.elementText inside ++ rest)) :=
          Pattern.pieces_cons_of_run_eq_none hrun
        obtain ⟨before, frame, hpieces, htext⟩ := ih front.length (by simp [← hlength]) rfl
        refine ⟨.plain c :: before, frame, ?_, ?_⟩
        · rw [List.cons_append, hstep, hpieces, List.cons_append]
        · rw [List.flatMap_cons, List.append_assoc, htext]
          rfl
    | some found =>
      obtain ⟨frame, behind⟩ := found
      obtain ⟨rfl, -⟩ | ⟨left, rfl⟩ :=
        reads_element (isElement_of_not_mem hinside) (run_eq_some_iff.1 hrun)
      · exact hends hrun
      · have hbehind := eq_append_of_run hrun
        rw [List.append_assoc, List.append_cancel_left_eq] at hbehind
        have hshorter := Frame.pattern.consumes hrun
        rw [← hbehind] at hshorter
        simp only [List.length_append] at hshorter hlength
        obtain ⟨before, last, hpieces, htext⟩ := ih left.length (by omega) rfl
        refine ⟨.hit frame :: before, last, ?_, ?_⟩
        · rw [Pattern.pieces_of_run_eq_some hrun, ← hbehind, hpieces, List.cons_append]
        · rw [List.flatMap_cons, List.append_assoc, htext, List.append_assoc]
          rfl

/-! ### Templates -/

theorem defer_eq_deferred {page : Text} (huntitled : Title.Tag.Untitled (deferred page)) :
    defer page = deferred page := by
  by_cases hmarker : Text.contains marker page = true
  · exact defer_marked hmarker huntitled
  · have hpasses := passes_of_unmarked (mt Text.contains_iff.2 hmarker)
    have hframes : frames page = [] := Pattern.hits_eq_nil hpasses
    have hreplace : replaceFrames page = page := Pattern.replace_eq_self _ hpasses
    have hdefer : defer page = page := page_deferWith_unmarked hmarker _ _
    rw [hdefer, deferred, hframes, hreplace]
    exact (List.append_nil page).symm

theorem replaceFrames_of_survives {element : Text} (h : Survives front element rest) :
    ∃ written, replaceFrames (front ++ (element ++ rest)) = written ++
      (element ++ replaceFrames rest) := by
  obtain ⟨before, hpieces, -⟩ := h
  refine ⟨before.flatMap (Piece.text replaceFrame), ?_⟩
  have hplain : (element.map Piece.plain).flatMap (Piece.text replaceFrame) = element := by
    rw [List.flatMap_map]
    exact List.flatMap_singleton' element
  rw [replaceFrames, Pattern.replace, hpieces, List.flatMap_append, List.flatMap_append, hplain]
  rfl

def withTemplate (front content rest : Text) : Text :=
  front ++ ("<template>" ++ (content ++ ("</template>" ++ rest)))

theorem withTemplate_element (front before element behind rest : Text) :
    withTemplate front (before ++ (element ++ behind)) rest =
      (front ++ ("<template>" ++ before)) ++ (element ++ (behind ++ ("</template>" ++ rest))) := by
  simp only [withTemplate, List.append_assoc]

theorem elementText_ne_nil (inside : Text) : Frame.elementText inside ≠ [] :=
  List.append_ne_nil_of_right_ne_nil _ (by decide)

def scriptOf (page : Text) : Text := if (frames page).isEmpty then [] else loaderElement

/-- What becomes of an element in a template, where nothing is said about titles. If nothing but
closing tags of wrappers and blanks stand between it and the end of the template, it is left as it
is, whatever stands in front of it. A marked frame with anything else behind it is replaced. -/
theorem defer_template {before behind : Text} (hinside : IsElement inside)
    (hclose : ¬("</template" : Text) <:+: before ++ (Frame.elementText inside ++ behind))
    (huntitled : Title.Tag.Untitled
      (deferred (withTemplate front (before ++ (Frame.elementText inside ++ behind)) rest))) :
    (IsTail behind →
      Survives (front ++ ("<template>" ++ before)) (Frame.elementText inside)
        (behind ++ ("</template>" ++ rest)) ∧
      ∃ written,
        defer (withTemplate front (before ++ (Frame.elementText inside ++ behind)) rest) =
          written ++ (Frame.elementText inside ++
            (replaceFrames (behind ++ ("</template>" ++ rest)) ++
              scriptOf
                (withTemplate front (before ++ (Frame.elementText inside ++ behind)) rest)))) ∧
    ('>' ∉ inside → OpensFrame ("<iframe" ++ inside) →
      (Survives (front ++ ("<template>" ++ before)) (Frame.elementText inside)
        (behind ++ ("</template>" ++ rest)) ↔ IsTail behind) ∧
      (¬IsTail behind →
        Replaced (front ++ ("<template>" ++ before)) (Frame.elementText inside)
          (behind ++ ("</template>" ++ rest)))) := by
  have hbehind : ¬("</template" : Text) <:+: behind := fun hbegun =>
    hclose (hbegun.trans ((List.suffix_append _ _).trans (List.suffix_append _ _)).isInfix)
  have hends : Frame.endsTemplate (behind ++ ("</template>" ++ rest)) = true ↔ IsTail behind :=
    endsTemplate_template hbehind
  have hsurvives : IsTail behind →
      Survives (front ++ ("<template>" ++ before)) (Frame.elementText inside) (behind ++
        ("</template>" ++ rest)) :=
    fun htail => survives_of_endsTemplate hinside (hends.2 htail)
  refine ⟨fun htail => ⟨hsurvives htail, ?_⟩, fun hfree hopens => ?_⟩
  · obtain ⟨written, hwritten⟩ := replaceFrames_of_survives (hsurvives htail)
    refine ⟨written, ?_⟩
    rw [defer_eq_deferred huntitled, deferred, ← scriptOf,
      ← List.append_assoc (Frame.elementText inside), ← List.append_assoc written, ← hwritten,
      ← withTemplate_element]
  · have hreplaced : ¬IsTail behind →
        Replaced (front ++ ("<template>" ++ before)) (Frame.elementText inside) (behind ++
          ("</template>" ++ rest)) :=
      fun hnot => replaced_of_not_endsTemplate hfree hopens (Bool.eq_false_iff.2 (mt hends.1 hnot))
    refine ⟨⟨fun h => ?_, hsurvives⟩, hreplaced⟩
    by_cases htail : IsTail behind
    · exact htail
    · exact absurd h (not_survives_of_replaced (elementText_ne_nil inside) (hreplaced htail))

def sampleInside : Text := " data-s9e-mediaembed=\"x\""

/-- A frame with the end of its wrapper and a blank behind it. -/
theorem defer_template_wrapper :
    (IsElement sampleInside ∧
      (¬("</template" : Text) <:+: "a" ++ (Frame.elementText sampleInside ++ "</span> ")) ∧
      Title.Tag.Untitled (deferred
        (withTemplate "<p>" ("a" ++ (Frame.elementText sampleInside ++ "</span> ")) "b")) ∧
      IsTail "</span> ") ∧
    Survives ("<p>" ++ ("<template>" ++ "a")) (Frame.elementText sampleInside)
      ("</span> " ++ ("</template>" ++ "b")) := by
  have hmarked : sampleInside = _ := String.toList_ofList
  have hinside : IsElement sampleInside := isElement_of_not_mem (by rw [hmarked]; decide)
  have hclose : ¬("</template" : Text) <:+: "a" ++ (Frame.elementText sampleInside ++ "</span> ") :=
    mt Text.contains_iff.2 (by decide)
  have huntitled : Title.Tag.Untitled
      (deferred (withTemplate "<p>" ("a" ++ (Frame.elementText sampleInside ++ "</span> ")) "b")) :=
    untitled_deferred (mt Text.contains_iff.2 (by decide)) (mt Text.contains_iff.2 (by decide))
  have hblank : ∀ c ∈ [' '], Text.isBlank c = true := by decide
  have htail : IsTail "</span> " := IsTail.wrapper (.blanks hblank)
  exact ⟨⟨hinside, hclose, huntitled, htail⟩, ((defer_template hinside hclose huntitled).1 htail).1⟩

def samplePage : Text := "<template><iframe data-s9e-mediaembed=\"x\"></iframe>text</template>"

/-- Text behind the frame is enough for it to be replaced, although it is in the template. -/
theorem not_survives_text :
    samplePage = "<template>" ++ (Frame.elementText sampleInside ++ ("text" ++ "</template>")) ∧
      ¬Survives "<template>" (Frame.elementText sampleInside) ("text" ++ "</template>") ∧
      defer samplePage = "<template>" ++ (Placeholder.ofFrame (Frame.elementText sampleInside) ++
        ("text" ++ "</template>")) ++ loaderElement := by
  have hmarked : sampleInside = _ := String.toList_ofList
  have hwhole : samplePage = _ := String.toList_ofList
  have hopens : OpensFrame ("<iframe" ++ sampleInside) := by
    unfold OpensFrame
    rw [hmarked]
    decide +kernel
  have hends : Frame.endsTemplate ("text" ++ "</template>") = false := by decide +kernel
  have hreplaced :
      Replaced "<template>" (Frame.elementText sampleInside) ("text" ++ "</template>") :=
    replaced_of_not_endsTemplate (by decide) hopens hends
  have hpage :
      samplePage = "<template>" ++
        (Frame.elementText sampleInside ++ ("text" ++ "</template>")) := by
    rw [hwhole, hmarked, String.toList_ofList, String.toList_ofList, String.toList_ofList]
    decide +kernel
  have hrun :
      Frame.pattern.reader.run (Frame.elementText sampleInside ++ ("text" ++ "</template>")) =
        some ((⟨[], Frame.elementText sampleInside⟩ : Frame),
          ("text" ++ "</template>" : Text)) := by
    rw [elementText_append, ← List.append_assoc, run_eq_some_iff]
    exact .marked (by decide) hopens hends
  have hfront :
      Frame.pattern.Passes "<template>" (Frame.elementText sampleInside ++
        ("text" ++ "</template>")) :=
    passes_of_misses (Text.misses_of_apart (by decide) _) (Text.misses_of_apart (by decide) _)
  have hrest : Frame.pattern.Passes ("text" ++ "</template>") [] :=
    passes_of_misses (Text.misses_of_apart (by decide) _) (Text.misses_of_apart (by decide) _)
  have hplaceholder : replaceFrames samplePage =
      "<template>" ++
      (Placeholder.ofFrame (Frame.elementText sampleInside) ++ ("text" ++ "</template>")) := by
    rw [replaceFrames, hpage, Pattern.replace_append hfront, Pattern.replace_of_run_eq_some hrun,
      Pattern.replace_eq_self _ hrest]
    rfl
  have hframes : ¬(frames samplePage).isEmpty = true := by
    rw [frames, hpage, Pattern.hits_append hfront, Pattern.hits_of_run_eq_some hrun]
    exact Bool.false_ne_true
  have huntitled : Title.Tag.Untitled (deferred samplePage) :=
    untitled_deferred (mt Text.contains_iff.2 (by rw [hwhole]; decide +kernel))
      (mt Text.contains_iff.2 (by rw [hwhole]; decide +kernel))
  refine ⟨hpage, not_survives_of_replaced (elementText_ne_nil _) hreplaced, ?_⟩
  rw [defer_eq_deferred huntitled, deferred, hplaceholder, if_neg hframes]

end Page

end LazyEmbed
