import LazyEmbed.Text.Pattern

/-!
# Searching a text that is put together from parts

A search goes over a text from left to right, so what it finds in `text ++ rest` is what it finds in
the parts, once no hit begins inside `text` and reaches into `rest`. Most patterns have a fixed
beginning, and then it is enough that this beginning is nowhere in `text`, not even cut off at its
end: `Misses` says so, and the lemmas on it are all that is ever shown about a stretch that a search
leaves alone.
-/

namespace LazyEmbed

namespace Text

/-- The characters of a text are looked at one by one, not all characters that there are. -/
instance decidableForallMem (text : Text) (holds : Char → Prop) [DecidablePred holds] :
    Decidable (∀ c ∈ text, holds c) := List.decidableBAll holds text

instance decidableExistsMem (text : Text) (holds : Char → Prop) [DecidablePred holds] :
    Decidable (∃ c ∈ text, holds c) := List.decidableBEx holds text

/-- `start` does not begin inside `text` when `rest` follows. -/
def Misses (start text rest : Text) : Prop :=
  ∀ before after, text = before ++ after → after ≠ [] → ¬ start <+: after ++ rest

/-- No end of `text` agrees with `start` as far as both go. -/
def apart (start : Text) : Text → Bool
  | [] => true
  | c :: text =>
    !(c :: text).isPrefixOf start && !start.isPrefixOf (c :: text) && apart start text

section

variable {start text rest : Text}

theorem misses_nil (start rest : Text) : Misses start [] rest := by
  intro before after heq hne
  exact absurd (List.append_eq_nil_iff.1 heq.symm).2 hne

theorem Misses.tail {c : Char} (h : Misses start (c :: text) rest) : Misses start text rest := by
  intro before after heq hne
  exact h (c :: before) after (by rw [heq, List.cons_append]) hne

theorem Misses.not_prefix {c : Char} (h : Misses start (c :: text) rest) :
    ¬ start <+: c :: (text ++ rest) :=
  h [] (c :: text) rfl (List.cons_ne_nil _ _)

theorem misses_cons {c : Char} (hhead : ¬ start <+: c :: (text ++ rest))
    (htail : Misses start text rest) : Misses start (c :: text) rest := by
  intro before after heq hne
  cases before with
  | nil =>
    rw [List.nil_append] at heq
    subst heq
    exact hhead
  | cons d before =>
    obtain ⟨-, heq⟩ := List.cons.inj heq
    exact htail before after heq hne

theorem Misses.append {second : Text} (hfirst : Misses start text (second ++ rest))
    (hsecond : Misses start second rest) : Misses start (text ++ second) rest := by
  induction text with
  | nil => exact hsecond
  | cons c text ih =>
    rw [List.cons_append]
    refine misses_cons ?_ (ih hfirst.tail)
    rw [List.append_assoc]
    exact hfirst.not_prefix

/-- A longer beginning is missed as well. -/
theorem Misses.of_isPrefix {longer : Text} (h : Misses start text rest)
    (hlonger : start <+: longer) : Misses longer text rest :=
  fun before after heq hne hbegins => h before after heq hne (hlonger.trans hbegins)

/-- A text apart from the start of a pattern is missed, whatever follows it. -/
theorem misses_of_apart (h : apart start text = true) (rest : Text) : Misses start text rest := by
  induction text with
  | nil => exact misses_nil start rest
  | cons c text ih =>
    simp only [apart, Bool.and_eq_true, Bool.not_eq_true', ← Bool.not_eq_true,
      List.isPrefixOf_iff_prefix] at h
    obtain ⟨⟨hshort, hlong⟩, htail⟩ := h
    refine misses_cons ?_ (ih htail)
    intro hbegins
    have hself : c :: text <+: c :: (text ++ rest) := List.prefix_append (c :: text) rest
    rcases List.prefix_or_prefix_of_prefix hbegins hself with hle | hle
    · exact hlong hle
    · exact hshort hle

/-- A text without `start` in it misses `start` if what follows does not go on with it. -/
theorem misses_of_not_isInfix (h : ¬ start <:+: text)
    (hrest : ∀ c, rest.head? = some c → c ∉ start.tail) : Misses start text rest := by
  intro before after heq hne hbegins
  rcases List.prefix_or_prefix_of_prefix hbegins (List.prefix_append after rest) with hle | hle
  · exact h (heq ▸ hle.isInfix.trans (List.suffix_append before after).isInfix)
  · obtain ⟨left, rfl⟩ := hle
    rw [List.prefix_append_right_inj] at hbegins
    cases left with
    | nil =>
      rw [List.append_nil] at h
      exact h (heq ▸ (List.suffix_append before after).isInfix)
    | cons c left =>
      obtain ⟨behind, rfl⟩ := hbegins
      refine hrest c rfl ?_
      rw [List.tail_append_of_ne_nil hne]
      simp

theorem Misses.not_isInfix (h : Misses start text []) (hstart : start ≠ []) : ¬start <:+: text := by
  rintro ⟨before, after, heq⟩
  refine h before (start ++ after) (by rw [← heq, List.append_assoc]) (by simp [hstart]) ?_
  rw [List.append_nil]
  exact List.prefix_append start after

theorem misses_of_not_mem {c : Char} (h : c ∉ text) : Misses (c :: start) text rest := by
  intro before after heq hne hbegins
  cases after with
  | nil => exact hne rfl
  | cons d after =>
    obtain ⟨rfl, -⟩ := List.cons_prefix_cons.1 hbegins
    exact h (by simp [heq])

end

theorem intercalate_cons (separator first : Text) (others : List Text) :
    separator.intercalate (first :: others) = first ++ others.flatMap (separator ++ ·) := by
  induction others generalizing first with
  | nil => simp [List.intercalate]
  | cons second others ih =>
    have hsecond := ih second
    simp only [List.intercalate, List.intersperse_cons_cons, List.flatten_cons,
      List.flatMap_cons] at hsecond ⊢
    rw [hsecond]
    simp

/-! ### Texts up to a character -/

section

variable {before behind : Text} {d : Char}

theorem prefix_of_prefix_append_cons {start : Text} (h : start <+: before ++ d :: behind)
    (hd : d ∉ start) : start <+: before := by
  rcases List.prefix_or_prefix_of_prefix h (List.prefix_append before (d :: behind)) with hle | hle
  · exact hle
  · obtain ⟨more, rfl⟩ := hle
    rw [List.prefix_append_right_inj] at h
    cases more with
    | nil => exact ⟨[], by simp⟩
    | cons c more =>
      obtain ⟨rfl, -⟩ := List.cons_prefix_cons.1 h
      exact absurd (List.mem_append_right before List.mem_cons_self) hd

theorem suffix_of_suffix_append {rest : Text} (h : d :: behind <:+ before ++ rest)
    (hd : d ∉ before) : d :: behind <:+ rest := by
  induction before with
  | nil => exact h
  | cons c before ih =>
    obtain ⟨hc, hbefore⟩ := not_or.1 (mt List.mem_cons.2 hd)
    obtain hwhole | hsuffix := List.suffix_cons_iff.1 h
    · exact absurd (List.cons.inj hwhole).1 hc
    · exact ih hsuffix hbefore

theorem append_cons_inj {other left : Text} (hbefore : d ∉ before) (hother : d ∉ other)
    (h : before ++ d :: behind = other ++ d :: left) : before = other ∧ behind = left := by
  have hle : before <+: other :=
    prefix_of_prefix_append_cons (h ▸ List.prefix_append before (d :: behind)) hbefore
  have hge : other <+: before :=
    prefix_of_prefix_append_cons (h ▸ List.prefix_append other (d :: left)) hother
  obtain rfl := hle.eq_of_length (Nat.le_antisymm hle.length_le hge.length_le)
  exact ⟨rfl, (List.cons.inj (List.append_cancel_left h)).2⟩

end

def Lacks (chars : List Char) (text : Text) : Prop := ∀ c ∈ chars, c ∉ text

section

variable {chars : List Char} {text second : Text}

instance : Decidable (Lacks chars text) := inferInstanceAs (Decidable (∀ c ∈ chars, _))

theorem Lacks.append (hfirst : Lacks chars text) (hsecond : Lacks chars second) :
    Lacks chars (text ++ second) := by
  intro c hc hmem
  exact (List.mem_append.1 hmem).elim (hfirst c hc) (hsecond c hc)

/-- What all characters of a text are and none of the list is keeps them apart. -/
theorem lacks_of_forall {test : Char → Bool} (h : ∀ c ∈ text, test c = true)
    (hchars : ∀ c ∈ chars, test c = false) : Lacks chars text := by
  intro c hc hmem
  exact Bool.noConfusion ((hchars c hc).symm.trans (h c hmem))

end

end Text

namespace Pattern

variable {α ε : Type} {pattern : Pattern α}

/-- Proof along a search: a text is empty, or begins with a character outside all hits, or with
a hit. -/
theorem searchInduction {motive : Text → Prop} (pattern : Pattern α) (nil : motive [])
    (plain : ∀ c text, pattern.reader.run (c :: text) = none → motive text → motive (c :: text))
    (hit : ∀ text value rest, pattern.reader.run text = some (value, rest) → motive rest →
      motive text) (text : Text) : motive text := by
  suffices h : ∀ n, ∀ text : Text, text.length ≤ n → motive text from h _ text (Nat.le_refl _)
  intro n
  induction n with
  | zero =>
    intro text hlength
    rw [List.length_eq_zero_iff.1 (Nat.le_zero.1 hlength)]
    exact nil
  | succ n ih =>
    intro text hlength
    cases hrun : pattern.reader.run text with
    | some found =>
      have hlt := pattern.consumes hrun
      exact hit text found.1 found.2 hrun (ih found.2 (by omega))
    | none =>
      cases text with
      | nil => exact nil
      | cons c text => exact plain c text hrun (ih text (Nat.le_of_succ_le_succ hlength))

def BeginsWith (pattern : Pattern α) (start : Text) : Prop :=
  ∀ ⦃text value rest⦄, pattern.reader.run text = some (value, rest) → start <+: text

theorem after_beginsWith (start : Text) (next : Reader α) (h : start ≠ []) :
    (after start next h).BeginsWith start := by
  intro text value rest hrun
  obtain ⟨⟨_, left⟩, hliteral, -⟩ := Option.bind_eq_some_iff.1 hrun
  rw [Reader.run_literal_eq_some_iff.1 hliteral]
  exact List.prefix_append start left

theorem run_after_append (start : Text) (next : Reader α) (h : start ≠ []) (text : Text) :
    (after start next h).reader.run (start ++ text) = next.run text := by
  simp [after]

theorem BeginsWith.run_eq_none {start text : Text} (h : pattern.BeginsWith start)
    (hnot : ¬ start <+: text) : pattern.reader.run text = none := by
  cases hrun : pattern.reader.run text with
  | none => rfl
  | some found => exact absurd (h hrun) hnot

/-- No hit begins inside `text` when `rest` follows. -/
def Passes (pattern : Pattern α) (text rest : Text) : Prop :=
  ∀ before after, text = before ++ after → after ≠ [] → pattern.reader.run (after ++ rest) = none

theorem passes_nil (pattern : Pattern α) (rest : Text) : pattern.Passes [] rest := by
  intro before after heq hne
  exact absurd (List.append_eq_nil_iff.1 heq.symm).2 hne

theorem Passes.head {c : Char} {text rest : Text} (h : pattern.Passes (c :: text) rest) :
    pattern.reader.run (c :: (text ++ rest)) = none :=
  h [] (c :: text) rfl (List.cons_ne_nil _ _)

theorem Passes.tail {c : Char} {text rest : Text} (h : pattern.Passes (c :: text) rest) :
    pattern.Passes text rest :=
  fun before after heq hne => h (c :: before) after (by rw [heq, List.cons_append]) hne

theorem passes_cons {c : Char} {text rest : Text}
    (hhead : pattern.reader.run (c :: (text ++ rest)) = none) (htail : pattern.Passes text rest) :
    pattern.Passes (c :: text) rest := by
  intro before after heq hne
  cases before with
  | nil =>
    rw [List.nil_append] at heq
    subst heq
    exact hhead
  | cons d before =>
    obtain ⟨-, heq⟩ := List.cons.inj heq
    exact htail before after heq hne

theorem Passes.append {text second rest : Text} (hfirst : pattern.Passes text (second ++ rest))
    (hsecond : pattern.Passes second rest) : pattern.Passes (text ++ second) rest := by
  induction text with
  | nil => exact hsecond
  | cons c text ih =>
    rw [List.cons_append]
    refine passes_cons ?_ (ih hfirst.tail)
    rw [List.append_assoc]
    exact hfirst.head

theorem Passes.left {text second rest : Text} (h : pattern.Passes (text ++ second) rest) :
    pattern.Passes text (second ++ rest) := by
  intro before after heq hne
  have hnone :=
    h before (after ++ second) (by rw [heq,
      List.append_assoc]) (List.append_ne_nil_of_left_ne_nil hne _)
  rwa [List.append_assoc] at hnone

theorem Passes.right {text second rest : Text} (h : pattern.Passes (text ++ second) rest) :
    pattern.Passes second rest :=
  fun before after heq hne => h (text ++ before) after (by rw [heq, List.append_assoc]) hne

theorem BeginsWith.passes {start text rest : Text} (h : pattern.BeginsWith start)
    (hmisses : Text.Misses start text rest) : pattern.Passes text rest :=
  fun before after heq hne => h.run_eq_none (hmisses before after heq hne)

@[simp]
theorem hits_nil (pattern : Pattern α) : pattern.hits [] = [] := by
  simp [hits]

section

variable {text rest : Text} (h : pattern.Passes text rest)
include h

theorem pieces_append : pattern.pieces (text ++ rest) = text.map .plain ++ pattern.pieces rest := by
  induction text with
  | nil => rfl
  | cons c text ih =>
    rw [List.cons_append, pieces_cons_of_run_eq_none h.head, ih h.tail, List.map_cons,
      List.cons_append]

theorem hits_append : pattern.hits (text ++ rest) = pattern.hits rest := by
  have hplain : (text.map (Piece.plain (α := α))).filterMap Piece.value? = [] := by
    simp [Piece.value?]
  rw [hits, pieces_append h, List.filterMap_append, hplain, List.nil_append, hits]

theorem replace_append (write : α → Text) :
    pattern.replace write (text ++ rest) = text ++ pattern.replace write rest := by
  have hplain : (text.map Piece.plain).flatMap (Piece.text write) = text := by
    induction text with
    | nil => rfl
    | cons c text ih =>
      rw [List.map_cons, List.flatMap_cons, ih h.tail, Piece.text, List.singleton_append]
  rw [replace, pieces_append h, List.flatMap_append, hplain, replace]

end

theorem replace_eq_self {text : Text} (write : α → Text) (h : pattern.Passes text []) :
    pattern.replace write text = text := by
  have happend := replace_append h write
  rwa [List.append_nil, replace_nil, List.append_nil] at happend

theorem hits_eq_nil {text : Text} (h : pattern.Passes text []) : pattern.hits text = [] := by
  have happend := hits_append h
  rwa [List.append_nil, hits_nil] at happend

theorem hits_of_run_eq_some {text rest : Text} {value : α}
    (h : pattern.reader.run text = some (value, rest)) :
    pattern.hits text = value :: pattern.hits rest := by
  simp [hits, pieces_of_run_eq_some h, Piece.value?]

theorem hits_cons_of_run_eq_none {c : Char} {text : Text}
    (h : pattern.reader.run (c :: text) = none) : pattern.hits (c :: text) = pattern.hits text := by
  rw [hits, pieces_cons_of_run_eq_none h, List.filterMap_cons_none rfl, hits]

/-- What holds of everything that is read holds of every hit. -/
theorem forall_mem_hits {holds : α → Prop}
    (h : ∀ text value rest, pattern.reader.run text = some (value, rest) → holds value)
    (text : Text) : ∀ value ∈ pattern.hits text, holds value := by
  induction text using pattern.searchInduction with
  | nil => simp
  | plain c text hrun ih =>
    rw [hits_cons_of_run_eq_none hrun]
    exact ih
  | hit text value rest hrun ih =>
    rw [hits_of_run_eq_some hrun]
    exact List.forall_mem_cons.2 ⟨h text value rest hrun, ih⟩

/-- Every hit is read at some place of the text. -/
theorem exists_run_of_mem_hits {text : Text} {value : α} (h : value ∈ pattern.hits text) :
    ∃ behind rest, behind <:+ text ∧ pattern.reader.run behind = some (value, rest) := by
  induction text using pattern.searchInduction with
  | nil =>
    rw [hits_nil] at h
    exact absurd h List.not_mem_nil
  | plain c text hrun ih =>
    rw [hits_cons_of_run_eq_none hrun] at h
    obtain ⟨behind, rest, hsuffix, hfound⟩ := ih h
    exact ⟨behind, rest, hsuffix.trans (List.suffix_cons c text), hfound⟩
  | hit text first rest hrun ih =>
    rw [hits_of_run_eq_some hrun] at h
    rcases List.mem_cons.1 h with rfl | h
    · exact ⟨text, rest, List.suffix_rfl, hrun⟩
    · obtain ⟨behind, left, hsuffix, hfound⟩ := ih h
      exact ⟨behind, left, hsuffix.trans (pattern.reader.suffix_of_run hrun), hfound⟩

/-- A text holds no hit, or goes up to its first one. -/
theorem passes_or_exists (pattern : Pattern α) (text : Text) : pattern.Passes text [] ∨
    ∃ before behind value rest, text = before ++ behind ∧ pattern.Passes before behind ∧
      pattern.reader.run behind = some (value, rest) := by
  induction text using pattern.searchInduction with
  | nil => exact .inl (passes_nil pattern [])
  | plain c text hrun ih =>
    obtain hpasses | ⟨before, behind, value, rest, rfl, hpasses, hbehind⟩ := ih
    · refine .inl (passes_cons ?_ hpasses)
      rwa [List.append_nil]
    · exact .inr ⟨c :: before, behind, value, rest, rfl, passes_cons hrun hpasses, hbehind⟩
  | hit text value rest hrun ih =>
    exact .inr ⟨[], text, value, rest, rfl, passes_nil pattern text, hrun⟩

theorem passes_of_hits_eq_nil {text : Text} (h : pattern.hits text = []) :
    pattern.Passes text [] := by
  obtain hpasses | ⟨before, behind, value, rest, rfl, hpasses, hrun⟩ :=
    pattern.passes_or_exists text
  · exact hpasses
  · rw [hits_append hpasses, hits_of_run_eq_some hrun] at h
    cases h

/-- Proof from hit to hit: a text holds none, or begins with a stretch that holds none and goes on
with one. -/
theorem stretchInduction {motive : Text → Prop} (pattern : Pattern α)
    (clear : ∀ text, pattern.Passes text [] → motive text)
    (hit : ∀ before text value rest, pattern.Passes before text →
      pattern.reader.run text = some (value, rest) → motive rest → motive (before ++ text))
    (text : Text) : motive text := by
  induction hlength : text.length using Nat.strongRecOn generalizing text with
  | _ length ih =>
    obtain hpasses | ⟨before, behind, value, rest, rfl, hpasses, hrun⟩ :=
      pattern.passes_or_exists text
    · exact clear text hpasses
    · have hshorter := pattern.consumes hrun
      rw [List.length_append] at hlength
      exact hit before behind value rest hpasses hrun (ih rest.length (by omega) rest rfl)

/-- A search cuts the text in front of its hits, and each hit is written anew where it was. -/
theorem exists_cuts {source : α → Text} (hsource : ∀ text value rest,
      pattern.reader.run text = some (value, rest) → text = source value ++ rest) (text : Text) :
    ∃ (cuts : List (Text × α)) (last : Text), cuts.map Prod.snd = pattern.hits text ∧
      text = (cuts.flatMap fun cut => cut.1 ++ source cut.2) ++ last ∧
      ∀ write : α → Text,
        pattern.replace write text = (cuts.flatMap fun cut => cut.1 ++ write cut.2) ++ last := by
  induction text using pattern.stretchInduction with
  | clear text hpasses =>
    exact ⟨[], text, (hits_eq_nil hpasses).symm, rfl, fun write => replace_eq_self write hpasses⟩
  | hit before text value rest hpasses hrun ih =>
    obtain ⟨cuts, last, hhits, htext, hreplace⟩ := ih
    refine ⟨(before, value) :: cuts, last, ?_, ?_, fun write => ?_⟩
    · rw [hits_append hpasses, hits_of_run_eq_some hrun, List.map_cons, hhits]
    · rw [List.flatMap_cons, List.append_assoc, ← htext, List.append_assoc, ← hsource _ _ _ hrun]
    · rw [replace_append hpasses write, replace_of_run_eq_some hrun, hreplace, List.flatMap_cons,
        List.append_assoc, List.append_assoc]

/-- A row of items is replaced item by item when each is, whatever follows it. -/
theorem replace_flatMap {β : Type} (write : α → Text) {before after : β → Text} {items : List β}
    (h : ∀ item ∈ items, ∀ rest, pattern.replace write (before item ++ rest) =
      after item ++ pattern.replace write rest) (rest : Text) :
    pattern.replace write (items.flatMap before ++ rest) =
      items.flatMap after ++ pattern.replace write rest := by
  induction items with
  | nil => rfl
  | cons item items ih =>
    obtain ⟨hitem, hitems⟩ := List.forall_mem_cons.1 h
    rw [List.flatMap_cons, List.append_assoc, hitem, ih hitems, List.flatMap_cons,
      List.append_assoc]

/-! ### Writing that can fail -/

section

variable (write : α → Except ε Text)

@[simp]
theorem replaceM_nil : pattern.replaceM write [] = .ok [] := by
  simp [replaceM, pure, Except.pure, bind, Except.bind]

theorem replaceM_of_run_eq_some {text rest : Text} {value : α}
    (h : pattern.reader.run text = some (value, rest)) :
    pattern.replaceM write text = (do
      let first ← write value
      let others ← pattern.replaceM write rest
      pure (first ++ others) : Except ε Text) := by
  rw [replaceM, pieces_of_run_eq_some h, List.mapM_cons]
  cases hvalue : write value with
  | error fault =>
    simp only [hvalue]
    rfl
  | ok first =>
    simp only [hvalue, replaceM]
    cases (pattern.pieces rest).mapM (m := Except ε) _ <;> rfl

theorem replaceM_cons_of_run_eq_none {c : Char} {text : Text}
    (h : pattern.reader.run (c :: text) = none) :
    pattern.replaceM write (c :: text) = (pattern.replaceM write text).map (c :: ·) := by
  rw [replaceM, pieces_cons_of_run_eq_none h, List.mapM_cons, replaceM]
  cases (pattern.pieces text).mapM (m := Except ε) _ <;> rfl

/-- Writing that never fails. -/
theorem replaceM_ok (write : α → Text) (text : Text) :
    pattern.replaceM (ε := ε) (fun value => .ok (write value)) text =
      .ok (pattern.replace write text) := by
  induction text using pattern.searchInduction with
  | nil => simp
  | plain c text hrun ih =>
    rw [replaceM_cons_of_run_eq_none _ hrun, ih, replace_cons_of_run_eq_none hrun]
    rfl
  | hit text value rest hrun ih =>
    rw [replaceM_of_run_eq_some _ hrun, ih, replace_of_run_eq_some hrun]
    rfl

theorem replaceM_append {text rest : Text} (h : pattern.Passes text rest) :
    pattern.replaceM write (text ++ rest) = (pattern.replaceM write rest).map (text ++ ·) := by
  induction text with
  | nil =>
    rw [List.nil_append]
    cases pattern.replaceM write rest <;> rfl
  | cons c text ih =>
    rw [List.cons_append, replaceM_cons_of_run_eq_none write h.head, ih h.tail]
    cases pattern.replaceM write rest <;> rfl

/-- A row of items is replaced item by item when each is, with faults. -/
theorem replaceM_flatMap {β : Type} {before after : β → Text} {items : List β}
    (h : ∀ item ∈ items, ∀ rest, pattern.replaceM write (before item ++ rest) =
      (pattern.replaceM write rest).map (after item ++ ·)) (rest : Text) :
    pattern.replaceM write (items.flatMap before ++ rest) =
      (pattern.replaceM write rest).map (items.flatMap after ++ ·) := by
  induction items with
  | nil =>
    simp only [List.flatMap_nil, List.nil_append]
    cases pattern.replaceM write rest <;> rfl
  | cons item items ih =>
    obtain ⟨hitem, hitems⟩ := List.forall_mem_cons.1 h
    rw [List.flatMap_cons, List.append_assoc, hitem, ih hitems]
    cases pattern.replaceM write rest <;> simp [Except.map]

theorem replaceM_eq_self {text : Text} (h : pattern.Passes text []) :
    pattern.replaceM write text = .ok text := by
  have happend := replaceM_append write h
  rw [List.append_nil, replaceM_nil] at happend
  rw [happend]
  simp [Except.map]

end

end Pattern

end LazyEmbed
