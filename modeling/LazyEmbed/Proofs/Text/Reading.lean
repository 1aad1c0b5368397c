import LazyEmbed.Proofs.Text.Search
import Mathlib.Data.List.TakeWhile

/-!
# Readers that stop at a text

A reader stops at a text if it reads in front of it just as it would read at the end of everything.
Such a reader cannot tell what comes behind, so a search with it cuts `text ++ stop` exactly where
the two are joined. Whether a reader stops is settled by its parts.
-/

namespace LazyEmbed

namespace Text

variable {test : Char → Bool} {d : Char}

theorem takeWhile_append_stop (h : test d = false) (text stop : Text) :
    (text ++ d :: stop).takeWhile test = text.takeWhile test := by
  induction text with
  | nil => simp [h]
  | cons c text ih => by_cases hc : test c <;> simp [hc, ih]

theorem dropWhile_append_stop (h : test d = false) (text stop : Text) :
    (text ++ d :: stop).dropWhile test = text.dropWhile test ++ d :: stop := by
  induction text with
  | nil => simp [h]
  | cons c text ih => by_cases hc : test c <;> simp [hc, ih]

theorem takeWhile_of_all {text : Text} (h : ∀ c ∈ text, test c = true) (hd : test d = false)
    (stop : Text) : (text ++ d :: stop).takeWhile test = text := by
  rw [takeWhile_append_stop hd, List.takeWhile_eq_self_iff]
  exact h

theorem dropWhile_of_all {text : Text} (h : ∀ c ∈ text, test c = true) (hd : test d = false)
    (stop : Text) : (text ++ d :: stop).dropWhile test = d :: stop := by
  rw [dropWhile_append_stop hd, List.dropWhile_eq_nil_iff.2 h, List.nil_append]

/-- A text without the character is one on which the test for any other holds throughout. -/
theorem forall_ne_iff {c : Char} {text : Text} :
    (∀ d ∈ text, decide (d ≠ c) = true) ↔ c ∉ text := by
  constructor
  · intro h hmem
    exact of_decide_eq_true (h c hmem) rfl
  · intro h d hd
    exact decide_eq_true (ne_of_mem_of_not_mem hd h)

end Text

section

variable {ε ε' α β : Type} {found : Except ε α} {fault : ε}

theorem map_eq_ok_iff {change : α → β} {out : β} :
    found.map change = .ok out ↔ ∃ value, found = .ok value ∧ out = change value := by
  cases found <;> simp [Except.map, eq_comm]

theorem map_eq_error_iff {change : α → β} :
    found.map change = .error fault ↔ found = .error fault := by
  cases found <;> simp [Except.map]

theorem mapError_eq_ok_iff {change : ε → ε'} {out : α} :
    found.mapError change = .ok out ↔ found = .ok out := by
  cases found <;> simp [Except.mapError]

theorem bind_eq_ok_iff {next : α → Except ε β} {out : β} :
    found >>= next = .ok out ↔ ∃ value, found = .ok value ∧ next value = .ok out := by
  cases found <;> simp [bind, Except.bind]

theorem bind_eq_error_iff {next : α → Except ε β} :
    found >>= next = .error fault ↔ found = .error fault ∨ ∃ value, found = .ok value ∧
      next value = .error fault := by
  cases found <;> simp [bind, Except.bind]

end

namespace Reader

variable {α β : Type} {stop : Text}

@[simp]
theorem run_literal_singleton (c : Char) (text : Text) :
    (literal [c]).run (c :: text) = some ((), text) :=
  run_literal_append [c] text

theorem run_optional_of_run_eq_some {reader : Reader α} {text rest : Text} {value : α}
    (h : reader.run text = some (value, rest)) :
    (optional reader).run text = some (some value, rest) := by
  simp [optional, h]

theorem run_optional_of_run_eq_none {reader : Reader α} {text : Text}
    (h : reader.run text = none) : (optional reader).run text = some (none, text) := by
  simp [optional, h]

theorem run_bind_eq_some_iff {reader : Reader α} {next : α → Reader β} {text rest : Text}
    {value : β} :
    (reader >>= next).run text = some (value, rest) ↔
      ∃ mid left, reader.run text = some (mid, left) ∧
      (next mid).run left = some (value, rest) := by
  rw [run_bind, Option.bind_eq_some_iff]
  exact Prod.exists

theorem exists_run_of_oneOf {readers : List (Reader α)} {text : Text} {found : α × Text}
    (h : (oneOf readers).run text = some found) :
    ∃ reader ∈ readers, reader.run text = some found := by
  induction readers with
  | nil => simp [oneOf] at h
  | cons first others ih =>
    rw [oneOf, run_orElse, Option.or_eq_some_iff] at h
    rcases h with hfirst | ⟨-, hothers⟩
    · exact ⟨first, List.mem_cons_self, hfirst⟩
    · obtain ⟨reader, hmem, hrun⟩ := ih hothers
      exact ⟨reader, List.mem_cons_of_mem first hmem, hrun⟩

theorem eq_append_of_run_many {test : Char → Bool} {text rest found : Text}
    (h : (many test).run text = some (found, rest)) :
    text = found ++ rest ∧ ∀ c ∈ found, test c = true := by
  obtain ⟨rfl, rfl⟩ : text.takeWhile test = found ∧ text.dropWhile test = rest := by simpa using h
  exact ⟨List.takeWhile_append_dropWhile.symm, fun c hc => List.mem_takeWhile_imp hc⟩

theorem eq_append_of_run_manyAtMost {limit : Nat} {test : Char → Bool} {text rest found : Text}
    (h : (manyAtMost limit test).run text = some (found, rest)) :
    text = found ++ rest ∧ ∀ c ∈ found, test c = true := by
  obtain ⟨rfl, rfl⟩ := Prod.mk.inj (Option.some.inj h)
  have hbegins : (text.takeWhile test).take limit <+: text :=
    (List.take_prefix _ _).trans (List.takeWhile_prefix test)
  exact ⟨(List.prefix_iff_eq_append.1 hbegins).symm,
    fun c hc => List.mem_takeWhile_imp (List.mem_of_mem_take hc)⟩

/-- An optional reader takes its value, or nothing at all. -/
theorem run_optional_cases {reader : Reader α} {text rest : Text} {found : Option α}
    (h : (optional reader).run text = some (found, rest)) :
    (∃ value, found = some value ∧ reader.run text = some (value, rest)) ∨
      (found = none ∧ rest = text) := by
  rw [optional, run_orElse, Option.or_eq_some_iff] at h
  rcases h with hfirst | ⟨-, hsecond⟩
  · obtain ⟨value, left, hrun, hpure⟩ := run_bind_eq_some_iff.1 hfirst
    obtain ⟨rfl, rfl⟩ : some value = found ∧ left = rest := by simpa using hpure
    exact .inl ⟨value, rfl, hrun⟩
  · obtain ⟨rfl, rfl⟩ : none = found ∧ text = rest := by simpa using hsecond
    exact .inr ⟨rfl, rfl⟩

theorem eq_append_of_run_many1 {test : Char → Bool} {text rest found : Text}
    (h : (many1 test).run text = some (found, rest)) :
    text = found ++ rest ∧ found ≠ [] ∧ ∀ c ∈ found, test c = true := by
  rw [run_many1] at h
  split at h
  · simp at h
  · next hne =>
    have hmany : (many test).run text = some (found, rest) := by simpa using h
    obtain ⟨htext, hall⟩ := eq_append_of_run_many hmany
    obtain ⟨rfl, -⟩ : text.takeWhile test = found ∧ _ := by simpa using h
    exact ⟨htext, hne, hall⟩

theorem run_many_of_all {test : Char → Bool} {text : Text} (h : ∀ c ∈ text, test c = true)
    {d : Char} (hd : test d = false) (rest : Text) :
    (many test).run (text ++ d :: rest) = some (text, d :: rest) := by
  rw [run_many, Text.takeWhile_of_all h hd, Text.dropWhile_of_all h hd]

theorem run_many1_of_all {test : Char → Bool} {text : Text} (hne : text ≠ [])
    (h : ∀ c ∈ text, test c = true) {d : Char} (hd : test d = false) (rest : Text) :
    (many1 test).run (text ++ d :: rest) = some (text, d :: rest) := by
  rw [run_many1, Text.takeWhile_of_all h hd, Text.dropWhile_of_all h hd, if_neg hne]

/-- Reads up to the first place of a character. -/
theorem run_many_ne {c : Char} {text : Text} (h : c ∉ text) (rest : Text) :
    (many (· ≠ c)).run (text ++ c :: rest) = some (text, c :: rest) :=
  run_many_of_all (Text.forall_ne_iff.2 h) (decide_eq_false (not_not_intro rfl)) rest

theorem run_many1_ne {c : Char} {text : Text} (hne : text ≠ []) (h : c ∉ text) (rest : Text) :
    (many1 (· ≠ c)).run (text ++ c :: rest) = some (text, c :: rest) :=
  run_many1_of_all hne (Text.forall_ne_iff.2 h) (decide_eq_false (not_not_intro rfl)) rest

theorem run_many1_cons_eq_none {test : Char → Bool} {c : Char} (h : test c = false) (text : Text) :
    (many1 test).run (c :: text) = none := by
  simp [run_many1, h]

/-- Reads up to the end of a run of characters, whether or not something follows. -/
theorem run_many1_append {test : Char → Bool} {text rest : Text} (hne : text ≠ [])
    (h : ∀ c ∈ text, test c = true) (hrest : ∀ c, rest.head? = some c → test c = false) :
    (many1 test).run (text ++ rest) = some (text, rest) := by
  cases rest with
  | nil => rw [List.append_nil, run_many1, List.takeWhile_eq_self_iff.2 h,
      List.dropWhile_eq_nil_iff.2 h, if_neg hne]
  | cons c rest => exact run_many1_of_all hne h (hrest c rfl) rest

theorem run_many1_of_all_nil {test : Char → Bool} {text : Text} (hne : text ≠ [])
    (h : ∀ c ∈ text, test c = true) : (many1 test).run text = some (text, []) := by
  rw [run_many1, List.takeWhile_eq_self_iff.2 h, List.dropWhile_eq_nil_iff.2 h, if_neg hne]

/-- Reads up to the end of a run of characters, which may be empty, whether or not something
follows. -/
theorem run_many_append {test : Char → Bool} {text rest : Text} (h : ∀ c ∈ text, test c = true)
    (hrest : ∀ c ∈ rest.head?, test c = false) :
    (many test).run (text ++ rest) = some (text, rest) := by
  cases rest with
  | nil =>
    rw [List.append_nil, run_many, List.takeWhile_eq_self_iff.2 h, List.dropWhile_eq_nil_iff.2 h]
  | cons c rest => exact run_many_of_all h (hrest c rfl) rest

theorem run_char_eq_none {test : Char → Bool} {text : Text} (h : ∀ c ∈ text.head?, test c = false) :
    (char test).run text = none := by
  rw [Option.eq_none_iff_forall_ne_some]
  rintro ⟨c, behind⟩ hread
  obtain ⟨htest, rfl⟩ := run_char_eq_some_iff.1 hread
  exact Bool.noConfusion ((h c rfl).symm.trans htest)

theorem run_literal_eq_none {d : Char} {text : Text} (h : ∀ c ∈ text.head?, c ≠ d) :
    (literal [d]).run text = none := by
  rw [Option.eq_none_iff_forall_ne_some]
  rintro ⟨_, behind⟩ hread
  obtain rfl := run_literal_eq_some_iff.1 hread
  exact h d rfl rfl

/-- The nearest place where `stop` succeeds is the first one. -/
theorem run_shortest_append {test : Char → Bool} {stop : Reader β} {before after rest : Text}
    {value : β} (htest : ∀ c ∈ before, test c = true)
    (hearlier : ∀ first second, before = first ++ second → second ≠ [] →
      stop.run (second ++ after) = none)
    (hstop : stop.run after = some (value, rest)) :
    (shortest test stop).run (before ++ after) = some ((before, value), rest) := by
  rw [run_shortest]
  induction before with
  | nil => cases after <;> simp_all [shortestRun]
  | cons c before ih =>
    obtain ⟨hc, hbefore⟩ := List.forall_mem_cons.1 htest
    have hnone : stop.run (c :: (before ++ after)) = none :=
      hearlier [] (c :: before) rfl (List.cons_ne_nil _ _)
    have hrest := ih hbefore fun first second heq hne =>
      hearlier (c :: first) second (by rw [heq, List.cons_append]) hne
    rw [List.cons_append, shortestRun, hnone]
    simp [hc, hrest]

theorem isSome_run_shortest {test : Char → Bool} {stop : Reader α} {before after : Text}
    (htest : ∀ c ∈ before, test c = true) (hstop : (stop.run after).isSome) :
    ((shortest test stop).run (before ++ after)).isSome := by
  rw [run_shortest]
  induction before with
  | nil =>
    obtain ⟨⟨value, rest⟩, hrun⟩ := Option.isSome_iff_exists.1 hstop
    cases after <;> simp [shortestRun, hrun]
  | cons c before ih =>
    obtain ⟨hc, hbefore⟩ := List.forall_mem_cons.1 htest
    rw [List.cons_append, shortestRun]
    split
    · rfl
    · rw [if_pos hc, Option.isSome_map]
      exact ih hbefore

/-- A shortest stretch ends at the first place where its stop is read. -/
theorem shortestRun_nearest {test : Char → Bool} {stop : Text → Option (α × Text)}
    {before after rest : Text} {value : α}
    (h : shortestRun test stop (before ++ after) = some ((before, value), rest)) :
    ∀ first second, before = first ++ second → second ≠ [] → stop (second ++ after) = none := by
  induction before with
  | nil =>
    intro first second heq hne
    exact absurd (List.append_eq_nil_iff.1 heq.symm).2 hne
  | cons c before ih =>
    rw [List.cons_append, shortestRun] at h
    split at h
    · simp at h
    · next hnone =>
      rw [Option.ite_none_right_eq_some, Option.map_eq_some_iff] at h
      obtain ⟨-, ⟨⟨other, _⟩, _⟩, hrun, heq⟩ := h
      simp only [Prod.mk.injEq, List.cons.injEq, true_and] at heq
      obtain ⟨⟨rfl, rfl⟩, rfl⟩ := heq
      intro first second heq hne
      cases first with
      | nil =>
        rw [List.nil_append] at heq
        subst heq
        exact hnone
      | cons d first => exact ih hrun first second (List.cons.inj heq).2 hne

section

variable {σ : Type} {step : σ → Reader (α × σ)} (consumes : ∀ state, (step state).Consumes)
  {state next : σ} {text rest : Text} {value : α}

theorem unfoldRun_of_run_eq_some (h : (step state).run text = some ((value, next), rest)) :
    unfoldRun step consumes state text =
      (value :: (unfoldRun step consumes next rest).1, (unfoldRun step consumes next rest).2) := by
  rw [unfoldRun]
  split
  · next hrun =>
    obtain ⟨⟨rfl, rfl⟩, rfl⟩ : (_ ∧ _) ∧ _ := by simpa using hrun.symm.trans h
    rfl
  · next hrun => simp [hrun] at h

theorem unfoldRun_of_run_eq_none (h : (step state).run text = none) :
    unfoldRun step consumes state text = ([], text) := by
  rw [unfoldRun]
  split
  · next hrun => simp [hrun] at h
  · rfl

end

/-- In front of `stop` the reader reads as it does at the end of a text. -/
def StopsAt (reader : Reader α) (stop : Text) : Prop :=
  ∀ text, reader.run (text ++ stop) =
    (reader.run text).map fun (value, rest) => (value, rest ++ stop)

theorem stopsAt_pure (value : α) : (pure value : Reader α).StopsAt stop := fun _ => rfl

theorem stopsAt_fail : (fail : Reader α).StopsAt stop := fun _ => rfl

theorem stopsAt_guard (condition : Bool) : (guard condition).StopsAt stop := by
  intro text
  cases condition <;> rfl

theorem StopsAt.bind {reader : Reader α} {next : α → Reader β} (h : reader.StopsAt stop)
    (hnext : ∀ value, (next value).StopsAt stop) : (reader >>= next).StopsAt stop := by
  intro text
  rw [run_bind, run_bind, h text]
  cases hrun : reader.run text with
  | none => rfl
  | some found => exact hnext found.1 found.2

theorem StopsAt.orElse {first second : Reader α} (hfirst : first.StopsAt stop)
    (hsecond : second.StopsAt stop) : (first.orElse second).StopsAt stop := by
  intro text
  rw [run_orElse, run_orElse, hfirst text, hsecond text]
  cases first.run text <;> rfl

theorem stopsAt_oneOf {readers : List (Reader α)} (h : ∀ reader ∈ readers, reader.StopsAt stop) :
    (oneOf readers).StopsAt stop := by
  induction readers with
  | nil => exact stopsAt_fail
  | cons first others ih =>
    refine StopsAt.orElse (h first List.mem_cons_self) (ih ?_)
    intro reader hmem
    exact h reader (List.mem_cons_of_mem first hmem)

theorem StopsAt.optional {reader : Reader α} (h : reader.StopsAt stop) :
    (optional reader).StopsAt stop :=
  StopsAt.orElse (h.bind fun value => stopsAt_pure (some value)) (stopsAt_pure none)

theorem stopsAt_char {test : Char → Bool} {d : Char} (h : test d = false) :
    (char test).StopsAt (d :: stop) := by
  intro text
  cases text with
  | nil => simp [char, h]
  | cons c text => by_cases hc : test c <;> simp [char, hc]

theorem stopsAt_many {test : Char → Bool} {d : Char} (h : test d = false) :
    (many test).StopsAt (d :: stop) := by
  intro text
  rw [run_many, run_many, Text.takeWhile_append_stop h, Text.dropWhile_append_stop h]
  rfl

theorem stopsAt_many1 {test : Char → Bool} {d : Char} (h : test d = false) :
    (many1 test).StopsAt (d :: stop) :=
  (stopsAt_char h).bind fun _ => (stopsAt_many h).bind fun _ => stopsAt_pure _

theorem stopsAt_manyAtMost {test : Char → Bool} {d : Char} (h : test d = false) (limit : Nat) :
    (manyAtMost limit test).StopsAt (d :: stop) := by
  intro text
  simp only [manyAtMost, Text.takeWhile_append_stop h, Option.map_some, Option.some.injEq,
    Prod.mk.injEq, true_and]
  refine List.drop_append_of_le_length ?_
  exact Nat.le_trans (List.length_take_le' _ _) (List.takeWhile_prefix test).length_le

/-- A literal stops wherever it cannot go on. -/
theorem stopsAt_literal {expected : Text} {d : Char} (h : d ∉ expected) :
    (literal expected).StopsAt (d :: stop) := by
  intro text
  simp only [literal, Option.map_map, Function.comp_def]
  induction expected generalizing text with
  | nil => simp
  | cons c expected ih =>
    obtain ⟨hdc, hdexpected⟩ := not_or.1 (mt List.mem_cons.2 h)
    cases text with
    | nil => simp [Text.afterStart?, Ne.symm hdc]
    | cons e text =>
      by_cases hce : c = e
      · simpa [Text.afterStart?, hce] using
          ih hdexpected text
      · simp [Text.afterStart?, hce]

theorem StopsAt.isNone {reader : Reader α} (h : reader.StopsAt stop) (text : Text) :
    (reader.run (text ++ stop)).isNone = (reader.run text).isNone := by
  rw [h text, Option.isNone_map]

end Reader

namespace Pattern

variable {α ε : Type} {pattern : Pattern α} {stop : Text} (h : pattern.reader.StopsAt stop)
include h

/-- Where every hit stops at the seam, the two sides are searched separately. -/
theorem pieces_append_stop (text : Text) :
    pattern.pieces (text ++ stop) = pattern.pieces text ++ pattern.pieces stop := by
  induction text using pattern.searchInduction with
  | nil => simp
  | plain c text hrun ih =>
    have hrun' : pattern.reader.run (c :: (text ++ stop)) = none := by
      rw [← List.cons_append, h, hrun, Option.map_none]
    rw [List.cons_append, pieces_cons_of_run_eq_none hrun', ih, pieces_cons_of_run_eq_none hrun,
      List.cons_append]
  | hit text value rest hrun ih =>
    have hrun' : pattern.reader.run (text ++ stop) = some (value, rest ++ stop) := by
      rw [h, hrun, Option.map_some]
    rw [pieces_of_run_eq_some hrun', ih, pieces_of_run_eq_some hrun, List.cons_append]

theorem replace_append_stop (write : α → Text) (text : Text) :
    pattern.replace write (text ++ stop) = pattern.replace write text ++
      pattern.replace write stop := by
  rw [replace, pieces_append_stop h, List.flatMap_append, replace, replace]

theorem replaceM_append_stop (write : α → Except ε Text) (text : Text) :
    pattern.replaceM write (text ++ stop) = (do
      let first ← pattern.replaceM write text
      let others ← pattern.replaceM write stop
      pure (first ++ others) : Except ε Text) := by
  induction text using pattern.searchInduction with
  | nil =>
    rw [List.nil_append, replaceM_nil]
    cases pattern.replaceM write stop <;> rfl
  | plain c text hrun ih =>
    have hrun' : pattern.reader.run (c :: (text ++ stop)) = none := by
      rw [← List.cons_append, h, hrun, Option.map_none]
    rw [List.cons_append, replaceM_cons_of_run_eq_none write hrun', ih,
      replaceM_cons_of_run_eq_none write hrun]
    cases pattern.replaceM write text with
    | error fault => rfl
    | ok first => cases pattern.replaceM write stop <;> rfl
  | hit text value rest hrun ih =>
    have hrun' : pattern.reader.run (text ++ stop) = some (value, rest ++ stop) := by
      rw [h, hrun, Option.map_some]
    rw [replaceM_of_run_eq_some write hrun', ih, replaceM_of_run_eq_some write hrun]
    cases write value with
    | error fault => rfl
    | ok found =>
      cases pattern.replaceM write rest with
      | error fault => rfl
      | ok first =>
        cases pattern.replaceM write stop with
        | error fault => rfl
        | ok others => simp [bind, Except.bind, pure, Except.pure]

end Pattern

end LazyEmbed
