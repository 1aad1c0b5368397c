import LazyEmbed.Text.Basic

/-!
A reader takes a value off the front of a text and leaves the rest. What it leaves is always an
end of what it was given, and the type says so; a reader that never succeeds without taking at
least one character is said to consume. The shapes of markup that this library looks for are
readers: all of them can be read from left to right, because whatever follows a repeated part
cannot be confused with one more round of that part.
-/

namespace LazyEmbed

/-- Takes a value off the front of a text. -/
structure Reader (α : Type) where
  run : Text → Option (α × Text)
  suffix_of_run : ∀ {text value rest}, run text = some (value, rest) → rest <:+ text

namespace Reader

variable {α β : Type}

/-- Every success takes at least one character. -/
def Consumes (reader : Reader α) : Prop :=
  ∀ ⦃text value rest⦄, reader.run text = some (value, rest) → rest.length < text.length

theorem length_le_of_run {reader : Reader α} {text rest : Text} {value : α}
    (h : reader.run text = some (value, rest)) : rest.length ≤ text.length :=
  (reader.suffix_of_run h).length_le

protected def pure (value : α) : Reader α where
  run text := some (value, text)
  suffix_of_run h := by
    obtain ⟨-, rfl⟩ := Option.some.inj h
    exact List.suffix_rfl

protected def bind (reader : Reader α) (next : α → Reader β) : Reader β where
  run text := (reader.run text).bind fun (value, rest) => (next value).run rest
  suffix_of_run h := by
    obtain ⟨⟨value, rest⟩, hrun, hnext⟩ := Option.bind_eq_some_iff.1 h
    exact ((next value).suffix_of_run hnext).trans (reader.suffix_of_run hrun)

instance : Monad Reader where
  pure := Reader.pure
  bind := Reader.bind

@[simp]
theorem run_pure (value : α) (text : Text) :
    (pure value : Reader α).run text = some (value, text) := rfl

@[simp]
theorem run_bind (reader : Reader α) (next : α → Reader β) (text : Text) :
    (reader >>= next).run text =
      (reader.run text).bind fun (value, rest) => (next value).run rest := rfl

def fail : Reader α where
  run _ := none
  suffix_of_run h := by simp at h

@[simp]
theorem run_fail (text : Text) : (fail : Reader α).run text = none := rfl

def guard (condition : Bool) : Reader Unit := if condition then pure () else fail

@[simp]
theorem run_guard (condition : Bool) (text : Text) :
    (guard condition).run text = if condition then some ((), text) else none := by
  cases condition <;> rfl

def literal (expected : Text) : Reader Unit where
  run text := (Text.afterStart? expected text).map ((), ·)
  suffix_of_run h := by
    obtain ⟨rest, hrest, heq⟩ := Option.map_eq_some_iff.1 h
    obtain ⟨-, rfl⟩ := Prod.mk.inj heq
    exact ⟨expected, (Text.eq_append_of_afterStart? hrest).symm⟩

@[simp]
theorem run_literal_append (expected rest : Text) :
    (literal expected).run (expected ++ rest) = some ((), rest) := by
  simp [literal]

theorem run_literal_eq_some_iff {expected text rest : Text} {value : Unit} :
    (literal expected).run text = some (value, rest) ↔ text = expected ++ rest := by
  simp [literal, Text.afterStart?_eq_some_iff]

def char (test : Char → Bool) : Reader Char where
  run
    | [] => none
    | c :: rest => if test c then some (c, rest) else none
  suffix_of_run {text _ _} h := by
    cases text with
    | nil => simp at h
    | cons c text =>
      simp only [Option.ite_none_right_eq_some] at h
      obtain ⟨-, h⟩ := h
      obtain ⟨-, rfl⟩ := Prod.mk.inj (Option.some.inj h)
      exact List.suffix_cons _ _

theorem run_char_eq_some_iff {test : Char → Bool} {text rest : Text} {c : Char} :
    (char test).run text = some (c, rest) ↔ test c = true ∧ text = c :: rest := by
  cases text with
  | nil => simp [char]
  | cons d text =>
    simp only [char, Option.ite_none_right_eq_some, Option.some.injEq, Prod.mk.injEq,
      List.cons.injEq]
    constructor
    · rintro ⟨h, rfl, rfl⟩; exact ⟨h, rfl, rfl⟩
    · rintro ⟨h, rfl, rfl⟩; exact ⟨h, rfl, rfl⟩

def many (test : Char → Bool) : Reader Text where
  run text := some (text.takeWhile test, text.dropWhile test)
  suffix_of_run h := by
    obtain ⟨-, rfl⟩ := Prod.mk.inj (Option.some.inj h)
    exact List.dropWhile_suffix _

@[simp]
theorem run_many (test : Char → Bool) (text : Text) :
    (many test).run text = some (text.takeWhile test, text.dropWhile test) := rfl

def many1 (test : Char → Bool) : Reader Text := do
  let c ← char test
  let others ← many test
  pure (c :: others)

theorem run_many1 (test : Char → Bool) (text : Text) :
    (many1 test).run text =
      if text.takeWhile test = [] then none
      else some (text.takeWhile test, text.dropWhile test) := by
  cases text with
  | nil => simp [many1, char]
  | cons c text => by_cases h : test c <;> simp [many1, char, h]

def manyAtMost (limit : Nat) (test : Char → Bool) : Reader Text where
  run text :=
    let found := (text.takeWhile test).take limit
    some (found, text.drop found.length)
  suffix_of_run h := by
    obtain ⟨-, rfl⟩ := Prod.mk.inj (Option.some.inj h)
    exact List.drop_suffix _ _

def ahead (test : Text → Bool) : Reader Unit where
  run text := if test text then some ((), text) else none
  suffix_of_run h := by
    simp only [Option.ite_none_right_eq_some] at h
    obtain ⟨-, h⟩ := h
    obtain ⟨-, rfl⟩ := Prod.mk.inj (Option.some.inj h)
    exact List.suffix_rfl

@[simp]
theorem run_ahead (test : Text → Bool) (text : Text) :
    (ahead test).run text = if test text then some ((), text) else none := rfl

def orElse (first second : Reader α) : Reader α where
  run text := (first.run text).or (second.run text)
  suffix_of_run {text _ _} h := by
    cases hfirst : first.run text with
    | none => exact second.suffix_of_run (by simpa [hfirst] using h)
    | some found => exact first.suffix_of_run (hfirst.trans (by simpa [hfirst] using h))

@[simp]
theorem run_orElse (first second : Reader α) (text : Text) :
    (first.orElse second).run text = (first.run text).or (second.run text) := rfl

def optional (reader : Reader α) : Reader (Option α) :=
  (do let value ← reader; pure (some value)).orElse (pure none)

def oneOf : List (Reader α) → Reader α
  | [] => fail
  | first :: others => first.orElse (oneOf others)

/-- Looks for the nearest place where `stop` succeeds, over characters that satisfy the test;
gives the characters before that place and what `stop` reads there. -/
def shortestRun (test : Char → Bool) (stop : Text → Option (β × Text)) :
    Text → Option ((Text × β) × Text)
  | [] => (stop []).map fun (value, rest) => (([], value), rest)
  | c :: text =>
    match stop (c :: text) with
    | some (value, rest) => some (([], value), rest)
    | none =>
      if test c then
        (shortestRun test stop text).map fun ((before, value), rest) =>
          ((c :: before, value), rest)
      else none

theorem shortestRun_eq_some {test : Char → Bool} {stop : Text → Option (β × Text)}
    {text before rest : Text} {value : β}
    (h : shortestRun test stop text = some ((before, value), rest)) :
    ∃ after, text = before ++ after ∧ stop after = some (value, rest) ∧
      ∀ c ∈ before, test c = true := by
  induction text generalizing before with
  | nil =>
    obtain ⟨⟨found, left⟩, hstop, heq⟩ := Option.map_eq_some_iff.1 h
    simp only [Prod.mk.injEq] at heq
    obtain ⟨⟨rfl, rfl⟩, rfl⟩ := heq
    exact ⟨[], rfl, hstop, by simp⟩
  | cons c text ih =>
    simp only [shortestRun] at h
    cases hstop : stop (c :: text) with
    | some found =>
      simp only [hstop, Option.some.injEq, Prod.mk.injEq] at h
      obtain ⟨⟨rfl, rfl⟩, rfl⟩ := h
      exact ⟨c :: text, rfl, hstop, by simp⟩
    | none =>
      simp only [hstop, Option.ite_none_right_eq_some] at h
      obtain ⟨htest, h⟩ := h
      obtain ⟨⟨⟨b, v⟩, r⟩, hrun, heq⟩ := Option.map_eq_some_iff.1 h
      simp only [Prod.mk.injEq] at heq
      obtain ⟨⟨rfl, rfl⟩, rfl⟩ := heq
      obtain ⟨after, rfl, hafter, hall⟩ := ih hrun
      exact ⟨after, rfl, hafter, by simpa using ⟨htest, hall⟩⟩

/-- Reads characters that satisfy the test, as few as possible, up to and including what `stop`
reads. -/
def shortest (test : Char → Bool) (stop : Reader β) : Reader (Text × β) where
  run := shortestRun test stop.run
  suffix_of_run h := by
    obtain ⟨after, rfl, hstop, -⟩ := shortestRun_eq_some h
    exact (stop.suffix_of_run hstop).trans (List.suffix_append _ _)

theorem run_shortest (test : Char → Bool) (stop : Reader β) (text : Text) :
    (shortest test stop).run text = shortestRun test stop.run text := rfl

/-- Reads characters that satisfy the test, as few as possible, up to and including the given
text; gives what stands before it. -/
def upTo (test : Char → Bool) (stop : Text) : Reader Text := do
  let (before, _) ← shortest test (literal stop)
  pure before

def look (choose : Text → Reader α) : Reader α where
  run text := (choose text).run text
  suffix_of_run {text _ _} h := (choose text).suffix_of_run h

@[simp]
theorem run_look (choose : Text → Reader α) (text : Text) :
    (look choose).run text = (choose text).run text := rfl

/-- Reads with one reader after the other, as long as they succeed, where each is chosen by a state
that the one before it leaves. -/
def unfoldRun {σ : Type} (step : σ → Reader (α × σ)) (consumes : ∀ state, (step state).Consumes)
    (state : σ) (text : Text) : List α × Text :=
  match _h : (step state).run text with
  | some ((value, state), rest) =>
    let (values, left) := unfoldRun step consumes state rest
    (value :: values, left)
  | none => ([], text)
termination_by text.length
decreasing_by exact consumes _ _h

theorem suffix_of_unfoldRun {σ : Type} {step : σ → Reader (α × σ)}
    (consumes : ∀ state, (step state).Consumes) (state : σ) (text : Text) :
    (unfoldRun step consumes state text).2 <:+ text := by
  fun_induction unfoldRun step consumes state text with
  | case1 state text value next rest hrun values left hrest ih =>
    exact ((show left <:+ rest by simpa [hrest] using ih)).trans
      ((step state).suffix_of_run hrun)
  | case2 => exact List.suffix_rfl

def unfold {σ : Type} (step : σ → Reader (α × σ)) (consumes : ∀ state, (step state).Consumes)
    (state : σ) : Reader (List α) where
  run text := some (unfoldRun step consumes state text)
  suffix_of_run {text _ _} h := by
    have := suffix_of_unfoldRun consumes state text
    rw [Option.some.inj h] at this
    exact this

def whole? (reader : Reader α) (text : Text) : Option α :=
  match reader.run text with
  | some (value, []) => some value
  | _ => none

theorem whole?_eq_some_iff {reader : Reader α} {text : Text} {value : α} :
    reader.whole? text = some value ↔ reader.run text = some (value, []) := by
  unfold whole?
  split <;> simp_all

theorem Consumes.bind {reader : Reader α} (h : reader.Consumes) (next : α → Reader β) :
    (reader >>= next).Consumes := by
  intro text value rest hrun
  obtain ⟨⟨mid, left⟩, hfirst, hnext⟩ := Option.bind_eq_some_iff.1 hrun
  have hlt := h hfirst
  have hle := ((next mid).suffix_of_run hnext).length_le
  omega

theorem Consumes.bind_right (reader : Reader α) {next : α → Reader β}
    (h : ∀ value, (next value).Consumes) : (reader >>= next).Consumes := by
  intro text value rest hrun
  obtain ⟨⟨mid, left⟩, hfirst, hnext⟩ := Option.bind_eq_some_iff.1 hrun
  have hlt := h mid hnext
  have hle := (reader.suffix_of_run hfirst).length_le
  omega

theorem Consumes.orElse {first second : Reader α} (hfirst : first.Consumes)
    (hsecond : second.Consumes) : (first.orElse second).Consumes := by
  intro text value rest hrun
  cases h : first.run text with
  | none => exact hsecond (by simpa [h] using hrun)
  | some found => exact hfirst (h.trans (by simpa [h] using hrun))

theorem consumes_literal {expected : Text} (h : expected ≠ []) :
    (literal expected).Consumes := by
  intro text value rest hrun
  rw [run_literal_eq_some_iff.1 hrun]
  have := List.length_pos_iff.2 h
  simp only [List.length_append]
  omega

theorem consumes_char (test : Char → Bool) : (char test).Consumes := by
  intro text value rest hrun
  simp [(run_char_eq_some_iff.1 hrun).2]

theorem consumes_many1 (test : Char → Bool) : (many1 test).Consumes :=
  Consumes.bind (consumes_char test) _

end Reader

end LazyEmbed
