import LazyEmbed.Proofs.Text.Reading

/-!
# Characters that a text does not have

A reader makes its value of characters that it takes off the text, so a character that the text does
not have is in no value. The property goes from the parts of a reader to the whole, and from what is
read at each hit to what a search writes.
-/

namespace LazyEmbed

variable {α β ε : Type} {d : Char}

/-- What is found is good, or the fault is one of those allowed. -/
def Lands (good : α → Prop) (allowed : ε → Prop) : Except ε α → Prop
  | .ok value => good value
  | .error fault => allowed fault

section

variable {good : α → Prop} {best : β → Prop} {allowed : ε → Prop} {found : Except ε α}

theorem Lands.bind {next : α → Except ε β} (h : Lands good allowed found)
    (hnext : ∀ value, good value → Lands best allowed (next value)) :
    Lands best allowed (found >>= next) := by
  cases found with
  | error fault => exact h
  | ok value => exact hnext value h

theorem Lands.map {change : α → β} (h : Lands good allowed found)
    (hchange : ∀ value, good value → best (change value)) :
    Lands best allowed (found.map change) := by
  cases found with
  | error fault => exact h
  | ok value => exact hchange value h

theorem Lands.mapError {ε' : Type} {change : ε → ε'} {allowed' : ε' → Prop}
    (h : Lands good allowed found) (hchange : ∀ fault, allowed fault → allowed' (change fault)) :
    Lands good allowed' (found.mapError change) := by
  cases found with
  | error fault => exact hchange fault h
  | ok value => exact h

end

namespace Reader

variable {reader : Reader α} {good : α → Prop} {best : β → Prop}

/-- Of a text without `d`, only values of the kind are read. -/
def Yields (d : Char) (good : α → Prop) (reader : Reader α) : Prop :=
  ∀ ⦃text value rest⦄, d ∉ text → reader.run text = some (value, rest) → good value

theorem not_mem_rest {text rest : Text} {value : α} (htext : d ∉ text)
    (hrun : reader.run text = some (value, rest)) : d ∉ rest := fun hmem =>
  htext ((reader.suffix_of_run hrun).subset hmem)

theorem yields_any (reader : Reader α) : reader.Yields d fun _ => True := fun _ _ _ _ _ => trivial

theorem yields_pure {value : α} (h : good value) : (pure value : Reader α).Yields d good := by
  intro text found rest _ hrun
  obtain ⟨rfl, -⟩ := Prod.mk.inj (Option.some.inj hrun)
  exact h

theorem Yields.bind {next : α → Reader β} (h : reader.Yields d good)
    (hnext : ∀ value, good value → (next value).Yields d best) :
    (reader >>= next).Yields d best := by
  intro text value rest htext hrun
  obtain ⟨mid, left, hfirst, hrest⟩ := run_bind_eq_some_iff.1 hrun
  exact hnext mid (h htext hfirst) (not_mem_rest htext hfirst) hrest

/-- What the first reader reads does not matter. -/
theorem Yields.after {next : α → Reader β} (h : ∀ value, (next value).Yields d best) :
    (reader >>= next).Yields d best :=
  (yields_any reader).bind fun value _ => h value

theorem Yields.orElse {second : Reader α} (h : reader.Yields d good)
    (hsecond : second.Yields d good) : (reader.orElse second).Yields d good := by
  intro text value rest htext hrun
  rw [run_orElse, Option.or_eq_some_iff] at hrun
  obtain hfirst | ⟨-, hother⟩ := hrun
  · exact h htext hfirst
  · exact hsecond htext hother

theorem Yields.optional (h : reader.Yields d good) :
    (Reader.optional reader).Yields d fun found => ∀ value, found = some value → good value := by
  refine Yields.orElse (h.bind fun value hvalue => yields_pure ?_) (yields_pure ?_)
  · rintro _ ⟨⟩
    exact hvalue
  · rintro _ ⟨⟩

theorem yields_many (test : Char → Bool) : (many test).Yields d (d ∉ ·) := by
  intro text value rest htext hrun
  obtain ⟨rfl, -⟩ := eq_append_of_run_many hrun
  exact fun hmem => htext (List.mem_append_left _ hmem)

theorem yields_many1 (test : Char → Bool) : (many1 test).Yields d (d ∉ ·) := by
  intro text value rest htext hrun
  obtain ⟨rfl, -⟩ := eq_append_of_run_many1 hrun
  exact fun hmem => htext (List.mem_append_left _ hmem)

theorem yields_manyAtMost (limit : Nat) (test : Char → Bool) :
    (manyAtMost limit test).Yields d (d ∉ ·) := by
  intro text value rest htext hrun
  obtain ⟨rfl, -⟩ := eq_append_of_run_manyAtMost hrun
  exact fun hmem => htext (List.mem_append_left _ hmem)

theorem yields_shortest (test : Char → Bool) (stop : Reader β) :
    (shortest test stop).Yields d fun found => d ∉ found.1 := by
  rintro text ⟨before, value⟩ rest htext hrun
  obtain ⟨after, rfl, -⟩ := shortestRun_eq_some hrun
  exact fun hmem => htext (List.mem_append_left _ hmem)

theorem yields_upTo (test : Char → Bool) (stop : Text) : (upTo test stop).Yields d (d ∉ ·) :=
  (yields_shortest test (literal stop)).bind fun _ hfound => yields_pure hfound

end Reader

namespace Pattern

variable {pattern : Pattern α} {text : Text}

theorem forall_hits_of_yields {good : α → Prop} (h : pattern.reader.Yields d good)
    (htext : d ∉ text) : ∀ value ∈ pattern.hits text, good value := by
  induction text using pattern.searchInduction with
  | nil => simp
  | plain c text hrun ih =>
    rw [hits_cons_of_run_eq_none hrun]
    exact ih fun hmem => htext (List.mem_cons_of_mem c hmem)
  | hit text value rest hrun ih =>
    rw [hits_of_run_eq_some hrun]
    exact List.forall_mem_cons.2 ⟨h htext hrun, ih (Reader.not_mem_rest htext hrun)⟩

theorem yields_after {start : Text} {next : Reader α} {hne : start ≠ []} {good : α → Prop}
    (h : next.Yields d good) : (after start next hne).reader.Yields d good :=
  Reader.Yields.after fun _ => h

/-- Writing that lands at every hit lands as a whole. -/
theorem lands_replaceM {allowed : ε → Prop} {write : α → Except ε Text} (htext : d ∉ text)
    (hwrite : ∀ value ∈ pattern.hits text, Lands (d ∉ ·) allowed (write value)) :
    Lands (d ∉ ·) allowed (pattern.replaceM write text) := by
  induction text using pattern.searchInduction with
  | nil =>
    rw [replaceM_nil]
    exact List.not_mem_nil
  | plain c text hrun ih =>
    obtain ⟨hc, hrest⟩ := not_or.1 (mt List.mem_cons.2 htext)
    rw [hits_cons_of_run_eq_none hrun] at hwrite
    rw [replaceM_cons_of_run_eq_none write hrun]
    exact (ih hrest hwrite).map fun others hothers => by simp [hc, hothers]
  | hit text value rest hrun ih =>
    rw [hits_of_run_eq_some hrun] at hwrite
    obtain ⟨hvalue, hothers⟩ := List.forall_mem_cons.1 hwrite
    rw [replaceM_of_run_eq_some write hrun]
    refine hvalue.bind fun first hfirst => (ih (Reader.not_mem_rest htext hrun) hothers).bind
      fun others hothers => ?_
    exact fun hmem => (List.mem_append.1 hmem).elim hfirst hothers

theorem not_mem_replace {write : α → Text} (htext : d ∉ text)
    (hwrite : ∀ value ∈ pattern.hits text, d ∉ write value) : d ∉ pattern.replace write text := by
  have hlands :
      Lands (d ∉ ·) (fun _ : Empty => False)
        (pattern.replaceM (fun value => .ok (write value)) text) :=
    lands_replaceM htext hwrite
  rwa [replaceM_ok] at hlands

/-- Writing with characters of what is read and others that are no `d`. -/
theorem not_mem_replace_of_yields {good : α → Prop} {write : α → Text}
    (h : pattern.reader.Yields d good) (hwrite : ∀ value, good value → d ∉ write value)
    (htext : d ∉ text) : d ∉ pattern.replace write text :=
  not_mem_replace htext fun value hvalue =>
    hwrite value (forall_hits_of_yields h htext value hvalue)

theorem lands_replaceM_of_yields {good : α → Prop} {allowed : ε → Prop} {write : α → Except ε Text}
    (h : pattern.reader.Yields d good)
    (hwrite : ∀ value, good value → Lands (d ∉ ·) allowed (write value)) (htext : d ∉ text) :
    Lands (d ∉ ·) allowed (pattern.replaceM write text) :=
  lands_replaceM htext fun value hvalue => hwrite value (forall_hits_of_yields h htext value hvalue)

theorem not_mem_remove (htext : d ∉ text) : d ∉ pattern.remove text :=
  not_mem_replace htext fun _ _ => List.not_mem_nil

end Pattern

end LazyEmbed
