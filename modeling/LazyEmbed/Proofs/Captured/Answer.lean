import LazyEmbed.Captured.Identifier
import LazyEmbed.Proofs.Captured.Address
import LazyEmbed.Proofs.Captured.Duration
import LazyEmbed.Proofs.Captured.Host

/-!
# When captured values are answered

An identifier, a host or an address is always answered, and a number or a duration is unless it has
a run of digits that is too long to be read. What is no number and no duration may have runs of any
length (`exists_answer_iff`).
-/

namespace LazyEmbed.Captured

variable {value host : Text} {configured : Option Text}

theorem identifier?_self {id : Text} (h : identifier? value = some id) :
    id = value ∧ identifier? id = some id := by
  obtain rfl : value = id := Option.some.inj (Option.ite_none_right_eq_some.1 h).2
  exact ⟨rfl, h⟩

theorem configuredHost?_self (h : configuredHost? value configured = some host) :
    configuredHost? host configured = some host := by
  unfold configuredHost? at h ⊢
  split at h <;> exact allowedHost?_self h

theorem isNumber_decimal (n : Nat) : IsNumber (Text.decimal n) n := by
  have hnumber : IsNumber ([] ++ ([] ++ (Text.decimal n ++ []))) n :=
    .mk n (by decide) (.inl rfl) (by decide)
  rwa [List.nil_append, List.nil_append, List.append_nil] at hnumber

/-- The plain digits of a number that was read are read as that number. -/
theorem natural?_decimal {n : Nat} (h : natural? value = .ok (some n)) :
    natural? (Text.decimal n) = .ok (some n) := by
  obtain ⟨hnumber, hshort⟩ := (answers_natural? value).eq_some_iff.1 h
  refine (answers_natural? _).eq_some_iff.2 ⟨isNumber_decimal n, fun hlong => hshort ?_⟩
  obtain ⟨run, hinside, hrun, hlong⟩ := hlong
  exact ⟨run, hinside.trans hnumber.isInfix_decimal, hrun, hlong⟩

/-- A captured value is answered by each of the filters, with a value that is its own answer or with
nothing, but for a number or a duration with a run of digits that is too long: that is refused, and
is the only thing that is. -/
theorem exists_answer_iff (value allowed : Text) (configured : Option Text) :
    ((∃ answer, natural? value = .ok answer) ↔ ¬((∃ n, IsNumber value n) ∧ HasLongRun value)) ∧
    ((∃ answer, seconds? value = .ok answer) ↔ ¬((∃ n, IsTime value n) ∧ HasLongRun value)) ∧
    (∀ n, natural? value = .ok (some n) → IsNumber value n ∧
      natural? (Text.decimal n) = .ok (some n)) ∧
    (natural? value = .ok none ↔ ∀ n, ¬IsNumber value n) ∧
    (∀ n, seconds? value = .ok (some n) → IsTime value n) ∧
    (seconds? value = .ok none ↔ ∀ n, ¬IsTime value n) ∧
    (∀ id, identifier? value = some id → id = value ∧ identifier? id = some id) ∧
    (∀ host, allowedHost? value allowed = some host → allowedHost? host allowed = some host) ∧
    (∀ host, configuredHost? value configured = some host →
      configuredHost? host configured = some host) ∧
    Address.encode (Address.encode value) = Address.encode value := by
  have hnatural := answers_natural? value
  have hseconds := answers_seconds? value
  exact ⟨hnatural.exists_eq_ok_iff, hseconds.exists_eq_ok_iff,
    fun n hread => ⟨(hnatural.eq_some_iff.1 hread).1, natural?_decimal hread⟩, hnatural.eq_none_iff,
    fun n hread => (hseconds.eq_some_iff.1 hread).1, hseconds.eq_none_iff,
    fun id => identifier?_self, fun host => allowedHost?_self, fun host => configuredHost?_self,
    (Address.isEncoded_encode value).encode_eq⟩

theorem exists_answer_minute : seconds? "1m" = .ok (some 60) ∧ IsTime "1m" 60 ∧
    identifier? "1m" = some "1m" ∧ (∃ answer, natural? "1m" = .ok answer) := by
  have hread : seconds? "1m" = .ok (some 60) := by decide +kernel
  have hidentifier : identifier? "1m" = some "1m" := by decide
  obtain ⟨hnatural, -, -, -, hseconds, -, hself, -⟩ := exists_answer_iff "1m" [] none
  refine ⟨hread, hseconds 60 hread, (hself "1m" hidentifier).2, hnatural.2 fun hlong => ?_⟩
  obtain ⟨run, hinside, -, hrun⟩ := hlong.2
  exact absurd (Nat.lt_of_lt_of_le hrun hinside.length_le) (by decide)

/-- Many digits are a number, which is refused, and so is a duration that has them before one of its
letters. -/
theorem not_answered_manyOnes : (¬∃ answer, natural? (List.replicate 4301 '1') = .ok answer) ∧
    ¬∃ answer, seconds? (List.replicate 4301 '1' ++ ['h']) = .ok answer := by
  have hdigits : ∀ c ∈ List.replicate 4301 '1', c.isDigit = true := by
    intro c hc
    rw [(List.mem_replicate.1 hc).2]
    rfl
  have hne : List.replicate 4301 '1' ≠ [] := List.cons_ne_nil _ _
  have hlong : Text.maxDigits < (List.replicate 4301 '1').length := by
    rw [List.length_replicate]
    decide
  constructor
  · have hplain : Text.IsPlainNumber (List.replicate 4301 '1') :=
      ⟨hne, hdigits, .inl (by rw [List.head?_replicate]; decide)⟩
    obtain ⟨n, hn⟩ := Text.isPlainNumber_iff.1 hplain
    rw [(answers_natural? _).exists_eq_ok_iff, not_not]
    exact ⟨⟨n, hn ▸ isNumber_decimal n⟩, _, List.infix_rfl, hdigits, hlong⟩
  · have hpart : IsPart 'h' (List.replicate 4301 '1' ++ ['h']) _ := .present ⟨hne, hdigits⟩
    have hduration := IsDuration.mk hpart .missing .missing (List.cons_ne_nil _ _)
    rw [List.append_nil, List.append_nil] at hduration
    rw [(answers_seconds? _).exists_eq_ok_iff, not_not]
    exact ⟨⟨_, .inl hduration⟩, _, (List.prefix_append _ _).isInfix, hdigits, hlong⟩

end LazyEmbed.Captured
