import LazyEmbed.Text.Decimal
import Mathlib.Data.List.Basic
import Mathlib.Data.List.Induction

/-!
# Numbers read and written in decimal

A number is read back from its digits, and digits without a leading zero are the digits of the
number that they are read as.
-/

namespace LazyEmbed.Text

variable {digits : Text} {c : Char}

structure IsPlainNumber (digits : Text) : Prop where
  ne_nil : digits ≠ []
  isDigit : ∀ c ∈ digits, c.isDigit = true
  head : digits.head? ≠ some '0' ∨ digits.length = 1

theorem decimalValue_decimal (n : Nat) : decimalValue (decimal n) = n :=
  Nat.ofDigitChars_toDigits (by decide) (by decide)

theorem decimal_ne_nil (n : Nat) : decimal n ≠ [] := Nat.toDigits_ne_nil

theorem isDigit_of_mem_decimal {n : Nat} (h : c ∈ decimal n) : c.isDigit = true :=
  Nat.isDigit_of_mem_toDigits (by decide) (by decide) h

theorem decimalValue_concat (digits : Text) (c : Char) :
    decimalValue (digits ++ [c]) = 10 * decimalValue digits + digitValue c := by
  rw [decimalValue, List.foldl_append]
  rfl

theorem digitValue_lt (h : c.isDigit = true) :
    digitValue c < 10 ∧ (digitValue c).digitChar = c := by
  have hrange : 48 ≤ c.toNat ∧ c.toNat ≤ 57 := Char.isDigit_iff_toNat.1 h
  have hvalue : digitValue c = c.toNat - 48 := rfl
  refine ⟨by omega, Char.toNat_inj.1 ?_⟩
  rw [Nat.toNat_digitChar_of_lt_ten (by omega)]
  omega

theorem decimal_digitValue (h : c.isDigit = true) : decimal (digitValue c) = [c] := by
  obtain ⟨hlt, hchar⟩ := digitValue_lt h
  rw [decimal, Nat.toDigits_of_lt_base hlt, hchar]

/-- One more digit behind a number that is not zero. -/
theorem decimal_concat {n : Nat} (hn : 0 < n) (h : c.isDigit = true) :
    decimal (10 * n + digitValue c) = decimal n ++ [c] := by
  rw [← decimal_digitValue h]
  exact (Nat.toDigits_append_toDigits (by decide) hn (digitValue_lt h).1).symm

/-- A plain number is written back from its value. -/
theorem IsPlainNumber.decimal_decimalValue (h : IsPlainNumber digits) :
    decimal (decimalValue digits) = digits := by
  induction digits using List.reverseRecOn with
  | nil => exact absurd rfl h.ne_nil
  | append_singleton digits c ih =>
    obtain ⟨hdigits, hc⟩ := List.forall_mem_append.1 h.isDigit
    have hcdigit : c.isDigit = true := hc c (List.mem_singleton_self c)
    rw [decimalValue_concat]
    by_cases hnil : digits = []
    · rw [hnil]
      exact (congrArg decimal (Nat.zero_add _)).trans (decimal_digitValue hcdigit)
    · have hhead : digits.head? ≠ some '0' := by
        obtain hhead | hlength := h.head
        · rwa [List.head?_append_of_ne_nil _ hnil] at hhead
        · rw [List.length_append, List.length_singleton, Nat.add_eq_right,
            List.length_eq_zero_iff] at hlength
          exact absurd hlength hnil
      have hvalue : decimal (decimalValue digits) = digits := ih ⟨hnil, hdigits, .inl hhead⟩
      have hpositive : 0 < decimalValue digits := by
        refine Nat.pos_of_ne_zero fun hzero => hhead ?_
        rw [← hvalue, hzero]
        rfl
      rw [decimal_concat hpositive hcdigit, hvalue]

theorem isPlainNumber_decimal (n : Nat) : IsPlainNumber (decimal n) where
  ne_nil := decimal_ne_nil n
  isDigit _ := isDigit_of_mem_decimal
  head := by
    induction n using Nat.strongRecOn with
    | ind n ih =>
      by_cases hlt : n < 10
      · rw [decimal, Nat.toDigits_of_lt_base hlt]
        exact .inr rfl
      · have hlast : decimal n = decimal (n / 10) ++ [(n % 10).digitChar] :=
          Nat.toDigits_of_base_le (by decide) (by omega)
        have hpositive : 0 < n / 10 := by omega
        left
        rw [hlast, List.head?_append_of_ne_nil _ (decimal_ne_nil _)]
        obtain hhead | hlength := ih (n / 10) (by omega)
        · exact hhead
        · obtain ⟨d, hd⟩ := List.length_eq_one_iff.1 hlength
          rintro hzero
          rw [hd] at hzero
          obtain rfl : d = '0' := Option.some.inj hzero
          have hvalue := decimalValue_decimal (n / 10)
          rw [hd] at hvalue
          exact absurd hvalue.symm (Nat.ne_of_gt hpositive)

/-- Digits are written so for a number just if they have no leading zero. -/
theorem isPlainNumber_iff : IsPlainNumber digits ↔ ∃ n, digits = decimal n := by
  constructor
  · exact fun h => ⟨decimalValue digits, h.decimal_decimalValue.symm⟩
  · rintro ⟨n, rfl⟩
    exact isPlainNumber_decimal n

end LazyEmbed.Text
