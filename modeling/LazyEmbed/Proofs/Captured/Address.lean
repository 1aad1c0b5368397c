import LazyEmbed.Captured.Address
import LazyEmbed.Proofs.Html.Reference
import Mathlib.Data.List.Basic

/-!
# Addresses made safe

An address is read from left to right: a percent sign with two digits behind it is an escape, and
all else is read one character after the other. `IsEncoded` is the form of an address that is safe,
and `denoted` are the octets that an address stands for, safe or not. Making an address safe gives
one of that form, and changes nothing in one that has it (`encode_projects`); in either case it
stands for the same octets (`denoted_encode`).

A digit of an escape is safe itself, so no percent sign begins an escape only after what stands
behind it was written.
-/

namespace LazyEmbed.Captured.Address

variable {text rest : Text} {c high low : Char}

def safeChars : Text :=
  "!#$&*+,-./0123456789:;=?@ABCDEFGHIJKLMNOPQRSTUVWXYZ_abcdefghijklmnopqrstuvwxyz~"

def digits : Text := "0123456789ABCDEFabcdef"

/-- Safe characters and escapes, one after the other. -/
inductive IsEncoded : Text → Prop
  | nil : IsEncoded []
  | safe {c : Char} {text : Text} (hc : c ∈ safeChars) (htext : IsEncoded text) :
      IsEncoded (c :: text)
  | escape {high low : Char} {text : Text} (hhigh : high ∈ digits) (hlow : low ∈ digits)
      (htext : IsEncoded text) : IsEncoded ('%' :: high :: low :: text)

/-- The octets that an address stands for: those of its escapes, and those of all characters outside
them. -/
def denoted : Text → Octets
  | [] => []
  | '%' :: high :: low :: text =>
    if high ∈ digits ∧ low ∈ digits then .ofNat (Text.hexValue [high, low]) :: denoted text
    else Utf8.encodeChar '%' ++ denoted (high :: low :: text)
  | c :: text => Utf8.encodeChar c ++ denoted text

/-! ## Safe characters and digits -/

/-- A test that no character beyond ASCII passes is a list of characters, if they are the ASCII
characters that pass it. -/
theorem iff_mem_of_ascii {test : Char → Bool} {chars : Text}
    (htest : ∀ c, test c = true → c.toNat < 128)
    (h : chars.map Char.toNat = (List.range 128).filter fun n => test (Char.ofNat n)) (c : Char) :
    test c = true ↔ c ∈ chars := by
  have hinjective : Function.Injective Char.toNat := fun _ _ => Char.toNat_inj.1
  rw [← List.mem_map_of_injective hinjective, h, List.mem_filter, List.mem_range, Char.ofNat_toNat]
  exact ⟨fun htrue => ⟨htest c htrue, htrue⟩, fun hmem => hmem.2⟩

theorem toNat_lt_of_isAlphanum (h : c.isAlphanum = true) : c.toNat < 128 := by
  rw [Html.isAlphanum_iff] at h
  omega

theorem isSafe_iff : isSafe c = true ↔ c ∈ safeChars := by
  have hchars : safeChars.map Char.toNat = (List.range 128).filter fun n =>
      isSafe (Char.ofNat n) := by
    unfold safeChars isSafe
    rw [String.toList_ofList, String.toList_ofList]
    decide +kernel
  refine iff_mem_of_ascii (fun c hsafe => ?_) hchars c
  rw [isSafe, Bool.or_eq_true] at hsafe
  obtain halphanum | hother := hsafe
  · exact toNat_lt_of_isAlphanum halphanum
  · have hascii : ∀ c ∈ "!#$&*+,-./:;=?@_~".toList, c.toNat < 128 := by decide
    exact hascii c (List.contains_iff_mem.1 hother)

theorem isHexDigit_iff : Text.isHexDigit c = true ↔ c ∈ digits :=
  iff_mem_of_ascii (fun _ hdigit => toNat_lt_of_isAlphanum (Html.isAlphanum_of_isHexDigit hdigit))
    (by decide +kernel) c

theorem safe_of_digit (h : c ∈ digits) : c ∈ safeChars := by
  have halphanum : c.isAlphanum = true := Html.isAlphanum_of_isHexDigit (isHexDigit_iff.2 h)
  rw [← isSafe_iff, isSafe, halphanum, Bool.true_or]

theorem ne_percent (h : c ∈ safeChars) : c ≠ '%' := by
  rintro rfl
  exact absurd (isSafe_iff.2 h) (by decide)

theorem beginsWithDigits_iff : beginsWithDigits text = true ↔
    ∃ high low rest, text = high :: low :: rest ∧ high ∈ digits ∧ low ∈ digits := by
  unfold beginsWithDigits
  split
  · next high low rest =>
    simp only [Bool.and_eq_true, isHexDigit_iff]
    constructor
    · exact fun hdigits => ⟨high, low, rest, rfl, hdigits⟩
    · rintro ⟨_, _, _, ⟨⟩, hdigits⟩
      exact hdigits
  · next hshort =>
    simp only [Bool.false_eq_true, false_iff, not_exists, not_and]
    rintro high low rest rfl
    exact absurd rfl (hshort high low rest)

/-! ## Reading -/

def Begins (c : Char) (text : Text) : Prop := c = '%' ∧ beginsWithDigits text = true

theorem not_begins (h : c ∈ safeChars) : ¬Begins c text := fun hbegins => ne_percent h hbegins.1

/-- What holds of a text if it holds of the text behind its first escape or its first character
holds of all texts. -/
theorem readInduction {motive : Text → Prop} (nil : motive [])
    (escape : ∀ high low rest, high ∈ digits → low ∈ digits → motive rest →
      motive ('%' :: high :: low :: rest))
    (char : ∀ c rest, ¬Begins c rest → motive rest → motive (c :: rest)) (text : Text) :
    motive text := by
  induction hlength : text.length using Nat.strong_induction_on generalizing text with
  | _ length ih =>
    subst hlength
    cases text with
    | nil => exact nil
    | cons c text =>
      by_cases hbegins : Begins c text
      · obtain ⟨rfl, hdigits⟩ := hbegins
        obtain ⟨high, low, rest, rfl, hhigh, hlow⟩ := beginsWithDigits_iff.1 hdigits
        refine escape high low rest hhigh hlow (ih rest.length ?_ rest rfl)
        simp only [List.length_cons]
        omega
      · exact char c text hbegins (ih text.length (Nat.lt_succ_self _) text rfl)

theorem encode_safe (h : c ∈ safeChars) (rest : Text) : encode (c :: rest) = c :: encode rest := by
  rw [encode, if_pos (by simp [isSafe_iff.2 h])]

theorem encode_escape (hhigh : high ∈ digits) (hlow : low ∈ digits) (rest : Text) :
    encode ('%' :: high :: low :: rest) = '%' :: high :: low :: encode rest := by
  have hbegins : beginsWithDigits (high :: low :: rest) = true :=
    beginsWithDigits_iff.2 ⟨high, low, rest, rfl, hhigh, hlow⟩
  rw [encode, if_pos (by simp [hbegins]), encode_safe (safe_of_digit hhigh),
    encode_safe (safe_of_digit hlow)]

theorem encode_other (h : c ∉ safeChars) (hbegins : ¬Begins c rest) :
    encode (c :: rest) = escapeChar c ++ encode rest := by
  have hsafe : isSafe c = false := Bool.eq_false_iff.2 (mt isSafe_iff.1 h)
  rw [encode, if_neg]
  simpa [hsafe, Begins] using hbegins

/-! ## The form of what is written -/

/-- An escape is a percent sign and two digits that spell its octet. -/
theorem digits_escape (octet : UInt8) :
    ∃ high low, high ∈ digits ∧ low ∈ digits ∧ escape octet = ['%', high, low] ∧
    Text.hexValue [high, low] = octet.toNat := by
  have hlt := octet.toNat_lt
  have hhigh : octet.toNat / 16 < 16 := by omega
  have hlow : octet.toNat % 16 < 16 := by omega
  refine ⟨_, _, isHexDigit_iff.1 (Text.isHexDigit_upperHexDigit _ hhigh),
    isHexDigit_iff.1 (Text.isHexDigit_upperHexDigit _ hlow), rfl, ?_⟩
  simp only [Text.hexValue, List.foldl_cons, List.foldl_nil,
    Text.hexDigitValue_upperHexDigit _ hhigh, Text.hexDigitValue_upperHexDigit _ hlow]
  omega

theorem IsEncoded.append_escapes (h : IsEncoded rest) (octets : Octets) :
    IsEncoded (octets.flatMap Address.escape ++ rest) := by
  induction octets with
  | nil => exact h
  | cons octet octets ih =>
    obtain ⟨high, low, hhigh, hlow, hescape, -⟩ := digits_escape octet
    rw [List.flatMap_cons, List.append_assoc, hescape]
    exact .escape hhigh hlow ih

/-- What `encode` writes has the encoded form. -/
theorem isEncoded_encode (text : Text) : IsEncoded (encode text) := by
  induction text using readInduction with
  | nil => exact .nil
  | escape high low rest hhigh hlow ih =>
    rw [encode_escape hhigh hlow]
    exact .escape hhigh hlow ih
  | char c rest hbegins ih =>
    by_cases hc : c ∈ safeChars
    · rw [encode_safe hc]
      exact .safe hc ih
    · rw [encode_other hc hbegins]
      exact ih.append_escapes _

theorem IsEncoded.encode_eq (h : IsEncoded text) : encode text = text := by
  induction h with
  | nil => rfl
  | safe hc _ ih => rw [encode_safe hc, ih]
  | escape hhigh hlow _ ih => rw [encode_escape hhigh hlow, ih]

/-- What is made safe has the form of safe addresses, whatever it was; the addresses of that form,
and no others, stay as they are. So to make an address safe again changes nothing. -/
theorem encode_projects (text : Text) :
    IsEncoded (encode text) ∧ (encode text = text ↔ IsEncoded text) ∧
      encode (encode text) = encode text := by
  refine ⟨isEncoded_encode text, ⟨fun hsame => ?_, IsEncoded.encode_eq⟩,
    (isEncoded_encode text).encode_eq⟩
  rw [← hsame]
  exact isEncoded_encode text

example : encode "%%41é" = ("%25%41%C3%A9" : Text) := by decide

/-! ## What it stands for -/

theorem denoted_escape (hhigh : high ∈ digits) (hlow : low ∈ digits) (rest : Text) :
    denoted ('%' :: high :: low :: rest) = .ofNat (Text.hexValue [high, low]) :: denoted rest := by
  rw [denoted, if_pos ⟨hhigh, hlow⟩]

theorem denoted_cons (h : ¬Begins c rest) :
    denoted (c :: rest) = Utf8.encodeChar c ++ denoted rest := by
  by_cases hlong : c = '%' ∧ ∃ high low left, rest = high :: low :: left
  · obtain ⟨rfl, high, low, left, rfl⟩ := hlong
    rw [denoted, if_neg fun hdigits => h ⟨rfl, beginsWithDigits_iff.2 ⟨high, low, left,
      rfl, hdigits⟩⟩]
  · rw [denoted]
    rintro high low left rfl rfl
    exact hlong ⟨rfl, high, low, left, rfl⟩

/-- Escapes denote the octets they were made of, whatever stands behind them. -/
theorem denoted_append_escapes (octets : Octets) (rest : Text) :
    denoted (octets.flatMap escape ++ rest) = octets ++ denoted rest := by
  induction octets with
  | nil => rfl
  | cons octet octets ih =>
    obtain ⟨high, low, hhigh, hlow, hescape, hvalue⟩ := digits_escape octet
    rw [List.flatMap_cons, List.append_assoc, hescape]
    calc denoted ('%' :: high :: low :: (octets.flatMap escape ++ rest))
        = .ofNat (Text.hexValue [high, low]) :: denoted (octets.flatMap escape ++ rest) :=
          denoted_escape hhigh hlow _
      _ = octet :: (octets ++ denoted rest) := by rw [hvalue, UInt8.ofNat_toNat, ih]

/-- To make an address safe does not change what it stands for. -/
theorem denoted_encode (text : Text) : denoted (encode text) = denoted text := by
  induction text using readInduction with
  | nil => rfl
  | escape high low rest hhigh hlow ih =>
    rw [encode_escape hhigh hlow, denoted_escape hhigh hlow, denoted_escape hhigh hlow, ih]
  | char c rest hbegins ih =>
    rw [denoted_cons hbegins, ← ih]
    by_cases hc : c ∈ safeChars
    · rw [encode_safe hc, denoted_cons (not_begins hc)]
    · rw [encode_other hc hbegins, escapeChar, denoted_append_escapes]

end LazyEmbed.Captured.Address
