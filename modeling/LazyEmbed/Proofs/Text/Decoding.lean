import LazyEmbed.Proofs.Text.Octets
import LazyEmbed.Proofs.Text.Reading

/-!
# Octets that are a text

Octets are read as a text only if they are the octets of that text: no character has two spellings.
The first octet settles how many follow and how far the second may go, and the ranges are just those
in which the number needs that many octets and is a character.
-/

namespace LazyEmbed.Utf8

variable {octets rest : Octets} {first : UInt8} {text : Text} {bits low high following n : Nat}

theorem toNat_ofNat_of_valid (h : n < 0xD800 ∨ 0xDFFF < n ∧ n < 0x110000) :
    (Char.ofNat n).toNat = n := by
  have hvalid : n.isValidChar := h
  rw [Char.ofNat, dif_pos hvalid]
  rfl

theorem ofNat_toNat_add {least : Nat} (h : least ≤ first.toNat) :
    UInt8.ofNat (least + (first.toNat - least)) = first := by
  rw [Nat.add_sub_cancel' h, UInt8.ofNat_toNat]

/-- An octet that goes on with a character adds six bits to its number. -/
theorem exists_of_readFollowing_succ (hlow : 0x80 ≤ low) (hhigh : high ≤ 0xBF)
    (h : readFollowing (following + 1) low high bits octets = .ok (n, rest)) :
    ∃ six left, octets = .ofNat (0x80 + six) :: left ∧ six < 64 ∧ low ≤ 0x80 + six ∧
      0x80 + six ≤ high ∧
      readFollowing following 0x80 0xBF (bits * 64 + six) left = .ok (n, rest) := by
  cases octets with
  | nil => cases h
  | cons octet left =>
    rw [readFollowing] at h
    split at h
    · next hrange =>
      refine ⟨octet.toNat - 0x80, left, ?_, by omega, by omega, by omega, mapError_eq_ok_iff.1 h⟩
      rw [ofNat_toNat_add (by omega)]
    · cases h

theorem eq_of_readFollowing_zero (h : readFollowing 0 low high bits octets = .ok (n, rest)) :
    n = bits ∧ rest = octets := by
  obtain ⟨rfl, rfl⟩ := Prod.mk.inj (Except.ok.inj h)
  exact ⟨rfl, rfl⟩

/-! ## One character -/

theorem encodeChar_one (h : n < 0x80) : encodeChar (Char.ofNat n) = [.ofNat n] := by
  simp only [encodeChar, toNat_ofNat_of_valid (.inl (show n < 0xD800 by omega))]
  rw [if_pos h]

theorem encodeChar_two {one : Nat} (hleast : 2 ≤ bits) (hmost : bits < 0x20) (hone : one < 64) :
    encodeChar (Char.ofNat (bits * 64 + one)) = [.ofNat (0xC0 + bits), .ofNat (0x80 + one)] := by
  simp only [encodeChar, toNat_ofNat_of_valid (.inl (show bits * 64 + one < 0xD800 by omega))]
  rw [if_neg (by omega), if_pos (by omega)]
  have hbits : (bits * 64 + one) / 64 = bits := by omega
  have hlast : (bits * 64 + one) % 64 = one := by omega
  rw [hbits, hlast]

theorem encodeChar_three {one two : Nat} (hmost : bits < 0x10) (hone : one < 64) (htwo : two < 64)
    (hleast : bits = 0 → 0x20 ≤ one) (hsurrogate : bits = 0xD → one < 0x20) :
    encodeChar (Char.ofNat ((bits * 64 + one) * 64 + two)) =
      [.ofNat (0xE0 + bits), .ofNat (0x80 + one), .ofNat (0x80 + two)] := by
  simp only [encodeChar, toNat_ofNat_of_valid (show (bits * 64 + one) * 64 + two < 0xD800 ∨
    0xDFFF < (bits * 64 + one) * 64 + two ∧ (bits * 64 + one) * 64 + two < 0x110000 by omega)]
  rw [if_neg (by omega), if_neg (by omega), if_pos (by omega)]
  have hbits : ((bits * 64 + one) * 64 + two) / 4096 = bits := by omega
  have hmiddle : ((bits * 64 + one) * 64 + two) / 64 % 64 = one := by omega
  have hlast : ((bits * 64 + one) * 64 + two) % 64 = two := by omega
  rw [hbits, hmiddle, hlast]

theorem encodeChar_four {one two three : Nat} (hmost : bits < 5) (hone : one < 64) (htwo : two < 64)
    (hthree : three < 64) (hleast : bits = 0 → 0x10 ≤ one) (hgreatest : bits = 4 → one < 0x10) :
    encodeChar (Char.ofNat (((bits * 64 + one) * 64 + two) * 64 + three)) =
      [.ofNat (0xF0 + bits), .ofNat (0x80 + one), .ofNat (0x80 + two), .ofNat (0x80 + three)] := by
  simp only [encodeChar,
    toNat_ofNat_of_valid (show ((bits * 64 + one) * 64 + two) * 64 + three < 0xD800 ∨
    0xDFFF < ((bits * 64 + one) * 64 + two) * 64 + three ∧
      ((bits * 64 + one) * 64 + two) * 64 + three < 0x110000 by omega)]
  rw [if_neg (by omega), if_neg (by omega), if_neg (by omega)]
  have hbits : (((bits * 64 + one) * 64 + two) * 64 + three) / 262144 = bits := by omega
  have hsecond : (((bits * 64 + one) * 64 + two) * 64 + three) / 4096 % 64 = one := by omega
  have hthird : (((bits * 64 + one) * 64 + two) * 64 + three) / 64 % 64 = two := by omega
  have hlast : (((bits * 64 + one) * 64 + two) * 64 + three) % 64 = three := by omega
  rw [hbits, hsecond, hthird, hlast]

/-- A character begins with an octet of one of four kinds. -/
theorem start_cases {start : Start} (h : Start.of? first = some start) :
    (∃ bits, bits < 0x80 ∧ first = .ofNat bits) ∨
    (∃ bits, 2 ≤ bits ∧ bits < 0x20 ∧ first = .ofNat (0xC0 + bits)) ∨
    (∃ bits, bits < 0x10 ∧ first = .ofNat (0xE0 + bits)) ∨
    ∃ bits, bits < 5 ∧ first = .ofNat (0xF0 + bits) := by
  unfold Start.of? at h
  simp only at h
  split at h
  · next hone => exact .inl ⟨first.toNat, hone, UInt8.ofNat_toNat.symm⟩
  split at h
  · cases h
  split at h
  · exact .inr (.inl ⟨first.toNat - 0xC0, by omega, by omega, (ofNat_toNat_add (by omega)).symm⟩)
  split at h
  · exact .inr (.inr (.inl ⟨first.toNat - 0xE0, by omega, (ofNat_toNat_add (by omega)).symm⟩))
  split at h
  · exact .inr (.inr (.inr ⟨first.toNat - 0xF0, by omega, (ofNat_toNat_add (by omega)).symm⟩))
  · cases h

/-- What was read as a character are its octets. -/
theorem eq_encodeChar_append {start : Start} (hstart : Start.of? first = some start)
    (h : readFollowing start.following start.low start.high start.bits octets = .ok (n, rest)) :
    first :: octets = encodeChar (Char.ofNat n) ++ rest := by
  obtain ⟨bits, hmost, rfl⟩ | ⟨bits, hleast, hmost, rfl⟩ | ⟨bits, hmost, rfl⟩ | ⟨bits, hmost,
      rfl⟩ := start_cases hstart
  · obtain rfl := Option.some.inj (hstart.symm.trans (start_one hmost))
    obtain ⟨rfl, rfl⟩ := eq_of_readFollowing_zero h
    rw [encodeChar_one hmost, List.singleton_append]
  · obtain rfl := Option.some.inj (hstart.symm.trans (start_two hleast hmost))
    obtain ⟨one, left, rfl, hone, -, -, hend⟩ := exists_of_readFollowing_succ (by simp) (by simp) h
    obtain ⟨rfl, rfl⟩ := eq_of_readFollowing_zero hend
    rw [encodeChar_two hleast hmost hone]
    rfl
  · obtain rfl := Option.some.inj (hstart.symm.trans (start_three hmost))
    simp only at h
    obtain ⟨one, left, rfl, hone, hlow, hhigh, hnext⟩ :=
      exists_of_readFollowing_succ (by split <;> omega) (by split <;> omega) h
    obtain ⟨two, left, rfl, htwo, -, -, hend⟩ :=
      exists_of_readFollowing_succ (by simp) (by simp) hnext
    obtain ⟨rfl, rfl⟩ := eq_of_readFollowing_zero hend
    rw [encodeChar_three hmost hone htwo (by grind) (by grind)]
    rfl
  · obtain rfl := Option.some.inj (hstart.symm.trans (start_four hmost))
    simp only at h
    obtain ⟨one, left, rfl, hone, hlow, hhigh, hnext⟩ :=
      exists_of_readFollowing_succ (by split <;> omega) (by split <;> omega) h
    obtain ⟨two, left, rfl, htwo, -, -, hlater⟩ :=
      exists_of_readFollowing_succ (by simp) (by simp) hnext
    obtain ⟨three, left, rfl, hthree, -, -, hend⟩ :=
      exists_of_readFollowing_succ (by simp) (by simp) hlater
    obtain ⟨rfl, rfl⟩ := eq_of_readFollowing_zero hend
    rw [encodeChar_four hmost hone htwo hthree (by grind) (by grind)]
    rfl

/-! ## All characters -/

/-- Only the encoding of a text decodes to it. -/
theorem eq_encode_of_decodeFrom {position : Nat} (h : decodeFrom position octets = .ok text) :
    octets = encode text := by
  induction position, octets using decodeFrom.induct generalizing text with
  | case1 position =>
    rw [decodeFrom] at h
    obtain rfl := Except.ok.inj h
    rfl
  | case2 position first octets hstart =>
    rw [decodeFrom, hstart] at h
    cases h
  | case3 position first octets start hstart flaw read hread =>
    rw [decodeFrom] at h
    simp only [hstart] at h
    split at h
    · cases h
    · next hfound => cases hread.symm.trans hfound
  | case4 position first octets start hstart n rest hread ih =>
    rw [decodeFrom_cons hstart hread, map_eq_ok_iff] at h
    obtain ⟨left, hleft, rfl⟩ := h
    rw [eq_encodeChar_append hstart hread, ih hleft, encode, encode, List.flatMap_cons]

/-- Octets are read as a text just if they are its octets. -/
theorem decode_eq_ok_iff : decode octets = .ok text ↔ octets = encode text := by
  constructor
  · exact eq_encode_of_decodeFrom
  · rintro rfl
    exact decode_encode text

theorem encode_injective : Function.Injective encode := by
  intro first second h
  have hsame : decode (encode first) = .ok second := decode_eq_ok_iff.2 h
  exact Except.ok.inj ((decode_encode first).symm.trans hsame)

theorem exists_malformed (h : ∀ text, octets ≠ encode text) :
    ∃ found, decode octets = .error found := by
  cases hdecode : decode octets with
  | error found => exact ⟨found, rfl⟩
  | ok text => exact absurd (decode_eq_ok_iff.1 hdecode) (h text)

end LazyEmbed.Utf8
