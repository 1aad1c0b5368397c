import LazyEmbed.Text.Base64
import Mathlib.Logic.Basic

/-!
# Octets are read back

A text is written as octets character by character, and octets are written as letters three by
three. What was written is read again: as a character, whatever octets follow, and as a group,
whatever letters follow.
-/

namespace LazyEmbed.Utf8

theorem toNat_lt (c : Char) : c.toNat < 0x110000 ∧ (c.toNat < 0xD800 ∨ 0xDFFF < c.toNat) := by
  have hvalid := c.valid
  simp only [UInt32.isValidChar, Nat.isValidChar] at hvalid
  change c.toNat < 0xD800 ∨ 0xDFFF < c.toNat ∧ c.toNat < 0x110000 at hvalid
  omega

/-- One sequence is decoded, and decoding goes on behind it. -/
theorem decodeFrom_cons {position bits following low high n : Nat} {first : UInt8}
    {octets rest : Octets} (hstart : Start.of? first = some ⟨bits, following, low, high⟩)
    (hrest : readFollowing following low high bits octets = .ok (n, rest)) :
    decodeFrom position (first :: octets) =
      (decodeFrom (position + 1 + following) rest).map (Char.ofNat n :: ·) := by
  rw [decodeFrom]
  simp only [hstart]
  split
  · next heq => simp [hrest] at heq
  · next heq =>
    obtain ⟨rfl, rfl⟩ := Prod.mk.inj (Except.ok.inj (hrest.symm.trans heq))
    rfl

/-- An octet that goes on with a character is read as six more bits. -/
theorem readFollowing_octet {following low high bits six : Nat} {octets : Octets} (hsix : six < 64)
    (hlow : low ≤ 0x80 + six) (hhigh : 0x80 + six ≤ high) {found : Nat × Octets}
    (h : readFollowing following 0x80 0xBF (bits * 64 + six) octets = .ok found) :
    readFollowing (following + 1) low high bits (.ofNat (0x80 + six) :: octets) = .ok found := by
  have hoctet : (UInt8.ofNat (0x80 + six)).toNat = 0x80 + six := by
    rw [UInt8.toNat_ofNat']
    omega
  rw [readFollowing, hoctet, if_pos ⟨hlow, hhigh⟩, Nat.add_sub_cancel_left, h]
  rfl

/-! ### First octets -/

theorem toNat_octet {n : Nat} (h : n < 256) : (UInt8.ofNat n).toNat = n := by
  rw [UInt8.toNat_ofNat']
  omega

theorem start_one {bits : Nat} (h : bits < 0x80) :
    Start.of? (.ofNat bits) = some ⟨bits, 0, 0x80, 0xBF⟩ := by
  simp only [Start.of?, toNat_octet (show bits < 256 by omega)]
  rw [if_pos h]

theorem start_two {bits : Nat} (hlow : 2 ≤ bits) (hhigh : bits < 0x20) :
    Start.of? (.ofNat (0xC0 + bits)) = some ⟨bits, 1, 0x80, 0xBF⟩ := by
  simp only [Start.of?, toNat_octet (show 0xC0 + bits < 256 by omega), Nat.add_sub_cancel_left]
  rw [if_neg (by omega), if_neg (by omega), if_pos (by omega)]

theorem start_three {bits : Nat} (h : bits < 0x10) :
    Start.of? (.ofNat (0xE0 + bits)) =
      some ⟨bits, 2, if bits = 0 then 0xA0 else 0x80, if bits = 0xD then 0x9F else 0xBF⟩ := by
  have hlow : (0xE0 + bits = 0xE0) = (bits = 0) := propext (by omega)
  have hhigh : (0xE0 + bits = 0xED) = (bits = 0xD) := propext (by omega)
  simp only [Start.of?, toNat_octet (show 0xE0 + bits < 256 by omega),
    Nat.add_sub_cancel_left, hlow, hhigh]
  rw [if_neg (by omega), if_neg (by omega), if_neg (by omega), if_pos (by omega)]

theorem start_four {bits : Nat} (h : bits < 5) :
    Start.of? (.ofNat (0xF0 + bits)) =
      some ⟨bits, 3, if bits = 0 then 0x90 else 0x80, if bits = 4 then 0x8F else 0xBF⟩ := by
  have hlow : (0xF0 + bits = 0xF0) = (bits = 0) := propext (by omega)
  have hhigh : (0xF0 + bits = 0xF4) = (bits = 4) := propext (by omega)
  simp only [Start.of?, toNat_octet (show 0xF0 + bits < 256 by omega),
    Nat.add_sub_cancel_left, hlow, hhigh]
  rw [if_neg (by omega), if_neg (by omega), if_neg (by omega), if_neg (by omega), if_pos (by omega)]

/-- A character is read as soon as its octets are. -/
theorem decodeFrom_encodeChar (position : Nat) (c : Char) (rest : Octets) :
    ∃ next, decodeFrom position (encodeChar c ++ rest) = (decodeFrom next rest).map (c :: ·) := by
  obtain ⟨hlt, hvalid⟩ := toNat_lt c
  suffices h : ∃ next, decodeFrom position (encodeChar c ++ rest) =
      (decodeFrom next rest).map (Char.ofNat c.toNat :: ·) by
    rwa [Char.ofNat_toNat] at h
  unfold encodeChar
  generalize c.toNat = n at hlt hvalid
  simp only
  split
  · next hone => exact ⟨_, decodeFrom_cons (start_one hone) rfl⟩
  split
  · next hone htwo =>
    refine ⟨_, decodeFrom_cons (start_two (by omega) (by omega)) ?_⟩
    refine readFollowing_octet (by omega) (by omega) (by omega) ?_
    rw [Nat.div_add_mod' n 64]
    rfl
  split
  · next hone htwo hthree =>
    refine ⟨_, decodeFrom_cons (start_three (by omega)) ?_⟩
    refine readFollowing_octet (by omega) (by split <;> omega) (by split <;> omega) ?_
    refine readFollowing_octet (by omega) (by omega) (by omega) ?_
    rw [show (n / 4096 * 64 + n / 64 % 64) * 64 + n % 64 = n by omega]
    rfl
  · next hone htwo hthree =>
    refine ⟨_, decodeFrom_cons (start_four (by omega)) ?_⟩
    refine readFollowing_octet (by omega) (by split <;> omega) (by split <;> omega) ?_
    refine readFollowing_octet (by omega) (by omega) (by omega) ?_
    refine readFollowing_octet (by omega) (by omega) (by omega) ?_
    rw [show ((n / 262144 * 64 + n / 4096 % 64) * 64 + n / 64 % 64) * 64 + n % 64 = n by omega]
    rfl

/-- Texts come back from their octets. -/
theorem decode_encode (text : Text) : decode (encode text) = .ok text := by
  suffices h : ∀ position, decodeFrom position (encode text) = .ok text from h 0
  induction text with
  | nil => exact fun _ => by rw [encode, List.flatMap_nil, decodeFrom]
  | cons c text ih =>
    intro position
    obtain ⟨next, hnext⟩ := decodeFrom_encodeChar position c (encode text)
    rw [encode, List.flatMap_cons, ← encode, hnext, ih]
    rfl

theorem encode_ne_nil {text : Text} (h : text ≠ []) : encode text ≠ [] := by
  obtain ⟨c, text, rfl⟩ := List.exists_cons_of_ne_nil h
  rw [encode, List.flatMap_cons, Ne, List.append_eq_nil_iff, not_and_or]
  refine .inl ?_
  unfold encodeChar
  simp only
  split
  · exact List.cons_ne_nil _ _
  split
  · exact List.cons_ne_nil _ _
  split
  · exact List.cons_ne_nil _ _
  · exact List.cons_ne_nil _ _

end LazyEmbed.Utf8

namespace LazyEmbed.Base64

theorem letter_ne : ∀ n < 64, letter n ≠ '=' := by decide

theorem decodeFrom_letter {group : List Nat} {n : Nat} (h : n < 64) (hgroup : group.length < 3)
    (padding : Nat) (text : Text) :
    decodeFrom group padding (letter n :: text) = decodeFrom (group ++ [n]) 0 text := by
  rw [decodeFrom, if_neg (letter_ne n h)]
  simp only [letterValue?_letter n h, if_pos hgroup]

theorem decodeFrom_last {a b c n : Nat} (h : n < 64) (padding : Nat) (text : Text) :
    decodeFrom [a, b, c] padding (letter n :: text) =
      (decodeFrom [] 0 text).map (groupOctets [a, b, c, n] ++ ·) := by
  rw [decodeFrom, if_neg (letter_ne n h)]
  simp only [letterValue?_letter n h]
  rfl

theorem octet_eq (octet : UInt8) {n : Nat} (h : n = octet.toNat) : UInt8.ofNat n = octet := by
  rw [h, UInt8.ofNat_toNat]

/-- Octets come back from their letters. -/
theorem decode_encode (octets : Octets) : decode (encode octets) = some octets := by
  unfold decode
  induction octets using encode.induct with
  | case1 => rfl
  | case2 a =>
    have ha := a.toNat_lt
    rw [encode, decodeFrom_letter (by omega) (by simp), decodeFrom_letter (by omega) (by simp)]
    refine congrArg (fun octet => some [octet]) (octet_eq a ?_)
    omega
  | case3 a b =>
    have ha := a.toNat_lt
    have hb := b.toNat_lt
    rw [encode, decodeFrom_letter (by omega) (by simp), decodeFrom_letter (by omega) (by simp),
      decodeFrom_letter (by omega) (by simp)]
    have hfirst :=
      octet_eq a (n := a.toNat / 4 * 4 + (a.toNat % 4 * 16 + b.toNat / 16) / 16) (by omega)
    have hsecond := octet_eq b (n := (a.toNat % 4 * 16 + b.toNat / 16) % 16 * 16 +
      b.toNat % 16 * 4 / 4) (by omega)
    refine Eq.trans ?_
      (congrArg some (congrArg₂ (fun first second => [first, second]) hfirst hsecond))
    rfl
  | case4 a b c rest ih =>
    have ha := a.toNat_lt
    have hb := b.toNat_lt
    have hc := c.toNat_lt
    rw [encode, decodeFrom_letter (by omega) (by simp), decodeFrom_letter (by omega) (by simp),
      decodeFrom_letter (by omega) (by simp)]
    simp only [List.nil_append, List.cons_append]
    rw [decodeFrom_last (by omega), ih]
    have hfirst :=
      octet_eq a (n := a.toNat / 4 * 4 + (a.toNat % 4 * 16 + b.toNat / 16) / 16) (by omega)
    have hsecond := octet_eq b (n := (a.toNat % 4 * 16 + b.toNat / 16) % 16 * 16 +
      (b.toNat % 16 * 4 + c.toNat / 64) / 4) (by omega)
    have hthird := octet_eq c (n := (b.toNat % 16 * 4 + c.toNat / 64) % 4 * 64 + c.toNat % 64)
      (by omega)
    simp only [groupOctets, hfirst, hsecond, hthird]
    rfl

/-- What holds of every letter of the alphabet and of the padding holds of all that is written. -/
theorem forall_mem_encode {holds : Char → Prop} (hpadding : holds '=')
    (hletter : ∀ n < 64, holds (letter n)) (octets : Octets) : ∀ c ∈ encode octets, holds c := by
  induction octets using encode.induct with
  | case1 => simp [encode]
  | case2 a =>
    have ha := a.toNat_lt
    simp only [encode, List.forall_mem_cons]
    exact ⟨hletter _ (by omega), hletter _ (by omega), hpadding, hpadding, by simp⟩
  | case3 a b =>
    have ha := a.toNat_lt
    have hb := b.toNat_lt
    simp only [encode, List.forall_mem_cons]
    exact ⟨hletter _ (by omega), hletter _ (by omega), hletter _ (by omega), hpadding, by simp⟩
  | case4 a b c rest ih =>
    have ha := a.toNat_lt
    have hb := b.toNat_lt
    have hc := c.toNat_lt
    simp only [encode, List.forall_mem_cons]
    exact ⟨hletter _ (by omega), hletter _ (by omega), hletter _ (by omega),
      hletter _ (by omega), ih⟩

theorem encode_ne_nil {octets : Octets} (h : octets ≠ []) : encode octets ≠ [] := by
  induction octets using encode.induct with
  | case1 => exact absurd rfl h
  | case2 | case3 | case4 => simp [encode]

end LazyEmbed.Base64
