import LazyEmbed.Json.Quoted
import LazyEmbed.Proofs.Html.Reference
import LazyEmbed.Proofs.Json.StringList

/-!
# What is written for a string

Whatever the text, its escaped characters lead the machine from inside a string to inside the same
string. Besides the character itself only backslashes, letters and digits are written for it.
-/

namespace LazyEmbed.Json

open StringList

theorem toNat_lt (c : Char) : c.toNat < 0x110000 := by
  have hvalid := c.valid
  simp only [UInt32.isValidChar, Nat.isValidChar] at hvalid
  change c.val.toNat < 0x110000
  omega

theorem hexDigits_escapeUnit {unit : Nat} (h : unit < 0x10000) :
    [Text.hexDigit (unit / 4096), Text.hexDigit (unit / 256 % 16), Text.hexDigit (unit / 16 % 16),
      Text.hexDigit (unit % 16)].all Text.isHexDigit = true := by
  have h1 := Text.isHexDigit_hexDigit (unit / 4096) (by omega)
  have h2 := Text.isHexDigit_hexDigit (unit / 256 % 16) (by omega)
  have h3 := Text.isHexDigit_hexDigit (unit / 16 % 16) (by omega)
  have h4 := Text.isHexDigit_hexDigit (unit % 16) (by omega)
  simp only [List.all_cons, h1, h2, h3, h4, List.all_nil, Bool.and_self]

theorem scan_escapeUnit {unit : Nat} (h : unit < 0x10000) (text : Text) :
    scan .inString (escapeUnit unit ++ text) = scan .inString text :=
  scan_numericEscape (hexDigits_escapeUnit h) text

theorem escaped?_of_escapeLetter? {c letter : Char} (h : escapeLetter? c = some letter) :
    letter ≠ 'u' ∧ ∃ d, escaped? letter = some d := by
  unfold escapeLetter? at h
  split at h
  case h_8 => simp at h
  all_goals
    obtain rfl := Option.some.inj h
    exact ⟨by decide, _, rfl⟩

theorem letter_of_escapeLetter? {c letter : Char} (h : escapeLetter? c = some letter) :
    letter = c ∨ letter.isAlphanum = true := by
  unfold escapeLetter? at h
  split at h
  case h_8 => simp at h
  case h_1 | h_2 => exact .inl (Option.some.inj h).symm
  all_goals
    obtain rfl := Option.some.inj h
    exact .inr rfl

theorem ne_of_escapeLetter?_eq_none {c : Char} (h : escapeLetter? c = none) :
    c ≠ '"' ∧ c ≠ '\\' := by
  constructor <;> (rintro rfl; simp [escapeLetter?] at h)

/-- A quoted character does not lead out of the string it stands in. -/
theorem scan_quoteChar (c : Char) (text : Text) :
    scan .inString (quoteChar c ++ text) = scan .inString text := by
  have hc := toNat_lt c
  unfold quoteChar
  split
  · next letter hletter =>
    obtain ⟨hunit, d, hescaped⟩ := escaped?_of_escapeLetter? hletter
    exact scan_shortEscape hunit hescaped text
  · next hletter =>
    split
    · next hprintable =>
      obtain ⟨hquote, hbackslash⟩ := ne_of_escapeLetter?_eq_none hletter
      exact scan_plain hquote hbackslash (by omega) text
    · unfold escapeUnits
      simp only
      split
      · exact scan_escapeUnit (by omega) text
      · rw [List.append_assoc, scan_escapeUnit (by omega), scan_escapeUnit (by omega)]

theorem scan_flatMap_quoteChar (text rest : Text) :
    scan .inString (text.flatMap quoteChar ++ rest) = scan .inString rest := by
  induction text with
  | nil => rfl
  | cons c text ih => rw [List.flatMap_cons, List.append_assoc, scan_quoteChar, ih]

theorem scan_quote_append (text rest : Text) :
    scan .inString (text.flatMap quoteChar ++ '"' :: rest) =
      (scan .behindString rest).map fun (last, count) => (last, count + 1) := by
  rw [scan_flatMap_quoteChar, scan_quote]

/-! ### The characters that are written -/

theorem mem_escapeUnit {unit : Nat} (h : unit < 0x10000) {d : Char} (hd : d ∈ escapeUnit unit) :
    d = '\\' ∨ d.isAlphanum = true := by
  simp only [escapeUnit, List.mem_cons, List.not_mem_nil, or_false] at hd
  have hdigits := List.all_eq_true.1 (hexDigits_escapeUnit h)
  rcases hd with rfl | rfl | hd
  · exact .inl rfl
  · exact .inr rfl
  · exact .inr (Html.isAlphanum_of_isHexDigit (hdigits d (by simpa using hd)))

theorem mem_quoteChar {c d : Char} (h : d ∈ quoteChar c) :
    d = c ∨ d = '\\' ∨ d.isAlphanum = true := by
  have hc := toNat_lt c
  unfold quoteChar at h
  split at h
  · next letter hletter =>
    simp only [List.mem_cons, List.not_mem_nil, or_false] at h
    rcases h with rfl | rfl
    · exact .inr (.inl rfl)
    · obtain hsame | halphanum := letter_of_escapeLetter? hletter
      · exact .inl hsame
      · exact .inr (.inr halphanum)
  · split at h
    · exact .inl (List.mem_singleton.1 h)
    · unfold escapeUnits at h
      simp only at h
      split at h
      · exact .inr (mem_escapeUnit (by omega) h)
      · rcases List.mem_append.1 h with h | h
        · exact .inr (mem_escapeUnit (by omega) h)
        · exact .inr (mem_escapeUnit (by omega) h)

/-- A character is written as it is, or as an escape. -/
theorem head_quoteChar (c : Char) :
    (quoteChar c).head? = some c ∨ (quoteChar c).head? = some '\\' := by
  unfold quoteChar escapeUnits
  split
  · exact .inr rfl
  · split
    · exact .inl rfl
    · simp only
      split
      · exact .inr rfl
      · exact .inr rfl

end LazyEmbed.Json
