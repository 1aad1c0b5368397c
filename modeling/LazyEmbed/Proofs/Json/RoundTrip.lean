import LazyEmbed.Proofs.Json.Quoting

/-!
# Lists of strings are read back

Whatever the texts, what is written for them is read as an array of just these texts. A character
beyond the sixteen-bit range is written as two units, and no other character is written as a unit
that could pair with a neighbour; so the units are joined to the characters that they came from.
-/

namespace LazyEmbed.Json

open StringList

/-! ### Characters -/

def partsOf (c : Char) : List StringPart :=
  if (escapeLetter? c).isSome ∨ 0x20 ≤ c.toNat ∧ c.toNat ≤ 0x7E then [.char c]
  else if c.toNat < 0x10000 then [.unit c.toNat]
  else [.unit (0xD800 + (c.toNat - 0x10000) / 0x400), .unit (0xDC00 + (c.toNat - 0x10000) % 0x400)]

/-- No character is a unit of a pair. -/
theorem not_isUnit (c : Char) : isHighUnit c.toNat = false ∧ isLowUnit c.toNat = false := by
  have hvalid := c.valid
  simp only [UInt32.isValidChar, Nat.isValidChar] at hvalid
  change c.toNat < 0xD800 ∨ 0xDFFF < c.toNat ∧ c.toNat < 0x110000 at hvalid
  simp only [isHighUnit, isLowUnit, Bool.and_eq_false_iff, decide_eq_false_iff_not]
  omega

theorem joinParts_unit (c : Char) (parts : List StringPart) :
    joinParts (.unit c.toNat :: parts) = c :: joinParts parts := by
  obtain ⟨hhigh, hlow⟩ := not_isUnit c
  have hchar : Char.ofNat c.toNat = c := Char.ofNat_toNat c
  cases parts with
  | nil => simp [joinParts, hhigh, hlow, hchar]
  | cons part parts =>
    cases part with
    | char d => simp [joinParts, hhigh, hlow, hchar]
    | unit n => simp [joinParts, hhigh, hlow, hchar]

/-- The two halves of a character beyond the first plane join to that character. -/
theorem joinParts_pair {c : Char} (h : 0x10000 ≤ c.toNat) (parts : List StringPart) :
    joinParts (.unit (0xD800 + (c.toNat - 0x10000) / 0x400) ::
      .unit (0xDC00 + (c.toNat - 0x10000) % 0x400) :: parts) = c :: joinParts parts := by
  have hlt := toNat_lt c
  have hhigh : isHighUnit (0xD800 + (c.toNat - 0x10000) / 0x400) = true := by
    simp only [isHighUnit, Bool.and_eq_true, decide_eq_true_eq]
    omega
  have hlow : isLowUnit (0xDC00 + (c.toNat - 0x10000) % 0x400) = true := by
    simp only [isLowUnit, Bool.and_eq_true, decide_eq_true_eq]
    omega
  have hsum : 0x10000 + (0xD800 + (c.toNat - 0x10000) / 0x400 - 0xD800) * 0x400 +
      (0xDC00 + (c.toNat - 0x10000) % 0x400 - 0xDC00) = c.toNat := by omega
  rw [joinParts, hhigh, hlow, hsum, Char.ofNat_toNat]
  rfl

theorem joinParts_partsOf (c : Char) (parts : List StringPart) :
    joinParts (partsOf c ++ parts) = c :: joinParts parts := by
  unfold partsOf
  split
  · simp [joinParts]
  · split
    · exact joinParts_unit c parts
    · exact joinParts_pair (by omega) parts

theorem joinParts_flatMap (text : Text) : joinParts (text.flatMap partsOf) = text := by
  induction text with
  | nil => rfl
  | cons c text ih => rw [List.flatMap_cons, joinParts_partsOf, ih]

/-! ### Strings -/

theorem hexValue_escapeUnit {unit : Nat} (h : unit < 0x10000) :
    Text.hexValue [Text.hexDigit (unit / 4096), Text.hexDigit (unit / 256 % 16),
      Text.hexDigit (unit / 16 % 16), Text.hexDigit (unit % 16)] = unit := by
  have h1 := Text.hexDigitValue_hexDigit (unit / 4096) (by omega)
  have h2 := Text.hexDigitValue_hexDigit (unit / 256 % 16) (by omega)
  have h3 := Text.hexDigitValue_hexDigit (unit / 16 % 16) (by omega)
  have h4 := Text.hexDigitValue_hexDigit (unit % 16) (by omega)
  simp only [Text.hexValue, List.foldl_cons, List.foldl_nil, h1, h2, h3, h4]
  omega

def prepend (parts : List StringPart) (found : Except Flaw (List StringPart × Text)) :
    Except Flaw (List StringPart × Text) :=
  found.map fun (others, left) => (parts ++ others, left)

theorem readParts_escapeUnit {unit : Nat} (h : unit < 0x10000) {rest : Text} (hrest : rest ≠ []) :
    readParts (escapeUnit unit ++ rest) = prepend [.unit unit] (readParts rest) := by
  obtain ⟨next, rest, rfl⟩ := List.exists_cons_of_ne_nil hrest
  rw [escapeUnit, List.cons_append, List.cons_append, List.cons_append, List.cons_append,
    List.cons_append, List.cons_append, List.nil_append, readParts, if_pos (hexDigits_escapeUnit h),
    hexValue_escapeUnit h]
  rfl

theorem readParts_letter {c letter : Char} (h : escapeLetter? c = some letter) (rest : Text) :
    readParts ('\\' :: letter :: rest) = prepend [.char c] (readParts rest) := by
  unfold escapeLetter? at h
  split at h
  case h_8 => simp at h
  all_goals
    obtain rfl := Option.some.inj h
    rfl

theorem readParts_plain {c : Char} (hquote : c ≠ '"') (hescape : c ≠ '\\')
    (hcontrol : ¬c.toNat < 0x20) (rest : Text) :
    readParts (c :: rest) = prepend [.char c] (readParts rest) := by
  rw [readParts.eq_def]
  split
  · next heq => simp at heq
  · next heq => exact absurd (List.cons.inj heq).1 hquote
  · next heq => exact absurd (List.cons.inj heq).1 hescape
  · next heq => exact absurd (List.cons.inj heq).1 hescape
  · next heq => exact absurd (List.cons.inj heq).1 hescape
  · next heq => exact absurd (List.cons.inj heq).1 hescape
  · next heq =>
    obtain ⟨rfl, rfl⟩ := List.cons.inj heq
    rw [if_neg hcontrol]
    rfl

/-- Quoting a character and reading it back gives its parts. -/
theorem readParts_quoteChar (c : Char) {rest : Text} (hrest : rest ≠ []) :
    readParts (quoteChar c ++ rest) = prepend (partsOf c) (readParts rest) := by
  have hlt := toNat_lt c
  unfold quoteChar
  split
  · next letter hletter =>
    have hparts : partsOf c = [.char c] := by simp [partsOf, hletter]
    rw [hparts]
    exact readParts_letter hletter rest
  · next hletter =>
    obtain ⟨hquote, hbackslash⟩ := ne_of_escapeLetter?_eq_none hletter
    split
    · next hprintable =>
      have hparts : partsOf c = [.char c] := by simp [partsOf, hprintable]
      rw [hparts]
      exact readParts_plain hquote hbackslash (by omega) rest
    · next hprintable =>
      have hnone : ¬((escapeLetter? c).isSome ∨ 0x20 ≤ c.toNat ∧ c.toNat ≤ 0x7E) := by
        simpa [hletter] using hprintable
      unfold partsOf escapeUnits
      rw [if_neg hnone]
      simp only
      split
      · next hsmall => exact readParts_escapeUnit hsmall hrest
      · next hlarge =>
        rw [List.append_assoc, readParts_escapeUnit (by omega) (by simp [escapeUnit]),
          readParts_escapeUnit (by omega) hrest]
        cases readParts rest <;> rfl

theorem readParts_flatMap (text rest : Text) :
    readParts (text.flatMap quoteChar ++ '"' :: rest) = .ok (text.flatMap partsOf, rest) := by
  induction text with
  | nil => rfl
  | cons c text ih =>
    rw [List.flatMap_cons, List.append_assoc, readParts_quoteChar c (by simp), ih]
    rfl

/-! ### Lists -/

def others (texts : List Text) : Text := texts.flatMap fun text => ',' :: quote text

theorem quote_append (text rest : Text) :
    quote text ++ rest = '"' :: (text.flatMap quoteChar ++ '"' :: rest) := by
  simp [quote]

theorem readItems_quoted (fuel room : Nat) (text : Text) (texts : List Text) (rest : Text)
    (hfuel : texts.length ≤ fuel) :
    readItems (fuel + 2) room (quote text ++ (others texts ++ ']' :: rest)) =
      .ok ((text :: texts).map .string, rest) := by
  induction texts generalizing fuel text with
  | nil =>
    rw [quote_append, readItems_quote (readParts_flatMap text _), joinParts_flatMap]
    rfl
  | cons second texts ih =>
    obtain ⟨fuel, rfl⟩ : ∃ n, fuel = n + 1 :=
      ⟨fuel - 1, by rw [List.length_cons] at hfuel; omega⟩
    have hskip : skipBlanks (others (second :: texts) ++ ']' :: rest) =
        ',' :: (quote second ++ (others texts ++ ']' :: rest)) := by
      rw [others, List.flatMap_cons, List.cons_append, List.cons_append,
        skipBlanks_cons (by decide), List.append_assoc]
      rfl
    have hquote : skipBlanks (quote second ++ (others texts ++ ']' :: rest)) =
        quote second ++ (others texts ++ ']' :: rest) := by
      rw [quote_append, skipBlanks_cons (by decide)]
    rw [quote_append, readItems_quote (readParts_flatMap text _), joinParts_flatMap, hskip]
    simp only [hquote, ih fuel second (by rw [List.length_cons] at hfuel; omega)]
    rfl

theorem length_others_ge (texts : List Text) : texts.length ≤ (others texts).length := by
  induction texts with
  | nil => exact Nat.le_refl _
  | cons text texts ih =>
    simp only [others, List.flatMap_cons, List.length_append, List.length_cons] at ih ⊢
    omega

theorem intercalate_quote (text : Text) (texts : List Text) :
    [','].intercalate ((text :: texts).map quote) = quote text ++ others texts := by
  rw [List.map_cons, Text.intercalate_cons, List.flatMap_map]
  rfl

/-- A quoted list is read back as the array of its texts, given enough fuel. -/
theorem readValue_quoteList (fuel room : Nat) (texts : List Text) (hfuel : texts.length ≤ fuel) :
    readValue (fuel + 3) (room + 1) (quoteList texts) = .ok (.array (texts.map .string), []) := by
  cases texts with
  | nil => rfl
  | cons text texts =>
    have hlist : quoteList (text :: texts) = '[' :: (quote text ++ (others texts ++ [']'])) := by
      rw [quoteList, intercalate_quote]
      simp
    have hskip : skipBlanks (quote text ++ (others texts ++ [']'])) =
        '"' :: (text.flatMap quoteChar ++ '"' :: (others texts ++ [']'])) := by
      rw [quote_append, skipBlanks_cons (by decide)]
    have hitems :=
      readItems_quoted fuel room text texts [] (by rw [List.length_cons] at hfuel; omega)
    rw [quote_append] at hitems
    rw [hlist, readValue_array _ _ (by rw [hskip]; simp), hskip, hitems]
    rfl

/-- A list of strings is read as an array of these strings, to whatever depth arrays are
followed. -/
theorem readWithin_quoteList (depth : Nat) (texts : List Text) :
    readWithin (depth + 1) (quoteList texts) = .ok (.array (texts.map .string)) := by
  have hlength : texts.length ≤ (quoteList texts).length := by
    cases texts with
    | nil => simp
    | cons text texts =>
      have hothers := length_others_ge texts
      rw [quoteList, intercalate_quote]
      simp only [List.length_append, List.length_cons, String.length_toList]
      simp [quote]
      omega
  have hskip : skipBlanks (quoteList texts) = quoteList texts := skipBlanks_cons (by decide) _
  have hhead : (quoteList texts).head? ≠ some '﻿' := by
    change some '[' ≠ _
    decide
  obtain ⟨fuel, hfuel⟩ : ∃ n, 2 * (quoteList texts).length + 2 = n + 3 ∧ texts.length ≤ n := by
    have hpos : 1 < (quoteList texts).length := by
      simp [quoteList]
    exact ⟨2 * (quoteList texts).length - 1, by omega, by omega⟩
  rw [readWithin, if_neg hhead, hskip, hfuel.1, readValue_quoteList fuel depth texts hfuel.2]
  rfl

end LazyEmbed.Json
