import LazyEmbed.Html.CharRef
import LazyEmbed.Proofs.Text.Reading

/-!
# Where decoding can be cut

A reference without a semicolon goes on as far as it can, so what a text stands for is not made up
of what its parts stand for: the reader of `"&am" ++ "p"` sees one reference. A reference that ends
with a semicolon cannot grow. If every ampersand of `first` begins such a reference, `first ++
second` is decoded part by part, whatever `second` is.
-/

namespace LazyEmbed.Html

variable {text first second rest out : Text}

theorem beginsWith_ampersand : CharRef.pattern.BeginsWith ['&'] :=
  Pattern.after_beginsWith _ _ _

@[simp]
theorem decodeReferences_nil : decodeReferences [] = .ok [] := Pattern.replaceM_nil _

theorem decodeReferences_append_of_not_mem (h : '&' ∉ text) (rest : Text) :
    decodeReferences (text ++ rest) = (decodeReferences rest).map (text ++ ·) :=
  Pattern.replaceM_append _ (beginsWith_ampersand.passes (Text.misses_of_not_mem h))

theorem decodeReferences_cons {c : Char} (h : c ≠ '&') (text : Text) :
    decodeReferences (c :: text) = (decodeReferences text).map (c :: ·) :=
  decodeReferences_append_of_not_mem (show '&' ∉ [c] by simpa using Ne.symm h) text

theorem decodeReferences_of_not_mem (h : '&' ∉ text) : decodeReferences text = .ok text := by
  have happend := decodeReferences_append_of_not_mem h []
  rw [List.append_nil, decodeReferences_nil] at happend
  rw [happend]
  simp [Except.map]

/-! ### References that end with a semicolon -/

/-- What stands between the ampersand and the semicolon of a reference. -/
inductive IsBody : Text → Prop
  | named {initial : Char} {others : Text} (hinitial : initial.isAlpha = true)
      (hothers : ∀ c ∈ others, c.isAlphanum = true) : IsBody (initial :: others)
  | decimal {digits : Text} (hne : digits ≠ []) (hdigits : ∀ c ∈ digits, c.isDigit = true) :
      IsBody ('#' :: digits)
  | hexadecimal {mark : Char} {digits : Text} (hmark : mark = 'x' ∨ mark = 'X')
      (hne : digits ≠ []) (hdigits : ∀ c ∈ digits, Text.isHexDigit c = true) :
      IsBody ('#' :: mark :: digits)

/-- The character is no part of a reference with a semicolon. -/
def IsBarrier (c : Char) : Prop := c ≠ '&' ∧ c ≠ '#' ∧ c ≠ ';' ∧ c.isAlphanum = false

instance (c : Char) : Decidable (IsBarrier c) := inferInstanceAs (Decidable (_ ∧ _))

/-- Every ampersand begins a reference that ends with a semicolon. -/
inductive IsEscaped : Text → Prop
  | nil : IsEscaped []
  | plain {c : Char} {text : Text} (h : c ≠ '&') (htext : IsEscaped text) : IsEscaped (c :: text)
  | reference {body rest : Text} (hbody : IsBody body) (hrest : IsEscaped rest) :
      IsEscaped ('&' :: (body ++ ';' :: rest))

theorem isNameChar_of_isAlphanum {c : Char} (h : c.isAlphanum = true) :
    CharRef.isNameChar c = true := by
  simp only [CharRef.isNameChar, Bool.not_eq_true', ← Bool.not_eq_true, Bool.or_eq_true,
    decide_eq_true_eq]
  rintro (((((((rfl | rfl) | rfl) | rfl) | rfl) | rfl) | rfl) | rfl) <;> revert h <;> decide

theorem isAlphanum_iff {c : Char} :
    c.isAlphanum = true ↔ ((65 ≤ c.toNat ∧ c.toNat ≤ 90) ∨ 97 ≤ c.toNat ∧ c.toNat ≤ 122) ∨
      48 ≤ c.toNat ∧ c.toNat ≤ 57 := by
  unfold Char.isAlphanum Char.isAlpha Char.isUpper Char.isLower Char.isDigit
  simp only [Bool.or_eq_true, Bool.and_eq_true, decide_eq_true_eq, ge_iff_le,
    UInt32.le_iff_toNat_le]
  rfl

theorem isAlphanum_of_isHexDigit {c : Char} (h : Text.isHexDigit c = true) :
    c.isAlphanum = true := by
  simp only [Text.isHexDigit, Bool.or_eq_true, Bool.and_eq_true, decide_eq_true_eq,
    Char.le_def, UInt32.le_iff_toNat_le] at h
  simp only [Char.isDigit, Bool.and_eq_true, decide_eq_true_eq, ge_iff_le,
    UInt32.le_iff_toNat_le] at h
  rw [isAlphanum_iff]
  change ((48 ≤ c.toNat ∧ c.toNat ≤ 57) ∨ 97 ≤ c.toNat ∧ c.toNat ≤ 102) ∨ 65 ≤ c.toNat ∧
    c.toNat ≤ 70 at h
  omega

theorem IsBody.isAlphanum {body : Text} (h : IsBody body) {c : Char} (hc : c ∈ body) :
    c = '#' ∨ c.isAlphanum = true := by
  cases h with
  | named hinitial hothers =>
    obtain rfl | hc := List.mem_cons.1 hc
    · exact .inr (by simp [Char.isAlphanum, hinitial])
    · exact .inr (hothers c hc)
  | decimal hne hdigits =>
    obtain rfl | hc := List.mem_cons.1 hc
    · exact .inl rfl
    · exact .inr (by simp [Char.isAlphanum, hdigits c hc])
  | hexadecimal hmark hne hdigits =>
    obtain rfl | hc := List.mem_cons.1 hc
    · exact .inl rfl
    · obtain rfl | hc := List.mem_cons.1 hc
      · exact .inr (by rcases hmark with rfl | rfl <;> rfl)
      · exact .inr (isAlphanum_of_isHexDigit (hdigits c hc))

theorem IsBody.ne_of_mem {body : Text} (h : IsBody body) {c d : Char} (hc : c ∈ body)
    (hsharp : d ≠ '#') (halphanum : d.isAlphanum = false) : c ≠ d := by
  rintro rfl
  obtain rfl | hd := h.isAlphanum hc
  · exact hsharp rfl
  · simp [halphanum] at hd

theorem run_semicolon (rest : Text) :
    (Reader.optional (.literal [';'])).run (';' :: rest) = some (some (), rest) :=
  Reader.run_optional_of_run_eq_some (Reader.run_literal_singleton ';' rest)

theorem run_body_decimal {digits : Text} (hne : digits ≠ [])
    (hdigits : ∀ c ∈ digits, c.isDigit = true) (rest : Text) :
    CharRef.body.run ('#' :: (digits ++ ';' :: rest)) = some (.decimal digits, rest) := by
  have hrun := Reader.run_many1_of_all hne hdigits (d := ';') rfl rest
  simp [CharRef.body, Reader.oneOf, hrun, run_semicolon]

theorem run_body_hexadecimal {mark : Char} {digits : Text} (hmark : mark = 'x' ∨ mark = 'X')
    (hne : digits ≠ []) (hdigits : ∀ c ∈ digits, Text.isHexDigit c = true) (rest : Text) :
    CharRef.body.run ('#' :: mark :: (digits ++ ';' :: rest)) =
      some (.hexadecimal digits, rest) := by
  have hrun := Reader.run_many1_of_all hne hdigits (d := ';') rfl rest
  have hdecimal : mark.isDigit = false := by rcases hmark with rfl | rfl <;> rfl
  have hnone := Reader.run_many1_cons_eq_none hdecimal (digits ++ ';' :: rest)
  simp [CharRef.body, Reader.oneOf, hrun, hnone, run_semicolon, Reader.char, hmark]

/-- A name is read as a whole, or, if it is too long, in part and then without its semicolon. -/
theorem exists_run_body_named {name : Text} (hne : name ≠ [])
    (hname : ∀ c ∈ name, c.isAlphanum = true) :
    ∃ value left, (∀ c ∈ left, c = ';' ∨ c.isAlphanum = true) ∧
      ∀ rest, CharRef.body.run (name ++ ';' :: rest) = some (value, left ++ rest) := by
  have htake := Text.takeWhile_of_all (fun c hc => isNameChar_of_isAlphanum (hname c hc))
    (d := ';') rfl
  obtain ⟨c, others, rfl⟩ := List.exists_cons_of_ne_nil hne
  have hsharp : c ≠ '#' := by
    rintro rfl
    exact absurd (hname '#' List.mem_cons_self) (by decide)
  have hno : ∀ text : Text, (Reader.literal ['#']).run (c :: text) = none := by
    intro text
    simp [Reader.literal, Text.afterStart?, Ne.symm hsharp]
  by_cases hlong : (c :: others).length ≤ CharRef.maxNameLength
  · refine ⟨.named (c :: others ++ [';']), [], by simp, fun rest => ?_⟩
    have hrun : (Reader.manyAtMost CharRef.maxNameLength CharRef.isNameChar).run
        (c :: others ++ ';' :: rest) = some (c :: others, ';' :: rest) := by
      simp only [Reader.manyAtMost, htake, List.take_of_length_le hlong, List.drop_left']
    rw [List.cons_append] at hrun ⊢
    simp [CharRef.body, Reader.oneOf, hno, hrun, run_semicolon]
  · refine ⟨.named ((c :: others).take CharRef.maxNameLength),
      (c :: others).drop CharRef.maxNameLength ++ [';'], ?_, fun rest => ?_⟩
    · intro d hd
      rcases List.mem_append.1 hd with hd | hd
      · exact .inr (hname d (List.mem_of_mem_drop hd))
      · exact .inl (List.mem_singleton.1 hd)
    · obtain ⟨e, behind, hbehind⟩ : ∃ e behind,
          (c :: others).drop CharRef.maxNameLength = e :: behind :=
        List.exists_cons_of_ne_nil (by rw [Ne, List.drop_eq_nil_iff]; exact hlong)
      have hsemicolon : e ≠ ';' := by
        rintro rfl
        have hmem : ';' ∈ c :: others := List.mem_of_mem_drop (hbehind ▸ List.mem_cons_self)
        exact absurd (hname ';' hmem) (by decide)
      have hrun : (Reader.manyAtMost CharRef.maxNameLength CharRef.isNameChar).run
          (c :: others ++ ';' :: rest) =
            some ((c :: others).take CharRef.maxNameLength, e :: behind ++ ';' :: rest) := by
        have hlength : ((c :: others).take CharRef.maxNameLength).length = CharRef.maxNameLength :=
          List.length_take_of_le (Nat.le_of_not_le hlong)
        simp only [Reader.manyAtMost, htake, hlength]
        rw [List.drop_append_of_le_length (Nat.le_of_not_le hlong), hbehind]
      have hmissing : (Reader.optional (.literal [';'])).run (e :: behind ++ ';' :: rest) =
          some (none, e :: behind ++ ';' :: rest) := by
        refine Reader.run_optional_of_run_eq_none ?_
        simp [Reader.literal, Text.afterStart?, Ne.symm hsemicolon]
      rw [List.cons_append] at hrun hmissing ⊢
      have hlong' : CharRef.maxNameLength ≠ 0 := by decide
      simp [CharRef.body, Reader.oneOf, hno, hrun, hmissing, hbehind, hlong']

/-- A reference that ends with a semicolon is read as it is, whatever follows. -/
theorem IsBody.exists_run {body : Text} (h : IsBody body) :
    ∃ value left, '&' ∉ left ∧ ∀ rest, CharRef.pattern.reader.run ('&' :: (body ++ ';' :: rest)) =
      some (value, left ++ rest) := by
  have hlift : ∀ {text : Text} {value : CharRef} {behind : Text},
      CharRef.body.run text = some (value, behind) →
        CharRef.pattern.reader.run ('&' :: text) = some (value, behind) := by
    intro text value behind hrun
    simp [CharRef.pattern, Pattern.after, hrun]
  cases h with
  | @named initial others hinitial hothers =>
    have hname : ∀ c ∈ initial :: others, c.isAlphanum = true := by
      intro c hc
      obtain rfl | hc := List.mem_cons.1 hc
      · simp [Char.isAlphanum, hinitial]
      · exact hothers c hc
    obtain ⟨value, left, hleft, hrun⟩ := exists_run_body_named (List.cons_ne_nil _ _) hname
    refine ⟨value, left, fun hmem => ?_, fun rest => hlift (hrun rest)⟩
    exact absurd (hleft '&' hmem) (by decide)
  | decimal hne hdigits =>
    exact ⟨_, [], by simp, fun rest => hlift (run_body_decimal hne hdigits rest)⟩
  | hexadecimal hmark hne hdigits =>
    exact ⟨_, [], by simp, fun rest => hlift (run_body_hexadecimal hmark hne hdigits rest)⟩

/-! ### Decoding part by part -/

theorem bind_append_eq_ok_iff {ε : Type} {one other : Except ε Text} :
    (do let a ← one; let b ← other; pure (a ++ b) : Except ε Text) = .ok out ↔
      ∃ a b, one = .ok a ∧ other = .ok b ∧ out = a ++ b := by
  cases one with
  | error fault => simp [bind, Except.bind]
  | ok a => cases other <;> simp [bind, Except.bind, pure, Except.pure, eq_comm]

/-- What a reference with a semicolon stands for does not depend on what follows it. -/
theorem IsBody.exists_decodeReferences {body : Text} (h : IsBody body) :
    ∃ meaning : Except Text.Oversized Text, ∀ rest out,
      decodeReferences ('&' :: (body ++ ';' :: rest)) = .ok out ↔
        ∃ a b, meaning = .ok a ∧ decodeReferences rest = .ok b ∧ out = a ++ b := by
  obtain ⟨value, left, hleft, hrun⟩ := h.exists_run
  refine ⟨value.decode.map (· ++ left), fun rest out => ?_⟩
  have hstep : decodeReferences ('&' :: (body ++ ';' :: rest)) = (do
      let a ← value.decode
      let b ← decodeReferences (left ++ rest)
      pure (a ++ b) : Except Text.Oversized Text) :=
    Pattern.replaceM_of_run_eq_some _ (hrun rest)
  rw [hstep, bind_append_eq_ok_iff]
  simp only [decodeReferences_append_of_not_mem hleft, map_eq_ok_iff]
  constructor
  · rintro ⟨a, _, ha, ⟨b, hb, rfl⟩, rfl⟩
    exact ⟨a ++ left, b, ⟨a, ha, rfl⟩, hb, by simp⟩
  · rintro ⟨_, b, ⟨a, ha, rfl⟩, hb, rfl⟩
    exact ⟨a, left ++ b, ha, ⟨b, hb, rfl⟩, by simp⟩

/-- Behind an escaped text decoding starts afresh, so the two parts decode separately. -/
theorem IsEscaped.decodeReferences_append (h : IsEscaped first) (second : Text) :
    decodeReferences (first ++ second) = .ok out ↔
      ∃ a b, decodeReferences first = .ok a ∧ decodeReferences second = .ok b ∧ out = a ++ b := by
  induction h generalizing out with
  | nil => simp
  | plain hc htext ih =>
    rw [List.cons_append, decodeReferences_cons hc, decodeReferences_cons hc]
    simp only [map_eq_ok_iff, ih]
    constructor
    · rintro ⟨_, ⟨a, b, ha, hb, rfl⟩, rfl⟩
      exact ⟨_, b, ⟨a, ha, rfl⟩, hb, rfl⟩
    · rintro ⟨_, b, ⟨a, ha, rfl⟩, hb, rfl⟩
      exact ⟨a ++ b, ⟨a, b, ha, hb, rfl⟩, rfl⟩
  | reference hbody hrest ih =>
    obtain ⟨meaning, hmeaning⟩ := hbody.exists_decodeReferences
    rw [List.cons_append, List.append_assoc, List.cons_append]
    simp only [hmeaning, ih]
    constructor
    · rintro ⟨a, _, ha, ⟨b, c, hb, hc, rfl⟩, rfl⟩
      exact ⟨a ++ b, c, ⟨a, b, ha, hb, rfl⟩, hc, by simp⟩
    · rintro ⟨_, c, ⟨a, b, ha, hb, rfl⟩, hc, rfl⟩
      exact ⟨a, b ++ c, ha, ⟨b, c, hb, hc, rfl⟩, by simp⟩

/-! ### Escaped texts, put together and cut -/

theorem IsEscaped.append {first second : Text} (hfirst : IsEscaped first)
    (hsecond : IsEscaped second) : IsEscaped (first ++ second) := by
  induction hfirst with
  | nil => exact hsecond
  | plain hc _ ih => exact .plain hc ih
  | @reference body rest hbody hrest ih =>
    have htext :
        '&' :: (body ++ ';' :: rest) ++ second = '&' :: (body ++ ';' :: (rest ++ second)) := by simp
    rw [htext]
    exact .reference hbody ih

theorem isEscaped_of_not_mem (h : '&' ∉ text) : IsEscaped text := by
  induction text with
  | nil => exact .nil
  | cons c text ih =>
    obtain ⟨hc, htext⟩ := not_or.1 (mt List.mem_cons.2 h)
    exact .plain (Ne.symm hc) (ih htext)

theorem IsEscaped.tail {c : Char} (hc : c ≠ '&') (h : IsEscaped (c :: text)) : IsEscaped text := by
  cases h with
  | plain _ htext => exact htext
  | reference => exact absurd rfl hc

theorem IsEscaped.of_append_left (h : IsEscaped (text ++ behind)) (htext : '&' ∉ text) :
    IsEscaped behind := by
  induction text with
  | nil => exact h
  | cons c text ih =>
    obtain ⟨hc, htext⟩ := not_or.1 (mt List.mem_cons.2 htext)
    exact ih (h.tail (Ne.symm hc)) htext

/-- No reference goes on to a text without a semicolon. -/
theorem IsEscaped.of_append_right (h : IsEscaped (text ++ behind)) (hbehind : ';' ∉ behind) :
    IsEscaped text := by
  generalize hwhole : text ++ behind = whole at h
  induction h generalizing text with
  | nil => exact (List.append_eq_nil_iff.1 hwhole).1 ▸ .nil
  | plain hc htext ih =>
    cases text with
    | nil => exact .nil
    | cons d text =>
      obtain ⟨rfl, hrest⟩ := List.cons.inj hwhole
      exact .plain hc (ih hrest)
  | @reference body rest hbody hrest ih =>
    have hsplit : text ++ behind = ('&' :: (body ++ [';'])) ++ rest := by rw [hwhole]; simp
    obtain ⟨left, hbegin, hend⟩ | ⟨left, hbegin, hend⟩ := List.append_eq_append_iff.1 hsplit
    · obtain hnil | ⟨others, last, hlast⟩ := List.eq_nil_or_concat left
      · rw [hnil, List.append_nil] at hbegin
        rw [← hbegin]
        exact .reference hbody .nil
      · have hsame : ('&' :: body) ++ [';'] = (text ++ others) ++ [last] := by
          rw [hlast, List.concat_eq_append] at hbegin
          simpa using hbegin
        obtain rfl : ';' = last := List.singleton_inj.1 (List.append_inj' hsame rfl).2
        exact absurd (by rw [hend, hlast]; simp) hbehind
    · rw [hbegin]
      have htext : '&' :: (body ++ [';']) ++ left = '&' :: (body ++ ';' :: left) := by simp
      rw [htext]
      exact .reference hbody (ih hend.symm)

end LazyEmbed.Html
