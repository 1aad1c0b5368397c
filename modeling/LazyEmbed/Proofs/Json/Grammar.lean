import LazyEmbed.Proofs.Json.Number
import LazyEmbed.Proofs.Json.RoundTrip

/-!
# The grammar of JSON

Blanks, strings and numbers as they may be written, and that just these are read. Behind a string
there is its closing quote, but a number goes on as long as it can; so what follows a number
matters, and in a text it is a blank, a comma or a closing bracket.
-/

namespace LazyEmbed.Json

variable {text left rest body blanks : Text} {parts : List StringPart} {c : Char}

/-! ### Blanks -/

def IsBlanks (text : Text) : Prop := ∀ c ∈ text, isBlank c = true

theorem exists_blanks (h : skipBlanks text = rest) :
    ∃ blanks, IsBlanks blanks ∧ text = blanks ++ rest :=
  ⟨text.takeWhile isBlank, fun _ hc => List.mem_takeWhile_imp hc,
    h ▸ List.takeWhile_append_dropWhile.symm⟩

theorem skipBlanks_append (h : IsBlanks blanks) (rest : Text) :
    skipBlanks (blanks ++ rest) = skipBlanks rest :=
  List.dropWhile_append_of_pos h

/-! ### Strings -/

def escapes : List (Char × Char) :=
  [('"', '"'), ('\\', '\\'), ('/', '/'), ('b', '\x08'), ('f', '\x0c'), ('n', '\n'),
    ('r', '\r'), ('t', '\t')]

theorem mem_escapes_of_escaped? {letter : Char} (h : escaped? letter = some c) :
    (letter, c) ∈ escapes := by
  unfold escaped? at h
  split at h
  case h_9 => cases h
  all_goals
    obtain rfl := Option.some.inj h
    decide

/-- What may stand between the quotes of a string, with the parts that it is read as. -/
inductive IsBody : List StringPart → Text → Prop
  | nil : IsBody [] []
  | plain {c : Char} {parts : List StringPart} {body : Text} (hquote : c ≠ '"') (hescape : c ≠ '\\')
      (hcontrol : 0x20 ≤ c.toNat) (h : IsBody parts body) : IsBody (.char c :: parts) (c :: body)
  | short {letter c : Char} {parts : List StringPart} {body : Text}
      (hletter : (letter, c) ∈ escapes) (h : IsBody parts body) :
      IsBody (.char c :: parts) ('\\' :: letter :: body)
  | numeric {a b c d : Char} {parts : List StringPart} {body : Text}
      (hdigits : ∀ digit ∈ [a, b, c, d], Text.isHexDigit digit = true) (h : IsBody parts body) :
      IsBody (.unit (Text.hexValue [a, b, c, d]) :: parts) ('\\' :: 'u' :: a :: b :: c :: d :: body)

inductive IsString : Text → Text → Prop
  | mk {parts : List StringPart} {body : Text} (h : IsBody parts body) :
      IsString (joinParts parts) ('"' :: (body ++ ['"']))

theorem IsString.exists_cons {content literal : Text} (h : IsString content literal) :
    ∃ rest, literal = '"' :: rest := by
  obtain ⟨-⟩ := h
  exact ⟨_, rfl⟩

theorem readParts_short {letter : Char} (h : (letter, c) ∈ escapes) (rest : Text) :
    readParts ('\\' :: letter :: rest) = prepend [.char c] (readParts rest) := by
  simp only [escapes, List.mem_cons, Prod.mk.injEq, List.not_mem_nil, or_false] at h
  rcases h with h | h | h | h | h | h | h | h
  all_goals
    obtain ⟨rfl, rfl⟩ := h
    rfl

/-- The inside of a string literal is read to its parts, up to the closing quote. -/
theorem IsBody.readParts (h : IsBody parts body) (rest : Text) :
    readParts (body ++ '"' :: rest) = .ok (parts, rest) := by
  induction h with
  | nil => rfl
  | plain hquote hescape hcontrol _ ih =>
    rw [List.cons_append, readParts_plain hquote hescape (by omega), ih]
    rfl
  | short hletter _ ih =>
    rw [List.cons_append, List.cons_append, readParts_short hletter, ih]
    rfl
  | @numeric a b c d parts body hdigits _ ih =>
    obtain ⟨next, behind, hnext⟩ :=
      List.exists_cons_of_ne_nil (List.append_ne_nil_of_right_ne_nil body
      (List.cons_ne_nil '"' rest))
    simp only [List.cons_append]
    rw [hnext] at ih ⊢
    rw [Json.readParts, if_pos (List.all_eq_true.2 hdigits), ih]
    rfl

/-- Only the inside of a string literal is read to parts. -/
theorem exists_isBody (h : readParts text = .ok (parts, left)) :
    ∃ body, IsBody parts body ∧ text = body ++ '"' :: left := by
  fun_induction readParts text generalizing parts left with
  | case1 | case3 | case5 | case6 | case8 | case9 => cases h
  | case2 rest =>
    obtain ⟨rfl, rfl⟩ := Prod.mk.inj (Except.ok.inj h)
    exact ⟨[], .nil, rfl⟩
  | case4 a b c d next rest hhex ih =>
    obtain ⟨⟨others, behind⟩, hrest, heq⟩ := map_eq_ok_iff.1 h
    obtain ⟨rfl, rfl⟩ := Prod.mk.inj heq
    obtain ⟨body, hbody, hnext⟩ := ih hrest
    exact ⟨_, .numeric (List.all_eq_true.1 hhex) hbody, by rw [hnext]; rfl⟩
  | case7 letter rest _ hunit c hletter ih =>
    obtain ⟨⟨others, behind⟩, hrest, heq⟩ := map_eq_ok_iff.1 h
    obtain ⟨rfl, rfl⟩ := Prod.mk.inj heq
    obtain ⟨body, hbody, rfl⟩ := ih hrest
    exact ⟨_, .short (mem_escapes_of_escaped? hletter) hbody, rfl⟩
  | case10 c rest hquote hlast _ _ hescape hcontrol ih =>
    obtain ⟨⟨others, behind⟩, hrest, heq⟩ := map_eq_ok_iff.1 h
    obtain ⟨rfl, rfl⟩ := Prod.mk.inj heq
    obtain ⟨body, hbody, rfl⟩ := ih hrest
    have hbackslash : c ≠ '\\' := by
      cases hnext : body ++ '"' :: left with
      | nil => exact fun hc => hlast hc hnext
      | cons letter rest => exact fun hc => hescape letter rest hc hnext
    exact ⟨_, .plain hquote hbackslash (Nat.not_lt.1 hcontrol) hbody, rfl⟩

/-- Behind its opening quote, just a string is read. -/
theorem readString_eq_ok_iff {content : Text} :
    readString text = .ok (content, left) ↔ ∃ literal, IsString content literal ∧
      '"' :: text = literal ++ left := by
  constructor
  · intro h
    cases hparts : readParts text with
    | error flaw =>
      obtain ⟨other, hother⟩ := readString_of_readParts_error hparts
      exact absurd (hother.symm.trans h) (by simp)
    | ok found =>
      obtain ⟨parts, behind⟩ := found
      obtain ⟨rfl, rfl⟩ :=
        Prod.mk.inj (Except.ok.inj ((readString_of_readParts hparts).symm.trans h))
      obtain ⟨body, hbody, rfl⟩ := exists_isBody hparts
      exact ⟨_, .mk hbody, by simp⟩
  · rintro ⟨_, ⟨hbody⟩, htext⟩
    rw [List.cons_append, List.append_assoc, List.singleton_append] at htext
    rw [(List.cons.inj htext).2]
    exact readString_of_readParts (hbody.readParts left)

end LazyEmbed.Json
