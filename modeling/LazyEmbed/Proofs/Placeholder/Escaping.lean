import LazyEmbed.Placeholder.Payload
import LazyEmbed.Proofs.Html.Reference

/-!
# The text of an attribute between single quotes

`forSingleQuotes` leaves a reference alone if it ends with a semicolon and writes `&amp;` for every
other ampersand. So its output is escaped in the sense of `IsEscaped`: what is put behind it cannot
change what it stands for. It has no apostrophe in it, and it can be cut at every character that no
reference with a semicolon goes over.
-/

namespace LazyEmbed.Payload

open Html

variable {text rest out : Text}

theorem exists_body_of_run (h : referenceBody.run text = some ((), rest)) :
    ∃ body, IsBody body ∧ text = body ++ ';' :: rest := by
  obtain ⟨_, left, hone, hsemicolon⟩ := Reader.run_bind_eq_some_iff.1 h
  obtain rfl : left = [';'] ++ rest := Reader.run_literal_eq_some_iff.1 hsemicolon
  obtain ⟨reader, hreader, hrun⟩ := Reader.exists_run_of_oneOf hone
  simp only [List.mem_cons, List.not_mem_nil, or_false] at hreader
  rcases hreader with rfl | rfl | rfl
  · obtain ⟨initial, behind, hinitial, hrun⟩ := Reader.run_bind_eq_some_iff.1 hrun
    obtain ⟨others, left, hothers, hleft⟩ := Reader.run_bind_eq_some_iff.1 hrun
    obtain ⟨halpha, rfl⟩ := Reader.run_char_eq_some_iff.1 hinitial
    obtain ⟨rfl, hall⟩ := Reader.eq_append_of_run_many hothers
    obtain rfl : left = ';' :: rest := by simpa using hleft
    exact ⟨initial :: others, .named halpha hall, rfl⟩
  · obtain ⟨_, behind, hsharp, hrun⟩ := Reader.run_bind_eq_some_iff.1 hrun
    obtain ⟨digits, left, hdigits, hleft⟩ := Reader.run_bind_eq_some_iff.1 hrun
    obtain rfl : _ = ['#'] ++ behind := Reader.run_literal_eq_some_iff.1 hsharp
    obtain ⟨rfl, hne, hall⟩ := Reader.eq_append_of_run_many1 hdigits
    obtain rfl : left = ';' :: rest := by simpa using hleft
    exact ⟨'#' :: digits, .decimal hne hall, rfl⟩
  · obtain ⟨_, behind, hsharp, hrun⟩ := Reader.run_bind_eq_some_iff.1 hrun
    obtain ⟨mark, _, hmark, hrun⟩ := Reader.run_bind_eq_some_iff.1 hrun
    obtain ⟨digits, left, hdigits, hleft⟩ := Reader.run_bind_eq_some_iff.1 hrun
    obtain rfl : _ = ['#'] ++ behind := Reader.run_literal_eq_some_iff.1 hsharp
    obtain ⟨hletter, rfl⟩ := Reader.run_char_eq_some_iff.1 hmark
    obtain ⟨rfl, hne, hall⟩ := Reader.eq_append_of_run_many1 hdigits
    obtain rfl : left = ';' :: rest := by simpa using hleft
    exact ⟨'#' :: mark :: digits, .hexadecimal (by simpa using hletter) hne hall, rfl⟩

theorem run_referenceBody {body : Text} (h : IsBody body) (rest : Text) :
    referenceBody.run (body ++ ';' :: rest) = some ((), rest) := by
  cases h with
  | @named initial others hinitial hothers =>
    have hchar : (Reader.char Char.isAlpha).run (initial :: (others ++ ';' :: rest)) =
        some (initial, others ++ ';' :: rest) := by simp [Reader.char, hinitial]
    have hdrop := Text.dropWhile_of_all hothers (d := ';') rfl rest
    simp [referenceBody, Reader.oneOf, hchar, hdrop]
  | @decimal digits hne hdigits =>
    have hrun := Reader.run_many1_of_all hne hdigits (d := ';') rfl rest
    simp [referenceBody, Reader.oneOf, hrun, Reader.char]
  | @hexadecimal mark digits hmark hne hdigits =>
    have hrun := Reader.run_many1_of_all hne hdigits (d := ';') rfl rest
    have hdecimal : mark.isDigit = false := by rcases hmark with rfl | rfl <;> rfl
    have hnone := Reader.run_many1_cons_eq_none hdecimal (digits ++ ';' :: rest)
    simp [referenceBody, Reader.oneOf, hrun, hnone, Reader.char, hmark]

/-- Proof along the ampersands of a text. -/
theorem referenceInduction {motive : Text → Prop} (nil : motive [])
    (plain : ∀ c text, c ≠ '&' → motive text → motive (c :: text))
    (reference : ∀ body rest, IsBody body → motive rest → motive ('&' :: (body ++ ';' :: rest)))
    (lone : ∀ text, referenceBody.run text = none → motive text → motive ('&' :: text))
    (text : Text) : motive text := by
  suffices h : ∀ n, ∀ text : Text, text.length ≤ n → motive text from h _ text (Nat.le_refl _)
  intro n
  induction n with
  | zero =>
    intro text hlength
    rw [List.length_eq_zero_iff.1 (Nat.le_zero.1 hlength)]
    exact nil
  | succ n ih =>
    intro text hlength
    cases text with
    | nil => exact nil
    | cons c text =>
      rw [List.length_cons] at hlength
      by_cases hc : c = '&'
      · subst hc
        cases hrun : referenceBody.run text with
        | none => exact lone text hrun (ih text (by omega))
        | some found =>
          obtain ⟨body, hbody, rfl⟩ := exists_body_of_run hrun
          refine reference body found.2 hbody (ih found.2 ?_)
          simp only [List.length_append, List.length_cons] at hlength
          omega
      · exact plain c text hc (ih text (by omega))

/-! ### The output, character by character -/

def escapeChar : Char → Text
  | '<' => "&lt;"
  | '>' => "&gt;"
  | '\'' => "&#39;"
  | c => [c]

theorem forSingleQuotes_eq (text : Text) :
    forSingleQuotes text = (loneAmpersand.replace (fun _ => "&amp;") text).flatMap escapeChar :=
  rfl

@[simp]
theorem forSingleQuotes_nil : forSingleQuotes [] = [] := by
  simp [forSingleQuotes]

theorem run_loneAmpersand_of_ne {c : Char} (h : c ≠ '&') (text : Text) :
    loneAmpersand.reader.run (c :: text) = none := by
  refine (Pattern.after_beginsWith _ _ _).run_eq_none ?_
  rintro ⟨behind, hbehind⟩
  exact h (List.cons.inj hbehind).1.symm

theorem run_loneAmpersand (text : Text) :
    loneAmpersand.reader.run ('&' :: text) =
      if (referenceBody.run text).isNone then some ((), text) else none := by
  simp [loneAmpersand, Pattern.after]

theorem forSingleQuotes_cons {c : Char} (h : c ≠ '&') (text : Text) :
    forSingleQuotes (c :: text) = escapeChar c ++ forSingleQuotes text := by
  rw [forSingleQuotes_eq, Pattern.replace_cons_of_run_eq_none (run_loneAmpersand_of_ne h text),
    List.flatMap_cons, ← forSingleQuotes_eq]

theorem forSingleQuotes_lone (h : referenceBody.run text = none) :
    forSingleQuotes ('&' :: text) = "&amp;" ++ forSingleQuotes text := by
  have hrun : loneAmpersand.reader.run ('&' :: text) = some ((), text) := by
    rw [run_loneAmpersand, h]
    rfl
  rw [forSingleQuotes_eq, Pattern.replace_of_run_eq_some hrun, List.flatMap_append,
    ← forSingleQuotes_eq]
  rfl

theorem forSingleQuotes_append_of_forall (h : ∀ c ∈ text, c ≠ '&' ∧ escapeChar c = [c])
    (rest : Text) : forSingleQuotes (text ++ rest) = text ++ forSingleQuotes rest := by
  induction text with
  | nil => rfl
  | cons c text ih =>
    obtain ⟨hc, htext⟩ := List.forall_mem_cons.1 h
    rw [List.cons_append, forSingleQuotes_cons hc.1, hc.2, ih htext, List.singleton_append,
      List.cons_append]

theorem escapeChar_of_ne {c : Char} (hlt : c ≠ '<') (hgt : c ≠ '>') (hquote : c ≠ '\'') :
    escapeChar c = [c] := by
  unfold escapeChar
  split
  · exact absurd rfl hlt
  · exact absurd rfl hgt
  · exact absurd rfl hquote
  · rfl

/-- A reference is kept as it stands. -/
theorem forSingleQuotes_reference {body : Text} (h : IsBody body) (rest : Text) :
    forSingleQuotes ('&' :: (body ++ ';' :: rest)) =
      '&' :: (body ++ ';' :: forSingleQuotes rest) := by
  have hrun : loneAmpersand.reader.run ('&' :: (body ++ ';' :: rest)) = none := by
    rw [run_loneAmpersand, run_referenceBody h]
    rfl
  have hplain : ∀ c ∈ body ++ [';'], c ≠ '&' ∧ escapeChar c = [c] := by
    intro c hc
    rcases List.mem_append.1 hc with hc | hc
    · exact ⟨h.ne_of_mem hc (by decide) (by decide),
        escapeChar_of_ne (h.ne_of_mem hc (by decide) (by decide))
          (h.ne_of_mem hc (by decide) (by decide)) (h.ne_of_mem hc (by decide) (by decide))⟩
    · obtain rfl := List.mem_singleton.1 hc
      exact ⟨by decide, rfl⟩
  have hbody : forSingleQuotes (body ++ ';' :: rest) = body ++ ';' :: forSingleQuotes rest := by
    have happend := forSingleQuotes_append_of_forall hplain rest
    rwa [List.append_assoc, List.append_assoc] at happend
  rw [forSingleQuotes_eq, Pattern.replace_cons_of_run_eq_none hrun, List.flatMap_cons,
    ← forSingleQuotes_eq, hbody]
  rfl

theorem isBody_amp : IsBody "amp" := .named (by decide) (by decide)

/-- A character stays as it is or becomes a reference with a semicolon. -/
theorem escapeChar_cases (c : Char) :
    (c ∉ ['<', '>', '\''] ∧ escapeChar c = [c]) ∨
      ∃ body, IsBody body ∧ escapeChar c = '&' :: (body ++ [';']) := by
  by_cases hlt : c = '<'
  · subst hlt
    exact .inr ⟨"lt", .named (by decide) (by decide), rfl⟩
  by_cases hgt : c = '>'
  · subst hgt
    exact .inr ⟨"gt", .named (by decide) (by decide), rfl⟩
  by_cases hquote : c = '\''
  · subst hquote
    exact .inr ⟨"#39", .decimal (by decide) (by decide), rfl⟩
  exact .inl ⟨by simp [hlt, hgt, hquote], escapeChar_of_ne hlt hgt hquote⟩

/-- In an escaped text every ampersand begins a reference. -/
theorem isEscaped_forSingleQuotes (text : Text) : IsEscaped (forSingleQuotes text) := by
  induction text using referenceInduction with
  | nil =>
    rw [forSingleQuotes_nil]
    exact .nil
  | plain c text hc ih =>
    rw [forSingleQuotes_cons hc]
    obtain ⟨-, hchar⟩ | ⟨body, hbody, hchar⟩ := escapeChar_cases c
    · rw [hchar, List.singleton_append]
      exact .plain hc ih
    · rw [hchar, List.cons_append, List.append_assoc]
      exact .reference hbody ih
  | reference body rest hbody ih =>
    rw [forSingleQuotes_reference hbody]
    exact .reference hbody ih
  | lone text hrun ih =>
    rw [forSingleQuotes_lone hrun]
    exact .reference isBody_amp ih

/-- Neither brackets nor apostrophes are left. -/
theorem not_mem_forSingleQuotes_of_mem {d : Char} (hd : d ∈ ['<', '>', '\'']) (text : Text) :
    d ∉ forSingleQuotes text := by
  have hother : d ≠ '&' ∧ d ≠ ';' ∧ d ≠ '#' ∧ d.isAlphanum = false := by
    revert d
    decide
  obtain ⟨hamp, hsemicolon, hsharp, halphanum⟩ := hother
  have hreference : ∀ {body rest : Text}, IsBody body → d ∉ rest →
      d ∉ '&' :: (body ++ ';' :: rest) := by
    intro body rest hbody hrest hmem
    simp only [List.mem_cons, List.mem_append, hrest, or_false] at hmem
    rcases hmem with hmem | hmem | hmem
    · exact hamp hmem
    · exact hbody.ne_of_mem hmem hsharp halphanum rfl
    · exact hsemicolon hmem
  induction text using referenceInduction with
  | nil => simp
  | plain c text hc ih =>
    rw [forSingleQuotes_cons hc]
    obtain ⟨hquote, hchar⟩ | ⟨body, hbody, hchar⟩ := escapeChar_cases c
    · rw [hchar, List.singleton_append, List.mem_cons, not_or]
      exact ⟨ne_of_mem_of_not_mem hd hquote, ih⟩
    · rw [hchar, List.cons_append, List.append_assoc]
      exact hreference hbody ih
  | reference body rest hbody ih =>
    rw [forSingleQuotes_reference hbody]
    exact hreference hbody ih
  | lone text hrun ih =>
    rw [forSingleQuotes_lone hrun]
    exact hreference isBody_amp ih

theorem not_mem_forSingleQuotes (text : Text) : '\'' ∉ forSingleQuotes text :=
  not_mem_forSingleQuotes_of_mem (by decide) text

theorem decodeReferences_escapeChar {c : Char} (h : c ≠ '&') :
    decodeReferences (escapeChar c) = .ok [c] := by
  by_cases hlt : c = '<'
  · subst hlt
    decide +kernel
  by_cases hgt : c = '>'
  · subst hgt
    decide +kernel
  by_cases hquote : c = '\''
  · subst hquote
    decide +kernel
  rw [escapeChar_of_ne hlt hgt hquote]
  exact decodeReferences_of_not_mem (by simpa using Ne.symm h)

/-- A text without references is read as it was. -/
theorem decodeReferences_forSingleQuotes (h : '&' ∉ text) :
    decodeReferences (forSingleQuotes text) = .ok text := by
  induction text with
  | nil => simp
  | cons c text ih =>
    obtain ⟨hc, htext⟩ := not_or.1 (mt List.mem_cons.2 h)
    have hescaped : IsEscaped (escapeChar c) := by
      have hself := isEscaped_forSingleQuotes [c]
      rwa [forSingleQuotes_cons (Ne.symm hc), forSingleQuotes_nil, List.append_nil] at hself
    rw [forSingleQuotes_cons (Ne.symm hc), hescaped.decodeReferences_append]
    exact ⟨[c], text, decodeReferences_escapeChar (Ne.symm hc), ih htext, rfl⟩

/-! ### Cutting the input -/

theorem stopsAt_referenceBody {c : Char} (h : c ≠ '#' ∧ c ≠ ';' ∧ c.isAlphanum = false)
    (stop : Text) : referenceBody.StopsAt (c :: stop) := by
  obtain ⟨hsharp, hsemicolon, halphanum⟩ := h
  have halpha : c.isAlpha = false ∧ c.isDigit = false := by
    simpa [Char.isAlphanum, Bool.or_eq_false_iff] using halphanum
  have hhex : Text.isHexDigit c = false := by
    rw [← Bool.not_eq_true]
    intro hhex
    rw [isAlphanum_of_isHexDigit hhex] at halphanum
    exact Bool.noConfusion halphanum
  have hmark : (decide (c = 'x') || decide (c = 'X')) = false := by
    rw [Bool.or_eq_false_iff, decide_eq_false_iff_not, decide_eq_false_iff_not]
    constructor <;> (rintro rfl; exact absurd halphanum (by decide))
  have hliteral : (Reader.literal "#").StopsAt (c :: stop) :=
    Reader.stopsAt_literal (by simpa using hsharp)
  refine Reader.StopsAt.bind (Reader.stopsAt_oneOf ?_) fun _ =>
    Reader.stopsAt_literal (by simpa using hsemicolon)
  intro reader hreader
  simp only [List.mem_cons, List.not_mem_nil, or_false] at hreader
  rcases hreader with rfl | rfl | rfl
  · exact (Reader.stopsAt_char halpha.1).bind fun _ =>
      (Reader.stopsAt_many halphanum).bind fun _ => Reader.stopsAt_pure ()
  · exact hliteral.bind fun _ =>
      (Reader.stopsAt_many1 halpha.2).bind fun _ => Reader.stopsAt_pure ()
  · exact hliteral.bind fun _ => (Reader.stopsAt_char hmark).bind fun _ =>
      (Reader.stopsAt_many1 hhex).bind fun _ => Reader.stopsAt_pure ()

/-- Besides the barriers, an ampersand is a place to cut: a reference has it as its first character
only. -/
theorem forSingleQuotes_append {c : Char} (h : c ≠ '#' ∧ c ≠ ';' ∧ c.isAlphanum = false)
    (text rest : Text) :
    forSingleQuotes (text ++ c :: rest) = forSingleQuotes text ++ forSingleQuotes (c :: rest) := by
  induction text using referenceInduction with
  | nil => rw [List.nil_append, forSingleQuotes_nil, List.nil_append]
  | plain d text hd ih =>
    rw [List.cons_append, forSingleQuotes_cons hd, forSingleQuotes_cons hd, ih, List.append_assoc]
  | reference body text hbody ih =>
    have hwhole :
        '&' :: (body ++ ';' :: text) ++ c :: rest =
          '&' :: (body ++ ';' :: (text ++ c :: rest)) := by simp
    rw [hwhole, forSingleQuotes_reference hbody, forSingleQuotes_reference hbody, ih]
    simp
  | lone text hrun ih =>
    -- A reference that begins here would have to go over `c`.
    have hlone : referenceBody.run (text ++ c :: rest) = none := by
      rw [stopsAt_referenceBody h rest text, hrun, Option.map_none]
    rw [List.cons_append, forSingleQuotes_lone hlone, forSingleQuotes_lone hrun, ih,
      List.append_assoc]

end LazyEmbed.Payload
