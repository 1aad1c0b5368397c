import LazyEmbed.Proofs.Placeholder.Escaping
import LazyEmbed.Proofs.Text.Search

/-!
# Texts that are safe between single quotes

A text is safe between single quotes if it holds neither brackets nor apostrophes and each of its
ampersands begins a reference with a semicolon. `forSingleQuotes` makes every text safe and leaves
the safe ones as they are (`forSingleQuotes_projects`), so a text that is written a second time
stays as it is.

The only ampersand of a reference is its first character, so a text can be cut in front of each of
its references, and what is written for the stretch before a reference does not depend on what the
reference is. A `Cut` sets references of a text apart: they stay as they are, in their order, and
the stretches between them are written one by one (`forSingleQuotes_text`).
-/

namespace LazyEmbed.Payload

open Html

structure Reference where
  body : Text
  isBody : IsBody body

def Reference.text (reference : Reference) : Text := '&' :: (reference.body ++ [';'])

def BeginsReference (text : Text) : Prop := ∃ reference : Reference, reference.text <+: text

/-- Neither brackets nor apostrophes, and no ampersand outside a reference that ends with a
semicolon. -/
structure IsSafe (text : Text) : Prop where
  not_mem : ∀ d ∈ ['<', '>', '\''], d ∉ text
  begins : ∀ behind, '&' :: behind <:+ text → BeginsReference ('&' :: behind)

/-- A text with any of its references set apart, from left to right, and the stretches before and
behind them. -/
inductive Cut where
  | last (stretch : Text)
  | before (stretch : Text) (reference : Reference) (behind : Cut)

namespace Cut

def text : Cut → Text
  | last stretch => stretch
  | before stretch reference behind => stretch ++ (reference.text ++ behind.text)

def map (write : Text → Text) : Cut → Cut
  | last stretch => last (write stretch)
  | before stretch reference behind => before (write stretch) reference (behind.map write)

end Cut

variable {text behind rest : Text}

namespace Reference

variable (reference : Reference)

theorem text_append (rest : Text) :
    reference.text ++ rest = '&' :: (reference.body ++ ';' :: rest) := by
  simp [text]

/-- Its only ampersand is the first character. -/
theorem ampersand_not_mem : '&' ∉ reference.body ++ [';'] := by
  intro hmem
  obtain hbody | hsemicolon := List.mem_append.1 hmem
  · exact reference.isBody.ne_of_mem hbody (by decide) (by decide) rfl
  · exact absurd (List.mem_singleton.1 hsemicolon) (by decide)

end Reference

theorem not_beginsReference_of_run (h : referenceBody.run text = none) :
    ¬BeginsReference ('&' :: text) := by
  rintro ⟨reference, rest, heq⟩
  rw [reference.text_append] at heq
  obtain ⟨-, rfl⟩ := List.cons.inj heq
  rw [run_referenceBody reference.isBody] at h
  exact absurd h (Option.some_ne_none _)

/-! ## References stay where they are -/

/-- Escaping works on the stretches between the references and leaves the references. -/
theorem forSingleQuotes_text (cut : Cut) :
    forSingleQuotes cut.text = (cut.map forSingleQuotes).text := by
  induction cut with
  | last stretch => rfl
  | before stretch reference behind ih =>
    calc forSingleQuotes (stretch ++ (reference.text ++ behind.text))
        = forSingleQuotes stretch ++ forSingleQuotes (reference.text ++ behind.text) := by
          rw [reference.text_append, forSingleQuotes_append (by decide)]
      _ = forSingleQuotes stretch ++ (reference.text ++ forSingleQuotes behind.text) := by
          rw [reference.text_append, forSingleQuotes_reference reference.isBody,
            reference.text_append]
      _ = forSingleQuotes stretch ++ (reference.text ++ (behind.map forSingleQuotes).text) := by
        rw [ih]

/-! ## Safe texts -/

/-- Wherever an ampersand stands, a reference begins. -/
theorem isEscaped_iff :
    IsEscaped text ↔ ∀ behind, '&' :: behind <:+ text → BeginsReference ('&' :: behind) := by
  constructor
  · intro hescaped behind hsuffix
    induction hescaped with
    | nil => exact absurd (List.suffix_nil.1 hsuffix) (List.cons_ne_nil _ _)
    | plain hc _ ih =>
      obtain hwhole | hsuffix := List.suffix_cons_iff.1 hsuffix
      · exact absurd (List.cons.inj hwhole).1.symm hc
      · exact ih hsuffix
    | @reference body rest hbody _ ih =>
      obtain hwhole | hsuffix := List.suffix_cons_iff.1 hsuffix
      · exact ⟨⟨body, hbody⟩, rest, hwhole ▸ Reference.text_append _ _⟩
      · rw [List.append_cons] at hsuffix
        exact ih (Text.suffix_of_suffix_append hsuffix (Reference.ampersand_not_mem ⟨body, hbody⟩))
  · intro hbegins
    induction text using referenceInduction with
    | nil => exact .nil
    | plain c text hc ih =>
      exact .plain hc (ih fun behind hsuffix =>
        hbegins behind (hsuffix.trans (List.suffix_cons c text)))
    | reference body rest hbody ih =>
      have hrest : rest <:+ '&' :: (body ++ ';' :: rest) := ⟨'&' :: (body ++ [';']), by simp⟩
      exact .reference hbody (ih fun behind hsuffix => hbegins behind (hsuffix.trans hrest))
    | lone text hrun _ =>
      exact absurd (hbegins text List.suffix_rfl) (not_beginsReference_of_run hrun)

theorem isSafe_forSingleQuotes (text : Text) : IsSafe (forSingleQuotes text) where
  not_mem _ hd := not_mem_forSingleQuotes_of_mem hd text
  begins := isEscaped_iff.1 (isEscaped_forSingleQuotes text)

/-- A text that is safe in single quotes is left as it is. -/
theorem forSingleQuotes_eq_self (h : IsEscaped text) (hnot : ∀ d ∈ ['<', '>', '\''], d ∉ text) :
    forSingleQuotes text = text := by
  induction h with
  | nil => exact forSingleQuotes_nil
  | @plain c text hc _ ih =>
    have hne : ∀ d ∈ ['<', '>', '\''], c ≠ d := fun d hd heq => hnot d hd (heq ▸ List.mem_cons_self)
    have hsame : escapeChar c = [c] :=
      escapeChar_of_ne (hne '<' (by decide)) (hne '>' (by decide)) (hne '\'' (by decide))
    have htext : forSingleQuotes text = text :=
      ih fun d hd hmem => hnot d hd (List.mem_cons_of_mem c hmem)
    rw [forSingleQuotes_cons hc, hsame, htext, List.singleton_append]
  | @reference body rest hbody _ ih =>
    have hrest : forSingleQuotes rest = rest := ih fun d hd hmem => hnot d hd (by simp [hmem])
    rw [forSingleQuotes_reference hbody, hrest]

theorem IsSafe.forSingleQuotes_eq (h : IsSafe text) : forSingleQuotes text = text :=
  forSingleQuotes_eq_self (isEscaped_iff.2 h.begins) h.not_mem

/-- What is written is safe, whatever it was, and the references of the text are in it as they were,
in their order; to write a text again changes nothing, and the safe texts, and no others, stay as
they are. -/
theorem forSingleQuotes_projects (text : Text) :
    IsSafe (forSingleQuotes text) ∧
      (∀ cut : Cut, cut.text = text → forSingleQuotes text = (cut.map forSingleQuotes).text) ∧
      forSingleQuotes (forSingleQuotes text) = forSingleQuotes text ∧
      (forSingleQuotes text = text ↔ IsSafe text) := by
  have hsafe := isSafe_forSingleQuotes text
  refine ⟨hsafe, ?_, hsafe.forSingleQuotes_eq, fun hsame => ?_, IsSafe.forSingleQuotes_eq⟩
  · rintro cut rfl
    exact forSingleQuotes_text cut
  · rwa [hsame] at hsafe

def sampleCut : Cut :=
  .before "<&" ⟨"amp", isBody_amp⟩
    (.before "&lt'" ⟨"#x4F", .hexadecimal (.inl rfl) (by decide) (by decide)⟩ (.last "&"))

theorem forSingleQuotes_projects_sample :
    sampleCut.text = "<&&amp;&lt'&#x4F;&" ∧
      forSingleQuotes "<&&amp;&lt'&#x4F;&" = ("&lt;&amp;&amp;&amp;lt&#39;&#x4F;&amp;" : Text) := by
  have htext : sampleCut.text = "<&&amp;&lt'&#x4F;&" := by decide
  refine ⟨htext, ?_⟩
  rw [(forSingleQuotes_projects _).2.1 sampleCut htext]
  decide +kernel

end LazyEmbed.Payload
