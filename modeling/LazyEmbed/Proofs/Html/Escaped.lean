import LazyEmbed.Html.Escape
import LazyEmbed.Proofs.Html.Reference
import Mathlib.Data.List.Basic
import Mathlib.Data.List.Induction

/-!
# Escaped text

Escaping writes each character as itself or as a reference to it. So whichever characters give way,
the text comes back from its references, and of those characters none is left.
-/

namespace LazyEmbed.Html

variable {text word : Text} {c d : Char}

inductive StandsFor (c : Char) : Text → Prop
  | self (hc : c ≠ '&') : StandsFor c [c]
  | reference {body : Text} (hbody : IsBody body)
      (hdecode : decodeReferences ('&' :: (body ++ [';'])) = .ok [c]) :
      StandsFor c ('&' :: (body ++ [';']))

theorem StandsFor.eq_of_mem {written : Text} (h : StandsFor c written) (hd : IsBarrier d)
    (hmem : d ∈ written) : d = c ∧ written = [c] := by
  obtain ⟨hamp, hsharp, hsemicolon, halphanum⟩ := hd
  cases h with
  | self hc => exact ⟨List.mem_singleton.1 hmem, rfl⟩
  | reference hbody hdecode =>
    simp only [List.mem_cons, List.mem_append, List.not_mem_nil, or_false] at hmem
    rcases hmem with hmem | hmem | hmem
    · exact absurd hmem hamp
    · exact absurd rfl (hbody.ne_of_mem hmem hsharp halphanum)
    · exact absurd hmem hsemicolon

section

variable {write : Char → Text} (h : ∀ c, StandsFor c (write c))
include h

/-- A text written character by character decodes to itself. -/
theorem decodeReferences_flatMap (text : Text) :
    decodeReferences (text.flatMap write) = .ok text := by
  induction text with
  | nil => exact decodeReferences_nil
  | cons c text ih =>
    have hc := h c
    rw [List.flatMap_cons]
    generalize write c = written at hc
    cases hc with
    | self hamp =>
      rw [List.singleton_append, decodeReferences_cons hamp, ih]
      rfl
    | reference hbody hdecode =>
      have hescaped : IsEscaped ('&' :: (_ ++ ';' :: [])) := .reference hbody .nil
      rw [hescaped.decodeReferences_append]
      exact ⟨[c], text, hdecode, ih, rfl⟩

theorem not_mem_flatMap (hd : IsBarrier d) (hwrite : write d ≠ [d]) (text : Text) :
    d ∉ text.flatMap write := by
  intro hmem
  obtain ⟨c, -, hc⟩ := List.mem_flatMap.1 hmem
  obtain ⟨rfl, hself⟩ := (h c).eq_of_mem hd hc
  exact hwrite hself

end

/-! ### Attributes between double quotes -/

theorem forDoubleQuotes_eq (text : Text) :
    forDoubleQuotes text = text.flatMap fun c => forDoubleQuotes [c] := by
  unfold forDoubleQuotes
  simp only [List.flatMap_singleton]

theorem standsFor_forDoubleQuotes (c : Char) : StandsFor c (forDoubleQuotes [c]) := by
  unfold forDoubleQuotes
  rw [List.flatMap_singleton]
  split
  · exact StandsFor.reference (.named (by decide) (by decide) : IsBody "amp") (by decide +kernel)
  · exact StandsFor.reference (.named (by decide) (by decide) : IsBody "lt") (by decide +kernel)
  · exact StandsFor.reference (.named (by decide) (by decide) : IsBody "gt") (by decide +kernel)
  · exact StandsFor.reference (.named (by decide) (by decide) : IsBody "quot") (by decide +kernel)
  · next hamp _ _ _ => exact .self hamp

/-- Any text comes back from between double quotes. -/
theorem decodeReferences_forDoubleQuotes (text : Text) :
    decodeReferences (forDoubleQuotes text) = .ok text := by
  rw [forDoubleQuotes_eq]
  exact decodeReferences_flatMap standsFor_forDoubleQuotes text

/-- Neither brackets nor quotes are left. -/
theorem not_mem_forDoubleQuotes (hd : d ∈ ['<', '>', '"']) (text : Text) :
    d ∉ forDoubleQuotes text := by
  have hbarrier : ∀ d ∈ ['<', '>', '"'], IsBarrier d ∧ forDoubleQuotes [d] ≠ [d] := by decide
  rw [forDoubleQuotes_eq]
  exact not_mem_flatMap standsFor_forDoubleQuotes (hbarrier d hd).1 (hbarrier d hd).2 text

theorem forDoubleQuotes_append (text rest : Text) :
    forDoubleQuotes (text ++ rest) = forDoubleQuotes text ++ forDoubleQuotes rest :=
  List.flatMap_append

theorem forDoubleQuotes_cases (c : Char) :
    forDoubleQuotes [c] = [c] ∨ ∃ body, forDoubleQuotes [c] = body ++ [';'] := by
  unfold forDoubleQuotes
  rw [List.flatMap_singleton]
  split
  · exact .inr ⟨"&amp", by decide⟩
  · exact .inr ⟨"&lt", by decide⟩
  · exact .inr ⟨"&gt", by decide⟩
  · exact .inr ⟨"&quot", by decide⟩
  · exact .inl rfl

theorem forDoubleQuotes_ne_nil (h : text ≠ []) : forDoubleQuotes text ≠ [] := by
  intro hnil
  have hdecode := decodeReferences_forDoubleQuotes text
  rw [hnil, decodeReferences_nil] at hdecode
  exact h (Except.ok.inj hdecode).symm

/-- What a value ends with between quotes, it ends with as it is, unless that has the end of a
reference. -/
theorem suffix_of_suffix_forDoubleQuotes (hword : ';' ∉ word) (h : word <:+ forDoubleQuotes text) :
    word <:+ text := by
  induction text using List.reverseRecOn generalizing word with
  | nil => exact h
  | append_singleton text c ih =>
    obtain rfl | ⟨word, d, rfl⟩ := List.eq_nil_or_concat' word
    · exact List.nil_suffix
    obtain ⟨front, heq⟩ := h
    rw [forDoubleQuotes_append, ← List.append_assoc] at heq
    obtain hself | ⟨body, hbody⟩ := forDoubleQuotes_cases c
    · rw [hself] at heq
      obtain ⟨hfront, rfl⟩ := List.append_singleton_inj.1 heq
      obtain ⟨more, rfl⟩ := ih (fun hmem => hword (List.mem_append_left _ hmem)) ⟨front, hfront⟩
      exact ⟨more, by rw [List.append_assoc]⟩
    · rw [hbody, ← List.append_assoc] at heq
      obtain ⟨-, rfl⟩ := List.append_singleton_inj.1 heq
      exact absurd (List.mem_append_right word (List.mem_singleton_self ';')) hword

theorem length_le_forDoubleQuotes (text : Text) : text.length ≤ (forDoubleQuotes text).length := by
  induction text with
  | nil => exact Nat.le_refl _
  | cons c text ih =>
    have hc : 0 < (forDoubleQuotes [c]).length :=
      List.length_pos_iff.2 (forDoubleQuotes_ne_nil (List.cons_ne_nil c []))
    rw [← List.singleton_append, forDoubleQuotes_append, List.length_append, List.length_append]
    simp only [List.length_singleton]
    omega

theorem forDoubleQuotes_singleton_iff (c : Char) :
    forDoubleQuotes [c] = [c] ↔ c ∉ ['&', '<', '>', '"'] := by
  unfold forDoubleQuotes
  rw [List.flatMap_singleton]
  split
  · decide
  · decide
  · decide
  · decide
  · next hamp hless hmore hquote => simpa using ⟨hamp, hless, hmore, hquote⟩

/-- The escape for double quotes fixes exactly the texts without a character it escapes. -/
theorem forDoubleQuotes_eq_self_iff :
    forDoubleQuotes text = text ↔ ∀ c ∈ text, c ∉ ['&', '<', '>', '"'] := by
  induction text with
  | nil => simp [forDoubleQuotes]
  | cons c text ih =>
    have hlength := length_le_forDoubleQuotes text
    rw [← List.singleton_append, forDoubleQuotes_append, List.singleton_append,
      List.forall_mem_cons, ← ih, ← forDoubleQuotes_singleton_iff c]
    constructor
    · intro heq
      obtain ⟨d, more, hc⟩ :=
        List.exists_cons_of_ne_nil (forDoubleQuotes_ne_nil (List.cons_ne_nil c []))
      have hmore : more = [] := by
        have hlengths := congrArg List.length heq
        rw [hc, List.length_append, List.length_cons, List.length_cons] at hlengths
        exact List.length_eq_zero_iff.1 (by omega)
      rw [hc, hmore, List.singleton_append, List.cons.injEq] at heq
      rw [hc, hmore]
      exact ⟨by rw [heq.1], heq.2⟩
    · rintro ⟨hc, htext⟩
      rw [hc, htext, List.singleton_append]

/-! ### Attributes between quotes of either kind -/

theorem forAnyQuotes_eq (text : Text) :
    forAnyQuotes text = text.flatMap fun c => forAnyQuotes [c] := by
  unfold forAnyQuotes
  simp only [List.flatMap_singleton]

/-- Apostrophes apart, the two ways to write a value agree. -/
theorem forAnyQuotes_of_ne {c : Char} (h : c ≠ '\'') : forAnyQuotes [c] = forDoubleQuotes [c] := by
  unfold forAnyQuotes forDoubleQuotes
  rw [List.flatMap_singleton, List.flatMap_singleton]
  split
  · rfl
  · rfl
  · rfl
  · rfl
  · exact absurd rfl h
  · next hamp hless hmore hquote _ => split <;> first | rfl | contradiction

theorem standsFor_forAnyQuotes (c : Char) : StandsFor c (forAnyQuotes [c]) := by
  by_cases happ : c = '\''
  · subst happ
    exact StandsFor.reference (.hexadecimal (.inl rfl) (by decide) (by decide) : IsBody "#x27")
      (by decide +kernel)
  · rw [forAnyQuotes_of_ne happ]
    exact standsFor_forDoubleQuotes c

/-- Any text comes back from between quotes. -/
theorem decodeReferences_forAnyQuotes (text : Text) :
    decodeReferences (forAnyQuotes text) = .ok text := by
  rw [forAnyQuotes_eq]
  exact decodeReferences_flatMap standsFor_forAnyQuotes text

theorem not_mem_forAnyQuotes (hd : d ∈ ['<', '>', '"', '\'']) (text : Text) :
    d ∉ forAnyQuotes text := by
  have hbarrier : ∀ d ∈ ['<', '>', '"', '\''], IsBarrier d ∧ forAnyQuotes [d] ≠ [d] := by decide
  rw [forAnyQuotes_eq]
  exact not_mem_flatMap standsFor_forAnyQuotes (hbarrier d hd).1 (hbarrier d hd).2 text

end LazyEmbed.Html
