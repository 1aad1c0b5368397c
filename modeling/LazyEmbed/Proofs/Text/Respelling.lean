import LazyEmbed.Proofs.Text.Search

/-!
# Words in a text that is spelled anew

Escaping spells a text anew: most characters stay, and some stretches give way to chunks. A word is
in the new text only if it was in the old one, as long as no chunk holds its first character or
begins with one of its others.
-/

namespace LazyEmbed

namespace Text

variable {first : Char} {others old new text rest word : Text}

theorem isInfix_of_not_mem (h : first :: others <:+: text ++ rest) (hfirst : first ∉ text) :
    first :: others <:+: rest := by
  induction text with
  | nil => exact h
  | cons c text ih =>
    obtain ⟨hc, htext⟩ := not_or.1 (mt List.mem_cons.2 hfirst)
    rcases List.infix_cons_iff.1 h with hbegins | hlater
    · exact absurd (List.cons_prefix_cons.1 hbegins).1 hc
    · exact ih hlater htext

/-- A word without a character is on one side of it. -/
theorem isInfix_append_cons {d : Char} (h : word <:+: text ++ d :: rest) (hd : d ∉ word) :
    word <:+: text ∨ word <:+: rest := by
  have hfront : ∀ {front : Text}, word <+: front ++ d :: rest → word <:+: front := fun hbegins =>
    (prefix_of_prefix_append_cons hbegins hd).isInfix
  induction text with
  | nil =>
    rcases List.infix_cons_iff.1 h with hbegins | hlater
    · exact .inl (hfront hbegins)
    · exact .inr hlater
  | cons c text ih =>
    rcases List.infix_cons_iff.1 h with hbegins | hlater
    · exact .inl (hfront hbegins)
    · exact (ih hlater).imp_left fun hbegun => hbegun.trans (List.suffix_cons c text).isInfix

/-- A word of some alphabet that a text begins with goes on in a better text if it ends behind the
front they share. -/
theorem isPrefix_append_of {holds : Char → Prop} {word old new : Text}
    (h : ∀ word : Text, (∀ c ∈ word, holds c) → word <+: new → word <+: old) (front : Text)
    (hword : ∀ c ∈ word, holds c) (hbegins : word <+: front ++ new) :
    word <+: front ++ old := by
  induction front generalizing word with
  | nil => exact h word hword hbegins
  | cons c front ih =>
    cases word with
    | nil => exact List.nil_prefix
    | cons d word =>
      obtain ⟨rfl, hlater⟩ := List.cons_prefix_cons.1 hbegins
      exact List.cons_prefix_cons.2 ⟨rfl, ih (List.forall_mem_cons.1 hword).2 hlater⟩

/-- The new text is the old one with chunks for some stretches, and the word has no part in any
chunk. -/
inductive Respelled (first : Char) (others : Text) : Text → Text → Prop
  | nil : Respelled first others [] []
  | plain (c : Char) {old new : Text} (h : Respelled first others old new) :
      Respelled first others (c :: old) (c :: new)
  | chunk (stretch : Text) {chunk old new : Text} (hfirst : first ∉ chunk)
      (hothers : ∃ c ∈ chunk.head?, c ∉ others) (h : Respelled first others old new) :
      Respelled first others (stretch ++ old) (chunk ++ new)

namespace Respelled

theorem isPrefix (h : Respelled first others old new) (hword : ∀ c ∈ word, c ∈ others)
    (hbegins : word <+: new) : word <+: old := by
  induction h generalizing word with
  | nil => exact hbegins
  | plain c _ ih => exact isPrefix_append_of (fun word => ih) [c] hword hbegins
  | @chunk _ chunk _ _ _ hothers _ _ =>
    cases word with
    | nil => exact List.nil_prefix
    | cons d word =>
      obtain ⟨c, hhead, hc⟩ := hothers
      cases chunk with
      | nil => cases hhead
      | cons e chunk =>
        cases hhead
        obtain ⟨rfl, -⟩ := List.cons_prefix_cons.1 hbegins
        exact absurd (hword d List.mem_cons_self) hc

/-- A respelling brings in no occurrence of the word that was not there. -/
theorem isInfix (h : Respelled first others old new) (hbegun : first :: others <:+: new) :
    first :: others <:+: old := by
  induction h with
  | nil => exact hbegun
  | plain c hrest ih =>
    rcases List.infix_cons_iff.1 hbegun with hbegins | hlater
    · obtain ⟨rfl, hothers⟩ := List.cons_prefix_cons.1 hbegins
      exact (List.cons_prefix_cons.2 ⟨rfl, hrest.isPrefix (fun _ hc => hc) hothers⟩).isInfix
    · exact (ih hlater).trans (List.suffix_cons c _).isInfix
  | chunk _ hfirst _ _ ih =>
    exact (ih (isInfix_of_not_mem hbegun hfirst)).trans (List.suffix_append _ _).isInfix

end Respelled

/-- Writing character by character spells a text anew. -/
theorem respelled_flatMap {write : Char → Text}
    (h : ∀ c, write c = [c] ∨ first ∉ write c ∧ ∃ d ∈ (write c).head?, d ∉ others) (text : Text) :
    Respelled first others text (text.flatMap write) := by
  induction text with
  | nil => exact .nil
  | cons c text ih =>
    rw [List.flatMap_cons]
    rcases h c with hself | ⟨hfirst, hothers⟩
    · rw [hself]
      exact ih.plain c
    · exact ih.chunk [c] hfirst hothers

end Text

/-- Replacing the hits of a search spells a text anew. -/
theorem Pattern.respelled_replace {α : Type} {pattern : Pattern α} {first : Char} {others : Text}
    {write : α → Text} (h : ∀ value, first ∉ write value ∧ ∃ d ∈ (write value).head?, d ∉ others)
    (text : Text) : Text.Respelled first others text (pattern.replace write text) := by
  induction text using pattern.searchInduction with
  | nil =>
    rw [replace_nil]
    exact .nil
  | plain c text hrun ih =>
    rw [replace_cons_of_run_eq_none hrun]
    exact ih.plain c
  | hit text value rest hrun ih =>
    obtain ⟨stretch, rfl⟩ := pattern.reader.suffix_of_run hrun
    rw [replace_of_run_eq_some hrun]
    exact ih.chunk stretch (h value).1 (h value).2

end LazyEmbed
