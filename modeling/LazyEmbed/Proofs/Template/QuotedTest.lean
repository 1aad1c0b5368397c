import LazyEmbed.Proofs.Text.Respelling
import LazyEmbed.Proofs.Template.LoneBrace
import Mathlib.Data.List.Forall2

/-!
# Tests between quotation marks

A test is written back between the quotation marks that it was read from, and its references are
decoded before. So a test that stands for a quotation mark is cut off when it is read again, up to
the next quotation mark, and all others are read back. Whether a condition is found does not change
with the conditions behind it: it begins with the bracket that it began with, and its value is empty
only if it was.
-/

namespace LazyEmbed

namespace Template

/-! ### Reading a value -/

def upToQuote (text : Text) : Text := text.takeWhile fun c => decide (c ≠ '"')

theorem upToQuote_append_iff (value rest : Text) :
    upToQuote (value ++ '"' :: rest) = value ↔ '"' ∉ value := by
  constructor
  · intro h hmem
    rw [← h] at hmem
    simpa using List.mem_takeWhile_imp hmem
  · exact fun h => Text.takeWhile_of_all (Text.forall_ne_iff.2 h) (by decide) rest

theorem upToQuote_eq_nil_iff {text other : Text} (h : text.head? = other.head?) :
    upToQuote text = [] ↔ upToQuote other = [] := by
  cases text with
  | nil =>
    obtain rfl := List.head?_eq_none_iff.1 h.symm
    rfl
  | cons c text =>
    obtain ⟨rest, rfl⟩ := List.head?_eq_some_iff.1 h.symm
    simp only [upToQuote, List.takeWhile_cons]
    split <;> simp

theorem run_many1_quoted {tail value rest : Text} :
    (Reader.many1 fun c => decide (c ≠ '"')).run tail = some (value, rest) ↔
      upToQuote tail ≠ [] ∧ value = upToQuote tail ∧ rest = tail.dropWhile fun c =>
        decide (c ≠ '"') := by
  rw [Reader.run_many1, ← upToQuote]
  split
  · next hnil => simp [hnil]
  · next hne => simp [hne, eq_comm]

open Dialect

variable {text out : Text}

/-! ### Conditions -/

theorem convertConditions_append {front : Text} (h : '<' ∉ front) (text : Text) :
    convertConditions (front ++ text) = (convertConditions text).map (front ++ ·) :=
  Pattern.replaceM_append _ ((Pattern.after_beginsWith _ _ _).passes (Text.misses_of_not_mem h))

/-- A condition is written with the bracket that it was read with. -/
theorem head?_convertConditions (h : convertConditions text = .ok out) :
    out.head? = text.head? := by
  cases hrun : condition.reader.run text with
  | none =>
    cases text with
    | nil =>
      rw [convertConditions, Pattern.replaceM_nil] at h
      rw [← Except.ok.inj h]
    | cons c text =>
      obtain ⟨others, -, rfl⟩ := Pattern.exists_of_replaceM_plain hrun h
      rfl
  | some found =>
    obtain ⟨written, others, hwrite, -, rfl⟩ := Pattern.exists_of_replaceM_hit hrun h
    obtain ⟨converted, -, ⟨⟩⟩ := bind_eq_ok_iff.1 hwrite
    obtain ⟨tail, rfl, -⟩ := exists_of_run_condition hrun
    rfl

/-- No hit begins inside a word without a bracket. -/
theorem prefix_of_convertConditions {word : Text} (hword : '<' ∉ word)
    (h : convertConditions text = .ok out) (hbegins : word <+: out) : word <+: text := by
  induction text using condition.searchInduction generalizing word out with
  | nil =>
    rw [convertConditions, Pattern.replaceM_nil] at h
    rwa [← Except.ok.inj h] at hbegins
  | plain c text hrun ih =>
    obtain ⟨others, hothers, rfl⟩ := Pattern.exists_of_replaceM_plain hrun h
    cases word with
    | nil => exact List.nil_prefix
    | cons d word =>
      obtain ⟨rfl, hrest⟩ := List.cons_prefix_cons.1 hbegins
      exact List.cons_prefix_cons.2 ⟨rfl,
        ih (fun hmem => hword (List.mem_cons_of_mem d hmem)) hothers hrest⟩
  | hit text found rest hrun ih =>
    have hhead := head?_convertConditions h
    obtain ⟨tail, rfl, -⟩ := exists_of_run_condition hrun
    obtain ⟨others, rfl⟩ := List.head?_eq_some_iff.1 hhead
    cases word with
    | nil => exact List.nil_prefix
    | cons d word =>
      obtain ⟨rfl, -⟩ := List.cons_prefix_cons.1 hbegins
      exact absurd List.mem_cons_self hword

theorem run_condition {further tail value rest : Text} (hfurther : further ∈ ["else".toList, []])
    (h : (Reader.many1 fun c => decide (c ≠ '"')).run tail = some (value, rest)) :
    condition.reader.run ("<xf:" ++ (further ++ "if is=\"") ++ tail) =
      some ((further, value), rest) := by
  rw [List.append_assoc, List.append_assoc, condition, Pattern.run_after_append]
  have hfixed : (Reader.literal "if is=\"").run ("if is=\"" ++ tail) = some ((), tail) :=
    Reader.run_literal_append _ _
  simp only [List.mem_cons, List.not_mem_nil, or_false] at hfurther
  obtain rfl | rfl := hfurther
  · refine Reader.run_bind_eq_some_iff.2 ⟨some (), "if is=\"" ++ tail, ?_, ?_⟩
    · exact Reader.run_optional_of_run_eq_some (Reader.run_literal_append _ _)
    · exact Reader.run_bind_eq_some_iff.2 ⟨(), tail, hfixed,
        Reader.run_bind_eq_some_iff.2 ⟨value, rest, h, rfl⟩⟩
  · refine Reader.run_bind_eq_some_iff.2 ⟨none, "if is=\"" ++ tail, ?_, ?_⟩
    · exact Reader.run_optional_of_run_eq_none rfl
    · exact Reader.run_bind_eq_some_iff.2 ⟨(), tail, hfixed,
        Reader.run_bind_eq_some_iff.2 ⟨value, rest, h, rfl⟩⟩

/-- What is no condition does not become one. -/
theorem run_convertConditions_eq_none {c : Char} (hrun : condition.reader.run (c :: text) = none)
    (h : convertConditions text = .ok out) : condition.reader.run (c :: out) = none := by
  cases hfound : condition.reader.run (c :: out) with
  | none => rfl
  | some result =>
    obtain ⟨tail, heq, hfurther, hmany⟩ := exists_of_run_condition hfound
    have hword : ∀ further ∈ ["else".toList, []], '<' ∉ "xf:" ++ (further ++ "if is=\"") := by
      decide
    obtain ⟨rfl, rfl⟩ : '<' = c ∧ "xf:" ++ (result.1.1 ++ "if is=\"") ++ tail = out := by
      exact List.cons.inj heq.symm
    obtain ⟨left, rfl⟩ :=
      prefix_of_convertConditions (hword _ hfurther) h (List.prefix_append _ tail)
    rw [convertConditions_append (hword _ hfurther)] at h
    obtain ⟨written, hwritten, htail⟩ := map_eq_ok_iff.1 h
    obtain rfl := List.append_cancel_left htail
    -- The text behind the opening begins as it began, so a test is read there as well.
    obtain ⟨hne, -, -⟩ := run_many1_quoted.1 hmany
    have hleft := mt (upToQuote_eq_nil_iff (head?_convertConditions hwritten)).2 hne
    cases hrun.symm.trans (run_condition hfurther (run_many1_quoted.2 ⟨hleft, rfl, rfl⟩))

/-! ### Expressions -/

namespace Expression

/-- A double quote is in the rendered test exactly when it was in its source. -/
theorem quote_mem_render_iff {found : Expression} (h : found.IsReadable) :
    '"' ∈ found.render ↔ '"' ∈ found.source := by
  have hname : ∀ {name : Text}, IsName name → '"' ∉ name :=
    fun h hmem => Bool.noConfusion (h.2 _ hmem)
  have hnumber : ∀ {number : Text}, IsNumber number → '"' ∉ number :=
    fun h hmem => Bool.noConfusion (h.2 _ hmem)
  cases found with
  | value name => simp [render_value, source_value, hname h]
  | equals name literal => simp [render_equals, source_equals, hname h.1]
  | exceeds name number => simp [render_exceeds, source_exceeds, hname h.1, hnumber h.2]
  | ratio => exact iff_of_false (by decide) (by decide)
  | paddedRatio extra => simp [render_paddedRatio, source_paddedRatio, hnumber h]

theorem exists_render_cons (found : Expression) :
    ∃ c tail, found.render = c :: tail ∧ (c = '$' ∨ c = '1') := by
  cases found with
  | value name => exact ⟨'$', name, rfl, .inl rfl⟩
  | equals name literal => exact ⟨'$', name ++ "=='" ++ literal ++ "'", rfl, .inl rfl⟩
  | exceeds name number => exact ⟨'$', name ++ ">" ++ number, rfl, .inl rfl⟩
  | ratio => exact ⟨'1', "00*$height/$width".toList, rfl, .inr rfl⟩
  | paddedRatio extra => exact ⟨'1', "00*($height+" ++ extra ++ ")/$width", rfl, .inr rfl⟩

end Expression

/-- No text that the source stands for has a quotation mark. -/
def DecodesUnquoted (source : Text) : Prop :=
  ∀ decoded, Html.decodeReferences source = .ok decoded → '"' ∉ decoded

theorem quote_not_mem_iff {source : Text} (h : convertExpression source = .ok out) :
    '"' ∉ out ↔ DecodesUnquoted source := by
  obtain ⟨found, hreadable, hdecodes, rfl⟩ := exists_of_convertExpression h
  rw [Expression.quote_mem_render_iff hreadable]
  constructor
  · intro hsource decoded hdecoded
    rwa [← Except.ok.inj (hdecodes.symm.trans hdecoded)]
  · exact fun h => h _ hdecodes

def ReadsBack (found read : Text × Text) : Prop :=
  read.1 = found.1 ∧ convertExpression found.2 = .ok read.2

/-- The conditions that are read of the converted text, each up to its next quotation mark, are the
converted tests exactly if no test stands for a text with a quotation mark. -/
theorem forall₂_hits_iff (h : convertConditions text = .ok out) :
    List.Forall₂ ReadsBack (condition.hits text) (condition.hits out) ↔
      ∀ found ∈ condition.hits text, DecodesUnquoted found.2 := by
  induction text using condition.searchInduction generalizing out with
  | nil =>
    rw [convertConditions, Pattern.replaceM_nil] at h
    obtain rfl := Except.ok.inj h
    simp
  | plain c text hrun ih =>
    obtain ⟨others, hothers, rfl⟩ := Pattern.exists_of_replaceM_plain hrun h
    rw [Pattern.hits_cons_of_run_eq_none hrun,
      Pattern.hits_cons_of_run_eq_none (run_convertConditions_eq_none hrun hothers)]
    exact ih hothers
  | hit text found rest hrun ih =>
    obtain ⟨written, others, hwrite, hothers, rfl⟩ := Pattern.exists_of_replaceM_hit hrun h
    obtain ⟨converted, hconverted, ⟨⟩⟩ := bind_eq_ok_iff.1 hwrite
    obtain ⟨tail, rfl, hfurther, hmany⟩ := exists_of_run_condition hrun
    obtain ⟨-, -, hrest⟩ := run_many1_quoted.1 hmany
    have hstart : upToQuote (converted ++ others) ≠ [] := by
      obtain ⟨expression, -, -, rfl⟩ := exists_of_convertExpression hconverted
      obtain ⟨c, more, hrender, rfl | rfl⟩ := expression.exists_render_cons <;>
          simp [upToQuote, hrender]
    have hread := run_condition hfurther (run_many1_quoted.2 ⟨hstart, rfl, rfl⟩)
    have hwhole : "<xf:" ++ (found.1 ++ "if is=\"") ++ (converted ++ others) =
      "<xf:" ++ found.1 ++ "if is=\"" ++ converted ++ others := by simp
    rw [← hwhole, Pattern.hits_of_run_eq_some hrun, Pattern.hits_of_run_eq_some hread,
      List.forall₂_cons, List.forall_mem_cons, ← quote_not_mem_iff hconverted]
    by_cases hquote : '"' ∈ converted
    · refine iff_of_false (fun h => ?_) fun h => h.1 hquote
      have hsame : upToQuote (converted ++ others) = converted :=
        Except.ok.inj (h.1.2.symm.trans hconverted)
      rw [← hsame] at hquote
      simpa using List.mem_takeWhile_imp hquote
    · -- The text behind the value begins with the quotation mark that the test ended with.
      have hbehind : ∀ c, others.head? = some c → decide (c ≠ '"') = false := by
        intro c hc
        have hstops := List.head?_dropWhile_not (fun c => decide (c ≠ '"')) tail
        rw [← hrest, ← head?_convertConditions hothers, hc] at hstops
        exact hstops
      have hall := Text.forall_ne_iff.2 hquote
      have hne : converted ≠ [] := by
        obtain ⟨expression, -, -, rfl⟩ := exists_of_convertExpression hconverted
        exact expression.render_ne_nil
      obtain ⟨-, hvalue, hothersEq⟩ := run_many1_quoted.1 (Reader.run_many1_append hne hall hbehind)
      rw [← hvalue, ← hothersEq, ih hothers]
      exact and_congr (iff_of_true ⟨rfl, hconverted⟩ hquote) Iff.rfl

end Template

end LazyEmbed
