import LazyEmbed.Html.StartTag
import LazyEmbed.Proofs.Text.Reading

/-!
# Start tags whose values are quoted

The reader of start tags is tolerant, but where every attribute is written as a blank, a name, an
equals sign and a value between quotes, there is nothing to tolerate: it finds these attributes and
no others, in the same order, with the values as they are written.
-/

namespace LazyEmbed.Html

structure QuotedAttribute where
  name : Text
  quote : Char
  value : Text

namespace QuotedAttribute

/-- The attribute ends where its second quote is, and its name where the equals sign is. -/
structure WellFormed (entry : QuotedAttribute) : Prop where
  name_ne_nil : entry.name ≠ []
  name_char : ∀ c ∈ entry.name, (Text.isBlank c || c = '/' || c = '=' || c = '>') = false
  isQuote : entry.quote = '"' ∨ entry.quote = '\''
  no_quote : entry.quote ∉ entry.value

def text (entry : QuotedAttribute) : Text :=
  entry.name ++ '=' :: entry.quote :: (entry.value ++ [entry.quote])

def raw (entry : QuotedAttribute) : Text × Option Text :=
  (entry.name, some entry.value)

end QuotedAttribute

def quotedTexts (attributes : List QuotedAttribute) : Text :=
  attributes.flatMap fun entry => ' ' :: entry.text

end LazyEmbed.Html

namespace LazyEmbed.Html.RawTag

variable {rest : Text}

/-! ### Gaps -/

theorem run_gapChar_eq_none {c : Char} (hblank : Text.isBlank c = false) (hslash : c ≠ '/')
    (text : Text) : gapChar.run (c :: text) = none := by
  simp [gapChar, Reader.char, hblank, hslash]

theorem run_gap_bracket (text : Text) : gap.run ('>' :: text) = some (false, '>' :: text) := by
  have hnone := run_gapChar_eq_none (c := '>') (by decide) (by decide) text
  simp only [gap, Reader.run_bind, Reader.unfold]
  rw [Reader.unfoldRun_of_run_eq_none]
  · rfl
  · rw [Reader.run_bind, hnone]
    rfl

theorem run_gap_blank {c : Char} (hblank : Text.isBlank c = false) (hslash : c ≠ '/')
    (text : Text) : gap.run (' ' :: c :: text) = some (true, c :: text) := by
  have hnone := run_gapChar_eq_none hblank hslash text
  simp only [gap, Reader.run_bind, Reader.unfold]
  have hblank : (do let c ← gapChar; pure (c, ())).run (' ' :: c :: text) =
      some ((' ', ()), c :: text) := rfl
  rw [Reader.unfoldRun_of_run_eq_some _ hblank, Reader.unfoldRun_of_run_eq_none]
  · rfl
  · rw [Reader.run_bind, hnone]
    rfl

/-! ### One attribute -/

theorem run_quoted {quote : Char} {text : Text} (h : quote ∉ text) (rest : Text) :
    (quoted quote).run (quote :: (text ++ quote :: rest)) = some (text, rest) := by
  simp only [quoted, Reader.run_bind, Reader.run_literal_singleton, Option.bind_some,
    Reader.run_many_ne h, Reader.run_pure]

theorem run_value {entry : QuotedAttribute} (h : entry.WellFormed) (rest : Text) :
    value.run ('=' :: entry.quote :: (entry.value ++ entry.quote :: rest)) =
      some ((entry.value, true), rest) := by
  have hquoted := run_quoted h.no_quote rest
  have hequals : Text.isBlank '=' = false := by decide
  obtain hquote | hquote := h.isQuote
  · rw [hquote] at hquoted ⊢
    have hblank : Text.isBlank '"' = false := by decide
    have hother : (quoted '\'').run ('"' :: (entry.value ++ '"' :: rest)) = none := rfl
    simp [value, Reader.oneOf, Reader.run_many1, hequals, hblank, hquoted, hother]
  · rw [hquote] at hquoted ⊢
    have hblank : Text.isBlank '\'' = false := by decide
    simp [value, Reader.oneOf, Reader.run_many1, hequals, hblank, hquoted]

theorem run_attribute? {entry : QuotedAttribute} (h : entry.WellFormed) {behind : Text}
    {apart : Bool} (hgap : gap.run behind = some (apart, rest)) :
    (attribute? true).run (entry.text ++ behind) = some ((entry.raw, true), rest) := by
  obtain ⟨first, others, hname⟩ := List.exists_cons_of_ne_nil h.name_ne_nil
  have hchar := h.name_char
  rw [hname, List.forall_mem_cons] at hchar
  obtain ⟨hfirst, hothers⟩ := hchar
  have htest : ∀ c ∈ others, (!(Text.isBlank c || c = '/' || c = '=' || c = '>')) = true :=
    fun c hc => by rw [hothers c hc]; rfl
  have hstop : (!(Text.isBlank '=' || '=' = '/' || '=' = '=' || '=' = '>')) = false := by decide
  have hvalue := Reader.run_optional_of_run_eq_some (run_value h behind)
  have htext : entry.text ++ behind = first :: (others ++
      '=' :: (entry.quote :: (entry.value ++ entry.quote :: behind))) := by
    simp [QuotedAttribute.text, hname]
  have hone : (Reader.char fun c => !(Text.isBlank c || c = '/' || c = '>')).run
      (entry.text ++ behind) = some (first, others ++
        '=' :: (entry.quote :: (entry.value ++ entry.quote :: behind))) := by
    rw [htext]
    refine Reader.run_char_eq_some_iff.2 ⟨?_, rfl⟩
    simp only [Bool.or_eq_false_iff] at hfirst
    simp [hfirst]
  have hmany : (Reader.many fun c => !(Text.isBlank c || c = '/' || c = '=' || c = '>')).run
      (others ++ '=' :: (entry.quote :: (entry.value ++ entry.quote :: behind))) =
        some (others, '=' :: (entry.quote :: (entry.value ++ entry.quote :: behind))) :=
    Reader.run_many_of_all htest hstop _
  simp only [attribute?, Reader.run_bind, Reader.run_guard, if_true, Option.bind_some, hone, hmany,
    hvalue, hgap, Reader.run_pure, QuotedAttribute.raw, hname, Option.map_some, Bool.or_true]

theorem run_attribute?_bracket (free : Bool) (text : Text) :
    (attribute? free).run ('>' :: text) = none := by
  cases free <;> rfl

/-! ### The tag -/

theorem run_gap_text {entry : QuotedAttribute} (h : entry.WellFormed) (behind : Text) :
    gap.run (' ' :: (entry.text ++ behind)) = some (true, entry.text ++ behind) := by
  obtain ⟨first, others, hname⟩ := List.exists_cons_of_ne_nil h.name_ne_nil
  have hfirst := h.name_char first (hname ▸ List.mem_cons_self)
  simp only [Bool.or_eq_false_iff, decide_eq_false_iff_not] at hfirst
  rw [QuotedAttribute.text, hname]
  exact run_gap_blank hfirst.1.1.1 hfirst.1.1.2 _

/-- Behind a gap all attributes are read, up to the bracket. -/
theorem exists_run_gap {attributes : List QuotedAttribute}
    (h : ∀ entry ∈ attributes, entry.WellFormed) (text : Text) :
    ∃ left, gap.run (quotedTexts attributes ++ '>' :: text) = some (!attributes.isEmpty, left) ∧
      ∀ free : Bool, (attributes ≠ [] → free = true) →
        Reader.unfoldRun attribute? consumes_attribute? free left =
          (attributes.map QuotedAttribute.raw, '>' :: text) := by
  induction attributes with
  | nil =>
    exact ⟨'>' :: text, run_gap_bracket text, fun free _ =>
      Reader.unfoldRun_of_run_eq_none _ (run_attribute?_bracket free text)⟩
  | cons entry attributes ih =>
    obtain ⟨hentry, hothers⟩ := List.forall_mem_cons.1 h
    obtain ⟨left, hgap, hunfold⟩ := ih hothers
    refine ⟨entry.text ++ (quotedTexts attributes ++ '>' :: text), ?_, fun free hfree => ?_⟩
    · have hrun := run_gap_text hentry (quotedTexts attributes ++ '>' :: text)
      rw [quotedTexts, List.flatMap_cons, List.cons_append, List.cons_append, List.append_assoc]
      exact hrun
    · rw [hfree (List.cons_ne_nil _ _),
        Reader.unfoldRun_of_run_eq_some _ (run_attribute? hentry hgap), hunfold true fun _ => rfl]
      rfl

def IsTagName (name : Text) : Prop :=
  ∃ first others, name = first :: others ∧ first.isAlpha = true ∧ ∀ c ∈ others, isNameChar c = true

/-- A tag written with quoted attributes is read with those attributes, in order. -/
theorem run_reader {name : Text} (hname : IsTagName name) {attributes : List QuotedAttribute}
    (h : ∀ entry ∈ attributes, entry.WellFormed) (rest : Text) :
    reader.run (name ++ (quotedTexts attributes ++ '>' :: rest)) =
      some (⟨name, attributes.map QuotedAttribute.raw, .opened⟩, rest) := by
  obtain ⟨first, others, rfl, hfirst, hothers⟩ := hname
  obtain ⟨left, hgap, hunfold⟩ := exists_run_gap h rest
  have hstop : ∃ d behind, quotedTexts attributes ++ '>' :: rest = d :: behind ∧
      isNameChar d = false := by
    cases attributes with
    | nil => exact ⟨'>', rest, rfl, by decide⟩
    | cons entry attributes => exact ⟨' ', _, rfl, by decide⟩
  obtain ⟨d, behind, hbehind, hd⟩ := hstop
  have hchar : (Reader.char Char.isAlpha).run (first :: (others ++ d :: behind)) =
      some (first, others ++ d :: behind) := Reader.run_char_eq_some_iff.2 ⟨hfirst, rfl⟩
  have hmany : (Reader.many isNameChar).run (others ++ d :: behind) = some (others, d :: behind) :=
    Reader.run_many_of_all hothers hd behind
  have hattributes : ∀ free : Bool, (attributes ≠ [] → free = true) →
      (Reader.unfold attribute? consumes_attribute? free).run left =
        some (attributes.map QuotedAttribute.raw, '>' :: rest) := fun free hfree =>
    congrArg some (hunfold free hfree)
  rw [hbehind] at hgap ⊢
  simp only [reader, Reader.run_bind, List.cons_append, hchar, hmany, hgap, Option.bind_some]
  rw [hattributes _ (fun hne => by simp [hne])]
  rfl

end LazyEmbed.Html.RawTag
