import LazyEmbed.Proofs.Html.Kept
import LazyEmbed.Template.Expression

/-!
# Expressions as they are written

An expression of the source dialect may be written with character references in any place. Whatever
the spelling, it cannot hold a character that markup begins with: such a character would still be
there when the references are decoded, and no expression has it.
-/

namespace LazyEmbed.Template

def hintStart : Text := " data-s9e-livepreview"

theorem hintStart_eq : hintStart = ' ' :: ("data-s9e-livepreview" : Text) := by decide

theorem misses_hint_of_not_mem {text : Text} (h : ' ' ∉ text) (rest : Text) :
    Text.Misses hintStart text rest := by
  rw [hintStart_eq]
  exact Text.misses_of_not_mem h

def foreign : List Char := ['<', '&', '{', '}', '\n']

def IsName (name : Text) : Prop := name ≠ [] ∧ ∀ c ∈ name, Text.isWord c = true

def IsNumber (number : Text) : Prop := number ≠ [] ∧ ∀ c ∈ number, Text.isDecimal c = true

structure IsLiteral (literal : Text) : Prop where
  no_apostrophe : '\'' ∉ literal
  no_quote : '"' ∉ literal
  no_foreign : ∀ c ∈ foreign, c ∉ literal
  no_hint : ¬hintStart <:+: literal

namespace Expression

def source : Expression → Text
  | value name => "@" ++ name
  | equals name literal => "@" ++ name ++ "='" ++ literal ++ "'"
  | exceeds name number => "@" ++ name ++ ">" ++ number
  | ratio => "100*@height div@width"
  | paddedRatio extra => "100*(@height+" ++ extra ++ ")div@width"

section

variable (name literal number : Text)

theorem source_value : source (value name) = "@" ++ name := rfl

theorem source_equals : source (equals name literal) = "@" ++ name ++ "='" ++ literal ++ "'" := rfl

theorem source_exceeds : source (exceeds name number) = "@" ++ name ++ ">" ++ number := rfl

theorem source_paddedRatio :
    source (paddedRatio number) = "100*(@height+" ++ number ++ ")div@width" := rfl

theorem render_value : render (value name) = "$" ++ name := rfl

theorem render_equals : render (equals name literal) = "$" ++ name ++ "=='" ++ literal ++ "'" := rfl

theorem render_exceeds : render (exceeds name number) = "$" ++ name ++ ">" ++ number := rfl

theorem render_paddedRatio :
    render (paddedRatio number) = "100*($height+" ++ number ++ ")/$width" := rfl

end

def WellFormed : Expression → Prop
  | value name => IsName name
  | equals name literal => IsName name ∧ IsLiteral literal
  | exceeds name number => IsName name ∧ IsNumber number
  | ratio => True
  | paddedRatio extra => IsNumber extra

/-- An expression that can be read back from its text: names and numbers are not empty, and a
literal stays on its line. -/
def IsReadable : Expression → Prop
  | value name => IsName name
  | equals name literal => IsName name ∧ '\n' ∉ literal
  | exceeds name number => IsName name ∧ IsNumber number
  | ratio => True
  | paddedRatio extra => IsNumber extra

theorem WellFormed.isReadable {expression : Expression} (h : expression.WellFormed) :
    expression.IsReadable := by
  cases expression with
  | equals name literal => exact ⟨h.1, h.2.no_foreign '\n' (by decide)⟩
  | value | exceeds | ratio | paddedRatio => exact h

theorem run_attributeName {name : Text} (h : IsName name) {d : Char} (hd : Text.isWord d = false)
    (rest : Text) : attributeName.run ('@' :: (name ++ d :: rest)) = some (name, d :: rest) := by
  have hrun := Reader.run_many1_of_all h.1 h.2 hd rest
  simp [attributeName, hrun]

theorem run_attributeName_nil {name : Text} (h : IsName name) :
    attributeName.run ('@' :: name) = some (name, []) := by
  have hrun := Reader.run_many1_of_all_nil h.1 h.2
  simp [attributeName, hrun]

theorem readValue_name {name : Text} (h : IsName name) :
    readValue.run ('@' :: name) = some (value name, []) := by
  simp [readValue, run_attributeName_nil h]

/-- An apostrophe inside the literal does not end it, since more than nothing follows there. -/
theorem readEquals_literal {name literal : Text} (h : IsName name) (hliteral : '\n' ∉ literal) :
    readEquals.run ('@' :: (name ++ '=' :: '\'' :: (literal ++ ['\'']))) =
      some (equals name literal, []) := by
  have hname := run_attributeName h (d := '=') (by decide) ('\'' :: (literal ++ ['\'']))
  have hshortest : (Reader.shortest (· ≠ '\n') (do
      Reader.literal "'"
      Reader.ahead List.isEmpty)).run (literal ++ ['\'']) = some ((literal, ()), []) := by
    refine Reader.run_shortest_append (Text.forall_ne_iff.2 hliteral)
      (fun first second heq hne => ?_) rfl
    obtain ⟨c, second, rfl⟩ := List.exists_cons_of_ne_nil hne
    by_cases hc : c = '\''
    · simp [hc, Reader.literal, Text.afterStart?]
    · simp [Reader.literal, Text.afterStart?, Ne.symm hc]
  have hequals : (Reader.literal "='").run ('=' :: '\'' :: (literal ++ ['\''])) =
      some ((), literal ++ ['\'']) := Reader.run_literal_append "='" _
  simp only [readEquals, Reader.run_bind, hname, Option.bind_some, hequals, hshortest,
    Reader.run_pure]

theorem readExceeds_number {name number : Text} (h : IsName name) (hnumber : IsNumber number) :
    readExceeds.run ('@' :: (name ++ '>' :: number)) = some (exceeds name number, []) := by
  have hname := run_attributeName h (d := '>') (by decide) number
  have hmany := Reader.run_many1_of_all_nil hnumber.1 hnumber.2
  simp [readExceeds, hname, hmany]

theorem readPaddedRatio_number {extra : Text} (h : IsNumber extra) :
    readPaddedRatio.run ("100*(@height+" ++ (extra ++ ")div@width")) =
      some (paddedRatio extra, []) := by
  have hmany : (Reader.many1 Text.isDecimal).run (extra ++ ")div@width") =
      some (extra, (")div@width" : Text)) :=
    Reader.run_many1_of_all h.1 h.2 (d := ')') (by decide) "div@width"
  have hliteral : (Reader.literal ")div@width").run ")div@width" = some ((), []) := by decide
  refine Reader.run_bind_eq_some_iff.2 ⟨_, _, Reader.run_literal_append "100*(@height+" _, ?_⟩
  refine Reader.run_bind_eq_some_iff.2 ⟨_, _, hmany, ?_⟩
  exact Reader.run_bind_eq_some_iff.2 ⟨_, _, hliteral, rfl⟩

theorem whole?_readValue {name : Text} (h : IsName name) {d : Char} (hd : Text.isWord d = false)
    (rest : Text) : readValue.whole? ('@' :: (name ++ d :: rest)) = none := by
  simp [Reader.whole?, readValue, run_attributeName h hd]

theorem whole?_readEquals {name : Text} (h : IsName name) {d : Char} (hd : Text.isWord d = false)
    (hequals : d ≠ '=') (rest : Text) : readEquals.whole? ('@' :: (name ++ d :: rest)) = none := by
  simp [Reader.whole?, readEquals, run_attributeName h hd, Reader.literal, Text.afterStart?,
    Ne.symm hequals]

/-- What does not begin with a sign is read by the last two readers alone. -/
theorem read?_digit (text : Text) :
    read? ('1' :: text) = [readRatio, readPaddedRatio].findSome? (·.whole? ('1' :: text)) := by
  have hname : attributeName.run ('1' :: text) = none := rfl
  have hvalue : readValue.whole? ('1' :: text) = none := by simp [Reader.whole?, readValue, hname]
  have hequals : readEquals.whole? ('1' :: text) = none := by
    simp [Reader.whole?, readEquals, hname]
  have hexceeds : readExceeds.whole? ('1' :: text) = none := by
    simp [Reader.whole?, readExceeds, hname]
  simp only [read?, List.findSome?_cons, hvalue, hequals, hexceeds]

/-- An expression of a readable form is read back from its own text. -/
theorem read?_source {expression : Expression} (h : expression.IsReadable) :
    read? expression.source = some expression := by
  cases expression with
  | value name =>
    have hname : IsName name := h
    have hsource : source (value name) = '@' :: name := by simp [source_value]
    have hvalue := Reader.whole?_eq_some_iff.2 (readValue_name hname)
    rw [hsource]
    simp only [read?, List.findSome?_cons, hvalue]
  | equals name literal =>
    obtain ⟨hname, hliteral⟩ : IsName name ∧ '\n' ∉ literal := h
    have hsource : source (equals name literal) =
        '@' :: (name ++ '=' :: '\'' :: (literal ++ ['\''])) := by simp [source_equals]
    have hvalue := whole?_readValue hname (d := '=') (by decide) ('\'' :: (literal ++ ['\'']))
    have hequals := Reader.whole?_eq_some_iff.2 (readEquals_literal hname hliteral)
    rw [hsource]
    simp only [read?, List.findSome?_cons, hvalue, hequals]
  | exceeds name number =>
    obtain ⟨hname, hnumber⟩ : IsName name ∧ IsNumber number := h
    have hsource : source (exceeds name number) = '@' :: (name ++ '>' :: number) := by
      simp [source_exceeds]
    have hvalue := whole?_readValue hname (d := '>') (by decide) number
    have hequals := whole?_readEquals hname (d := '>') (by decide) (by decide) number
    have hexceeds := Reader.whole?_eq_some_iff.2 (readExceeds_number hname hnumber)
    rw [hsource]
    simp only [read?, List.findSome?_cons, hvalue, hequals, hexceeds]
  | ratio => decide
  | paddedRatio extra =>
    have hnumber : IsNumber extra := h
    have hsource : source (paddedRatio extra) = "100*(@height+" ++ (extra ++ ")div@width") := by
      rw [source_paddedRatio, List.append_assoc]
    have hstart : ("100*(@height+" : Text) = '1' :: ("00*(@height+" : Text) := by decide
    have hratio : readRatio.whole? ("100*(@height+" ++ (extra ++ ")div@width")) = none := by
      simp [Reader.whole?, readRatio, Reader.literal, Text.afterStart?]
    have hpadded := Reader.whole?_eq_some_iff.2 (readPaddedRatio_number hnumber)
    rw [hsource]
    rw [hstart, List.cons_append] at hratio hpadded ⊢
    rw [read?_digit]
    simp only [List.findSome?_cons, hratio, hpadded]

/-! ### What is read -/

section

variable {text rest : Text} {found : Expression}

theorem eq_append_of_run_attributeName {name : Text}
    (h : attributeName.run text = some (name, rest)) :
    IsName name ∧ text = "@" ++ (name ++ rest) := by
  obtain ⟨_, left, hsign, hname⟩ := Reader.run_bind_eq_some_iff.1 h
  obtain ⟨rfl, hisName⟩ := Reader.eq_append_of_run_many1 hname
  exact ⟨hisName, Reader.run_literal_eq_some_iff.1 hsign⟩

theorem readValue_sound (h : readValue.run text = some (found, [])) :
    found.IsReadable ∧ text = found.source := by
  obtain ⟨name, left, hname, hpure⟩ := Reader.run_bind_eq_some_iff.1 h
  obtain ⟨rfl, rfl⟩ : value name = found ∧ left = [] := by simpa using hpure
  obtain ⟨hisName, rfl⟩ := eq_append_of_run_attributeName hname
  exact ⟨hisName, by simp [source_value]⟩

theorem readEquals_sound (h : readEquals.run text = some (found, [])) :
    found.IsReadable ∧ text = found.source := by
  obtain ⟨name, left, hname, h⟩ := Reader.run_bind_eq_some_iff.1 h
  obtain ⟨_, left, hequals, h⟩ := Reader.run_bind_eq_some_iff.1 h
  obtain ⟨⟨literal, _⟩, left, hliteral, hpure⟩ := Reader.run_bind_eq_some_iff.1 h
  obtain ⟨rfl, rfl⟩ : equals name literal = found ∧ left = [] := by simpa using hpure
  obtain ⟨hisName, rfl⟩ := eq_append_of_run_attributeName hname
  obtain ⟨after, rfl, hstop, hline⟩ := Reader.shortestRun_eq_some hliteral
  obtain ⟨_, left, hquote, hend⟩ := Reader.run_bind_eq_some_iff.1 hstop
  obtain rfl : left = [] := by simpa using hend
  rw [Reader.run_literal_eq_some_iff.1 hquote] at hequals
  refine ⟨⟨hisName, fun hmem => by simpa using hline _ hmem⟩, ?_⟩
  rw [Reader.run_literal_eq_some_iff.1 hequals, source_equals]
  simp

theorem readExceeds_sound (h : readExceeds.run text = some (found, [])) :
    found.IsReadable ∧ text = found.source := by
  obtain ⟨name, left, hname, h⟩ := Reader.run_bind_eq_some_iff.1 h
  obtain ⟨_, left, hexceeds, h⟩ := Reader.run_bind_eq_some_iff.1 h
  obtain ⟨number, left, hnumber, hpure⟩ := Reader.run_bind_eq_some_iff.1 h
  obtain ⟨rfl, rfl⟩ : exceeds name number = found ∧ left = [] := by simpa using hpure
  obtain ⟨hisName, rfl⟩ := eq_append_of_run_attributeName hname
  obtain ⟨rfl, hisNumber⟩ := Reader.eq_append_of_run_many1 hnumber
  refine ⟨⟨hisName, hisNumber⟩, ?_⟩
  rw [Reader.run_literal_eq_some_iff.1 hexceeds, source_exceeds]
  simp

theorem readRatio_sound (h : readRatio.run text = some (found, [])) :
    found.IsReadable ∧ text = found.source := by
  obtain ⟨_, left, hratio, hpure⟩ := Reader.run_bind_eq_some_iff.1 h
  obtain ⟨rfl, rfl⟩ : ratio = found ∧ left = [] := by simpa using hpure
  exact ⟨trivial, by rw [Reader.run_literal_eq_some_iff.1 hratio, List.append_nil]; rfl⟩

theorem readPaddedRatio_sound (h : readPaddedRatio.run text = some (found, [])) :
    found.IsReadable ∧ text = found.source := by
  obtain ⟨_, left, hopen, h⟩ := Reader.run_bind_eq_some_iff.1 h
  obtain ⟨extra, left, hextra, h⟩ := Reader.run_bind_eq_some_iff.1 h
  obtain ⟨_, left, hclose, hpure⟩ := Reader.run_bind_eq_some_iff.1 h
  obtain ⟨rfl, rfl⟩ : paddedRatio extra = found ∧ left = [] := by simpa using hpure
  obtain ⟨rfl, hisNumber⟩ := Reader.eq_append_of_run_many1 hextra
  refine ⟨hisNumber, ?_⟩
  rw [Reader.run_literal_eq_some_iff.1 hopen, Reader.run_literal_eq_some_iff.1 hclose,
    source_paddedRatio, List.append_nil, List.append_assoc]

/-- The texts that are read are the texts of the readable expressions, and each is read for its own
expression. -/
theorem read?_eq_some_iff : read? text = some found ↔ found.IsReadable ∧ text = found.source := by
  constructor
  · intro h
    obtain ⟨reader, hreader, hwhole⟩ := List.exists_of_findSome?_eq_some h
    have hrun := Reader.whole?_eq_some_iff.1 hwhole
    simp only [List.mem_cons, List.not_mem_nil, or_false] at hreader
    obtain rfl | rfl | rfl | rfl | rfl := hreader
    · exact readValue_sound hrun
    · exact readEquals_sound hrun
    · exact readExceeds_sound hrun
    · exact readRatio_sound hrun
    · exact readPaddedRatio_sound hrun
  · rintro ⟨hreadable, rfl⟩
    exact read?_source hreadable

end

end Expression

/-! ### What spellings are free of -/

abbrev IsClean (text : Text) : Prop := Text.Lacks foreign text

theorem IsName.lacks {name : Text} (h : IsName name) {chars : List Char}
    (hchars : ∀ c ∈ chars, Text.isWord c = false) : Text.Lacks chars name :=
  Text.lacks_of_forall h.2 hchars

theorem IsNumber.lacks {number : Text} (h : IsNumber number) {chars : List Char}
    (hchars : ∀ c ∈ chars, Text.isDecimal c = false) : Text.Lacks chars number :=
  Text.lacks_of_forall h.2 hchars

theorem IsName.isClean {name : Text} (h : IsName name) : IsClean name := h.lacks (by decide)

theorem IsNumber.isClean {number : Text} (h : IsNumber number) : IsClean number :=
  h.lacks (by decide)

namespace Expression

/-- Neither way of writing an expression holds a character of its surroundings. -/
theorem isClean {expression : Expression} (h : expression.WellFormed) :
    IsClean expression.source ∧ IsClean expression.render := by
  cases expression with
  | value name =>
    have hname : IsClean name := IsName.isClean h
    exact ⟨.append (by decide) hname, .append (by decide) hname⟩
  | equals name literal =>
    obtain ⟨hname, hliteral⟩ : IsName name ∧ IsLiteral literal := h
    have hspelled : ∀ sign between : Text, IsClean sign → IsClean between →
        IsClean (sign ++ name ++ between ++ literal ++ "'") := fun _ _ hsign hbetween =>
      (((hsign.append hname.isClean).append hbetween).append hliteral.no_foreign).append (by decide)
    exact ⟨hspelled "@" "='" (by decide) (by decide), hspelled "$" "=='" (by decide) (by decide)⟩
  | exceeds name number =>
    obtain ⟨hname, hnumber⟩ : IsName name ∧ IsNumber number := h
    have hspelled : ∀ sign : Text, IsClean sign → IsClean (sign ++ name ++ ">" ++ number) :=
      fun _ hsign => ((hsign.append hname.isClean).append (by decide)).append hnumber.isClean
    exact ⟨hspelled "@" (by decide), hspelled "$" (by decide)⟩
  | ratio => decide
  | paddedRatio extra =>
    have hextra : IsClean extra := IsNumber.isClean h
    exact ⟨(Text.Lacks.append (by decide) hextra).append (by decide),
      (Text.Lacks.append (by decide) hextra).append (by decide)⟩

/-- A condition never holds the beginning of a hint. -/
theorem no_hint_source {expression : Expression} (h : expression.WellFormed) :
    ¬hintStart <:+: expression.source := by
  have hblank : ∀ {text : Text}, ' ' ∉ text → ¬hintStart <:+: text := by
    intro text hmem hinside
    exact hmem (hinside.subset (by decide))
  have hname : ∀ {name : Text}, IsName name → ' ' ∉ name := fun hname hmem =>
    absurd (hname.2 ' ' hmem) (by decide)
  have hnumber : ∀ {number : Text}, IsNumber number → ' ' ∉ number := fun hnumber hmem =>
    absurd (hnumber.2 ' ' hmem) (by decide)
  cases expression with
  | value name =>
    refine hblank ?_
    simpa [source_value] using hname h
  | equals name literal =>
    obtain ⟨hisName, hliteral⟩ : IsName name ∧ IsLiteral literal := h
    have hbefore : ' ' ∉ ("@" ++ name ++ "='" : Text) := by simpa using hname hisName
    have hliteral : Text.Misses hintStart literal ['\''] := by
      refine Text.misses_of_not_isInfix hliteral.no_hint fun c hc => ?_
      obtain rfl : '\'' = c := by simpa using hc
      decide
    have hopen : Text.Misses hintStart ("@" ++ name ++ "='" ++ literal) ['\''] :=
      (misses_hint_of_not_mem hbefore _).append hliteral
    exact (hopen.append (misses_hint_of_not_mem (by decide) [])).not_isInfix (by decide)
  | exceeds name number =>
    obtain ⟨hisName, hisNumber⟩ : IsName name ∧ IsNumber number := h
    refine hblank ?_
    simpa [source_exceeds] using ⟨hname hisName, hnumber hisNumber⟩
  | ratio =>
    rw [← Text.contains_iff]
    decide
  | paddedRatio extra =>
    have hisNumber : IsNumber extra := h
    refine hblank ?_
    simpa [source_paddedRatio] using hnumber hisNumber

end Expression

/-! ### Spellings -/

/-- A spelling of an expression, as it stands in an attribute between double quotes. -/
structure Spelling where
  text : Text
  expression : Expression
  decodes : Html.decodeReferences text = .ok expression.source
  wellFormed : expression.WellFormed
  no_quote : '"' ∉ text

namespace Spelling

variable (spelling : Spelling)

theorem convertExpression_text :
    convertExpression spelling.text = .ok spelling.expression.render := by
  rw [convertExpression, spelling.decodes]
  simp only [Except.mapError, bind, Except.bind,
    Expression.read?_source spelling.wellFormed.isReadable]
  rfl

theorem not_mem_text {c : Char} (hc : c ∈ foreign) (hbarrier : Html.IsBarrier c) :
    c ∉ spelling.text := fun hmem =>
  (Expression.isClean spelling.wellFormed).1 c hc
    (Html.mem_of_decodeReferences spelling.decodes hbarrier hmem)

theorem no_hint_text : ¬hintStart <:+: spelling.text := by
  intro hinside
  refine Expression.no_hint_source spelling.wellFormed ?_
  rw [hintStart_eq] at hinside ⊢
  exact Html.infix_of_decodeReferences spelling.decodes (by decide) hinside

theorem text_ne_nil : spelling.text ≠ [] := by
  intro hnil
  have hdecodes := spelling.decodes
  rw [hnil, Html.decodeReferences_nil] at hdecodes
  have hread := Expression.read?_source spelling.wellFormed.isReadable
  have hnone : Expression.read? [] = none := by decide
  rw [← Except.ok.inj hdecodes, hnone] at hread
  simp at hread

end Spelling

end LazyEmbed.Template
