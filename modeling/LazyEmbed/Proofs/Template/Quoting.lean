import LazyEmbed.Proofs.Template.Expression
import LazyEmbed.Proofs.Text.Octets
import LazyEmbed.Template.MixedContent

/-!
# Mixed content is quoted

Each pass of the conversion of mixed content is a search of its own, and each finds just the parts
it is meant for: braces stand in variables and expressions alone, and while the literal text is
quoted an expression is letters of the Base64 alphabet between marks. So all passes together write
every part for itself, between the quotes that the text as a whole gets.
-/

namespace LazyEmbed.Template

/-- What can stand between double braces: it begins and ends with a character that is not blank, and
the closing braces are not in it. -/
structure IsExpression (text : Text) : Prop where
  first : ∃ c rest, text = c :: rest ∧ Text.isBlank c = false
  last : ∃ before c, text = before ++ [c] ∧ Text.isBlank c = false
  no_line : '\n' ∉ text
  no_close : ¬("\x7d\x7d" : Text) <:+: text

inductive Part where
  | literal (text : Text)
  | reference (name : Text)
  | expression (text : Text)

namespace MixedContent

def escapeChar : Char → Text
  | '\\' => "\\\\"
  | '\'' => "\\'"
  | c => [c]

def escape (text : Text) : Text := text.flatMap escapeChar

theorem quote_eq (text : Text) : quote text = '\'' :: (escape text ++ ['\'']) := rfl

theorem escapeChar_of_ne {c : Char} (hbackslash : c ≠ '\\') (hquote : c ≠ '\'') :
    escapeChar c = [c] := by
  unfold escapeChar
  split
  · exact absurd rfl hbackslash
  · exact absurd rfl hquote
  · rfl

theorem escape_append (first second : Text) :
    escape (first ++ second) = escape first ++ escape second := List.flatMap_append

theorem escape_eq_self {text : Text} (h : ∀ c ∈ text, c ≠ '\\' ∧ c ≠ '\'') :
    escape text = text := by
  induction text with
  | nil => rfl
  | cons c text ih =>
    obtain ⟨hc, htext⟩ := List.forall_mem_cons.1 h
    rw [escape, List.flatMap_cons, ← escape, escapeChar_of_ne hc.1 hc.2, ih htext]
    rfl

theorem mem_escape {text : Text} {c : Char} (h : c ∈ escape text) : c ∈ text ∨ c = '\\' := by
  obtain ⟨d, hd, hc⟩ := List.mem_flatMap.1 h
  unfold escapeChar at hc
  split at hc
  · exact .inr (by simpa using hc)
  · obtain rfl | rfl : c = '\\' ∨ c = '\'' := by simpa using hc
    · exact .inr rfl
    · exact .inl hd
  · exact .inl (List.mem_singleton.1 hc ▸ hd)

end MixedContent

open MixedContent

namespace Part

def source : Part → Text
  | literal text => text
  | reference name => "\x7b$" ++ name ++ "\x7d"
  | expression text => "\x7b\x7b " ++ text ++ " \x7d\x7d"

@[simp]
theorem source_literal (text : Text) : (literal text).source = text := rfl

@[simp]
theorem source_reference (name : Text) : (reference name).source = "\x7b$" ++ name ++ "\x7d" := rfl

@[simp]
theorem source_expression (text : Text) :
    (expression text).source = "\x7b\x7b " ++ text ++ " \x7d\x7d" := rfl

def term : Part → Text
  | literal text => quote text
  | reference name => "$" ++ name
  | expression text => "(" ++ text ++ ")"

def WellFormed : Part → Prop
  | literal text => '\x7b' ∉ text ∧ '\x7d' ∉ text ∧ mark ∉ text
  | reference name => IsName name
  | expression text => IsExpression text

def hidden : Part → Text
  | expression text => hide text
  | part => part.source

def quoted : Part → Text
  | literal text => escape text
  | part => part.hidden

def spliced : Part → Text
  | literal text => escape text
  | reference name => splice ("$" ++ name)
  | expression text => hide text

def covered : Part → Text
  | literal text => escape text
  | reference name => splice (reference name).term
  | expression text => splice (expression text).term

end Part

namespace MixedContent

/-! ### Hiding -/

theorem hide_eq (text : Text) :
    hide text = mark :: (Base64.encode (Utf8.encode text) ++ [mark]) := rfl

/-- No character of a hidden expression takes part in quoting. -/
theorem not_mem_hide {c : Char} (hmark : c ≠ mark) (hpadding : c ≠ '=')
    (hletter : ∀ n < 64, c ≠ Base64.letter n) (text : Text) : c ∉ hide text := by
  intro hmem
  rw [hide_eq, List.mem_cons, List.mem_append, List.mem_singleton] at hmem
  obtain hc | hc | hc := hmem
  · exact hmark hc
  · exact Base64.forall_mem_encode hpadding hletter _ c hc rfl
  · exact hmark hc

theorem openBrace_not_mem_hide (text : Text) : '\x7b' ∉ hide text :=
  not_mem_hide (by decide) (by decide) (by decide) text

theorem escape_hide (text : Text) : escape (hide text) = hide text := by
  refine escape_eq_self fun c hc => ⟨?_, ?_⟩
  · rintro rfl
    exact not_mem_hide (by decide) (by decide) (by decide) text hc
  · rintro rfl
    exact not_mem_hide (by decide) (by decide) (by decide) text hc

def close : Reader Unit := do
  let _ ← Reader.many Text.isBlank
  Reader.literal "\x7d\x7d"

/-- An expression goes on to its last character. -/
theorem run_close_eq_none {text first second : Text} (h : IsExpression text)
    (heq : text = first ++ second) (hne : second ≠ []) (rest : Text) :
    close.run (second ++ (" \x7d\x7d" ++ rest)) = none := by
  obtain ⟨before, c, hlast, hc⟩ := h.last
  have hmem : c ∈ second := by
    have hsuffix : second <:+ before ++ [c] := ⟨first, by rw [← heq, hlast]⟩
    obtain hnil | ⟨more, rfl, -⟩ := List.suffix_concat_iff.1 hsuffix
    · exact absurd hnil hne
    · exact List.mem_append_right more List.mem_cons_self
  -- What follows the blanks is in the expression, and the closing braces are not.
  obtain ⟨d, left, hdrop⟩ : ∃ d left, second.dropWhile Text.isBlank = d :: left := by
    refine List.exists_cons_of_ne_nil fun hnil => ?_
    rw [List.dropWhile_eq_nil_iff.1 hnil c hmem] at hc
    exact Bool.noConfusion hc
  have hsplit : second = second.takeWhile Text.isBlank ++ d :: left := by
    rw [← hdrop, List.takeWhile_append_dropWhile]
  have hd : Text.isBlank d = false := by
    have hhead := List.head?_dropWhile_not Text.isBlank second
    simpa [hdrop] using hhead
  have hinside : ¬("\x7d\x7d" : Text) <:+: d :: left := fun hwithin => by
    refine h.no_close (hwithin.trans ?_)
    rw [heq, hsplit]
    exact (List.suffix_append_of_suffix (List.suffix_append _ _)).isInfix
  have hmisses : Text.Misses "\x7d\x7d" (d :: left) (" \x7d\x7d" ++ rest) := by
    refine Text.misses_of_not_isInfix hinside fun e he => ?_
    obtain rfl : ' ' = e := by simpa using he
    decide
  have hall : ∀ e ∈ second.takeWhile Text.isBlank, Text.isBlank e = true := fun e he =>
    List.mem_takeWhile_imp he
  have hblanks : (second ++ (" \x7d\x7d" ++ rest)).dropWhile Text.isBlank =
      d :: (left ++ (" \x7d\x7d" ++ rest)) := by
    rw [hsplit, List.append_assoc, List.cons_append, Text.dropWhile_of_all hall hd]
  rw [close, Reader.run_bind, Reader.run_many, hblanks, Option.bind_some,
    Option.eq_none_iff_forall_ne_some]
  rintro ⟨_, behind⟩ hrun
  exact hmisses.not_prefix ⟨behind, (Reader.run_literal_eq_some_iff.1 hrun).symm⟩

theorem run_expression {text : Text} (h : IsExpression text) (rest : Text) :
    expression.reader.run ("\x7b\x7b " ++ (text ++ (" \x7d\x7d" ++ rest))) = some (text, rest) := by
  obtain ⟨c, behind, hfirst, hc⟩ := h.first
  have hblanks : (Reader.many Text.isBlank).run (" " ++ (text ++ (" \x7d\x7d" ++ rest))) =
      some ([' '], text ++ (" \x7d\x7d" ++ rest)) := by
    have hspace : Text.isBlank ' ' = true := by decide
    rw [Reader.run_many, hfirst]
    simp [hc, hspace]
  have hshortest : (Reader.shortest (· ≠ '\n') (do
      let _ ← Reader.many Text.isBlank
      Reader.literal "\x7d\x7d")).run (text ++ (" \x7d\x7d" ++ rest)) =
        some ((text, ()), rest) := by
    refine Reader.run_shortest_append ?_ ?_ ?_
    · exact fun d hd => by simpa using ne_of_mem_of_not_mem hd h.no_line
    · intro first second heq hne
      exact run_close_eq_none h heq hne rest
    · rfl
  have hopen : ("\x7b\x7b " : Text) ++ (text ++ (" \x7d\x7d" ++ rest)) =
      "\x7b\x7b" ++ (" " ++ (text ++ (" \x7d\x7d" ++ rest))) := rfl
  rw [hopen, expression, Pattern.run_after_append]
  simp only [Reader.run_bind, hblanks, Option.bind_some]
  rw [hshortest]
  rfl

theorem reveal_hidden (text : Text) : reveal (Base64.encode (Utf8.encode text)) = .ok text := by
  have hascii : (Base64.encode (Utf8.encode text)).any (128 ≤ ·.toNat) = false := by
    rw [List.any_eq_false]
    exact Base64.forall_mem_encode (by decide) (by decide) _
  simp only [reveal, hascii, Base64.decode_encode, Utf8.decode_encode]
  rfl

theorem run_token {text : Text} (h : text ≠ []) (rest : Text) :
    token.reader.run (hide text ++ rest) = some (Base64.encode (Utf8.encode text), rest) := by
  have hmarked : ∀ c ∈ Base64.encode (Utf8.encode text), decide (c ≠ mark) = true :=
    Base64.forall_mem_encode (by decide) (by decide) _
  have hletters := Reader.run_many1_of_all (Base64.encode_ne_nil (Utf8.encode_ne_nil h)) hmarked
    (d := mark) (by decide) rest
  have hhide : hide text ++ rest =
      [mark] ++ (Base64.encode (Utf8.encode text) ++ mark :: rest) := by simp [hide_eq]
  rw [hhide, token, Pattern.run_after_append]
  simp only [Reader.run_bind, hletters, Option.bind_some, Reader.run_literal_singleton,
    Reader.run_pure]

end MixedContent

/-! ### The passes, part by part -/

namespace Part

/-- A variable is not taken for an expression. -/
theorem passes_reference {name : Text} (h : IsName name) (rest : Text) :
    MixedContent.expression.Passes (reference name).source rest := by
  have hbegins : MixedContent.expression.BeginsWith "\x7b\x7b" := Pattern.after_beginsWith _ _ _
  have hname : '\x7b' ∉ name := IsName.isClean h '\x7b' (by decide)
  have hothers : '\x7b' ∉ '$' :: (name ++ ['\x7d']) := by simp [hname]
  have hsource : (reference name).source = '\x7b' :: '$' :: (name ++ ['\x7d']) := rfl
  rw [hsource]
  refine hbegins.passes (Text.misses_cons (fun hprefix => ?_) (Text.misses_of_not_mem hothers))
  obtain ⟨behind, heq⟩ := hprefix
  exact absurd (List.cons.inj (List.cons.inj heq).2).1 (by decide)

variable {part : Part} (h : part.WellFormed) (rest : Text)
include h

theorem replace_source :
    MixedContent.expression.replace hide (part.source ++ rest) =
      part.hidden ++ MixedContent.expression.replace hide rest := by
  have hbegins : MixedContent.expression.BeginsWith "\x7b\x7b" := Pattern.after_beginsWith _ _ _
  cases part with
  | literal text => exact Pattern.replace_append (hbegins.passes (Text.misses_of_not_mem h.1)) _
  | reference name => exact Pattern.replace_append (passes_reference h rest) _
  | expression text =>
    have htext : (expression text).source ++ rest =
        "\x7b\x7b " ++ (text ++ (" \x7d\x7d" ++ rest)) := by
      simp only [source_expression, List.append_assoc]
    rw [htext]
    exact Pattern.replace_of_run_eq_some (run_expression h rest)

theorem escape_hidden : escape part.hidden = part.quoted := by
  cases part with
  | literal text => rfl
  | reference name =>
    have hclean : ∀ c, Text.isWord c = false → c ∉ name := fun c hc hmem => by
      rw [h.2 c hmem] at hc
      exact Bool.noConfusion hc
    have hsource : (reference name).hidden = "\x7b$" ++ name ++ "\x7d" := rfl
    refine escape_eq_self fun c hc => ⟨?_, ?_⟩
    · rintro rfl
      simp only [hsource, List.mem_append] at hc
      exact hc.elim (Or.elim · (by decide) (hclean _ (by decide))) (by decide)
    · rintro rfl
      simp only [hsource, List.mem_append] at hc
      exact hc.elim (Or.elim · (by decide) (hclean _ (by decide))) (by decide)
  | expression text => exact escape_hide text

theorem replace_quoted :
    braced.replace splice (part.quoted ++ rest) = part.spliced ++ braced.replace splice rest := by
  have hbegins : braced.BeginsWith "\x7b$" := Pattern.after_beginsWith _ _ _
  cases part with
  | literal text =>
    refine Pattern.replace_append (hbegins.passes (Text.misses_of_not_mem fun hmem => ?_)) _
    exact (mem_escape hmem).elim h.1 (by decide)
  | reference name =>
    have hname := Reader.run_many1_of_all h.1 h.2 (d := '\x7d') (by decide) rest
    have htext : (reference name).quoted ++ rest = "\x7b$" ++ (name ++ '\x7d' :: rest) := by
      change (reference name).source ++ rest = _
      simp
    refine Pattern.replace_of_run_eq_some (?_ : _ = some ('$' :: name, rest))
    rw [htext, braced, Pattern.run_after_append]
    simp only [Reader.run_bind, hname, Option.bind_some]
    rfl
  | expression text =>
    exact Pattern.replace_append (hbegins.passes
      (Text.misses_of_not_mem (openBrace_not_mem_hide text))) _

/-- Revealing a spliced part covers its expression in parentheses. -/
theorem replaceM_spliced :
    token.replaceM (fun letters => (reveal letters).map fun found => splice ("(" ++ found ++ ")"))
        (part.spliced ++ rest) =
      (token.replaceM (fun letters => (reveal letters).map
      fun found => splice ("(" ++ found ++ ")")) rest).map (part.covered ++ ·) := by
  have hbegins : token.BeginsWith [mark] := Pattern.after_beginsWith _ _ _
  cases part with
  | literal text =>
    refine Pattern.replaceM_append _ (hbegins.passes (Text.misses_of_not_mem fun hmem => ?_))
    exact (mem_escape hmem).elim h.2.2 (by decide)
  | reference name =>
    have hname : mark ∉ "$" ++ name :=
      List.not_mem_append (by decide) fun hmark => absurd (h.2 mark hmark) (by decide)
    have hsplice : mark ∉ splice ("$" ++ name) :=
      List.not_mem_append (List.not_mem_append (by decide) hname) (by decide)
    exact Pattern.replaceM_append _ (hbegins.passes (Text.misses_of_not_mem hsplice))
  | expression text =>
    obtain ⟨c, behind, htext, -⟩ := h.first
    have hhidden : (expression text).spliced = hide text := rfl
    rw [hhidden,
      Pattern.replaceM_of_run_eq_some _ (run_token (htext ▸ List.cons_ne_nil c behind) rest),
      reveal_hidden]
    rfl

end Part

/-- Every part is written for itself, between the quotes of the text as a whole; what is left to do
is to drop the literals that are empty. -/
theorem stringOfMixed_flatMap {parts : List Part} (h : ∀ part ∈ parts, part.WellFormed) :
    stringOfMixed (parts.flatMap Part.source) =
      .ok (dropEmpty ('\'' :: (parts.flatMap Part.covered ++ ['\'']))) := by
  have hhidden :
      expression.replace hide (parts.flatMap Part.source) = parts.flatMap Part.hidden := by
    have hpass :=
      Pattern.replace_flatMap hide (fun part hpart => Part.replace_source (h part hpart)) []
    rwa [List.append_nil, Pattern.replace_nil, List.append_nil] at hpass
  have hquoted :
      quote (parts.flatMap Part.hidden) = '\'' :: (parts.flatMap Part.quoted ++ ['\'']) := by
    rw [quote_eq, escape, List.flatMap_assoc]
    rw [List.flatMap_def, List.flatMap_def, List.map_congr_left]
    exact fun part hpart => Part.escape_hidden (h part hpart)
  have hspliced : braced.replace splice ('\'' :: (parts.flatMap Part.quoted ++ ['\''])) =
      '\'' :: (parts.flatMap Part.spliced ++ ['\'']) := by
    have hlast : braced.replace splice ['\''] = ['\''] := by decide +kernel
    rw [Pattern.replace_cons_of_run_eq_none rfl,
      Pattern.replace_flatMap splice (fun part hpart => Part.replace_quoted (h part hpart)), hlast]
  have hlast : token.replaceM (fun letters => (reveal letters).map fun found =>
      splice ("(" ++ found ++ ")")) ['\''] = .ok ['\''] := by decide +kernel
  rw [stringOfMixed, hhidden, hquoted, hspliced, Pattern.replaceM_cons_of_run_eq_none _ rfl,
    Pattern.replaceM_flatMap _ (fun part hpart => Part.replaceM_spliced (h part hpart)), hlast]
  rfl

end LazyEmbed.Template
