import LazyEmbed.Proofs.Template.Meaning

/-!
# What converted content evaluates to

The forum dialect has variables and expressions between braces, and an expression may choose between
two strings, each of which is quoted literals, variables and parenthesised expressions joined by
dots. Evaluation reads all this from the flat text, so where a choice ends and which branch a dot
belongs to is settled by the text alone.
-/

namespace LazyEmbed.Template

open MixedContent

/-- What variables and expressions stand for, and which conditions hold. -/
structure Environment where
  references : Text → Text
  expressions : Expression → Text
  conditions : Expression → Bool

namespace Evaluation

def comparison (name : Text) : Reader Expression := .oneOf [
  do
    .literal "=='"
    let literal ← .many (· ≠ '\'')
    .literal "'"
    pure (.equals name literal),
  do
    .literal ">"
    let number ← .many1 Text.isDecimal
    pure (.exceeds name number),
  pure (.value name)]

def plain : Reader Expression := .oneOf [
  do
    .literal "$"
    let name ← .many1 Text.isWord
    comparison name,
  do
    .literal "100*$height/$width"
    pure .ratio,
  do
    .literal "100*($height+"
    let extra ← .many1 Text.isDecimal
    .literal ")/$width"
    pure (.paddedRatio extra)]

def quotedChar : Reader Char := Reader.orElse
  (do
    .literal "\\"
    .char fun c => c = '\\' || c = '\'')
  (.char fun c => c ≠ '\\' && c ≠ '\'')

theorem consumes_quotedChar : quotedChar.Consumes :=
  Reader.Consumes.orElse (Reader.Consumes.bind (Reader.consumes_literal (by decide)) _)
    (Reader.consumes_char _)

def quoted : Reader Text := do
  .literal "'"
  let text ← Reader.unfold (fun () => do let c ← quotedChar; pure (c, ()))
    (fun _ => Reader.Consumes.bind consumes_quotedChar _) ()
  .literal "'"
  pure text

variable (environment : Environment)

def term (inner : Reader Text) : Reader Text := .oneOf [
  quoted,
  do
    .literal "$"
    let name ← .many1 Text.isWord
    pure (environment.references name),
  do
    .literal "("
    let value ← inner
    .literal ")"
    pure value]

def furtherTerm (inner : Reader Text) : Reader Text := do
  .literal " . "
  term environment inner

theorem consumes_furtherTerm (inner : Reader Text) : (furtherTerm environment inner).Consumes :=
  Reader.Consumes.bind (Reader.consumes_literal (by decide)) _

def string (inner : Reader Text) : Reader Text := do
  let first ← term environment inner
  let others ← Reader.unfold
    (fun () => do let value ← furtherTerm environment inner; pure (value, ()))
    (fun _ => Reader.Consumes.bind (consumes_furtherTerm environment inner) _) ()
  pure (first ++ others.flatten)

def expression : (depth : Nat) → Reader Text
  | 0 => do
    let found ← plain
    pure (environment.expressions found)
  | depth + 1 => do
    let found ← plain
    Reader.orElse
      (do
        .literal " ? "
        let holds ← string environment (expression depth)
        .literal " : "
        let otherwise ← string environment (expression depth)
        pure (if environment.conditions found then holds else otherwise))
      (pure (environment.expressions found))

def braced (depth : Nat) : Pattern Text := .after "\x7b" (Reader.orElse
  (do
    .literal "$"
    let name ← .many1 Text.isWord
    .literal "\x7d"
    pure (environment.references name))
  (do
    .literal "\x7b "
    let value ← expression environment depth
    .literal " \x7d\x7d"
    pure value))

end Evaluation

/-- What content of the forum dialect evaluates to. -/
def evaluate (environment : Environment) (text : Text) : Text :=
  (Evaluation.braced environment text.length).replace id text

def Environment.assignment (environment : Environment) : Assignment where
  references := environment.references
  expressions text := ((Evaluation.expression environment text.length).whole? text).getD []

def choice (condition : Expression) (holds otherwise : List Part) : Text :=
  condition.render ++ (" ? " ++ (joined holds ++ (" : " ++ joined otherwise)))

namespace Expression

/-- The characters that mean something in a conditional, between quotes or between braces. -/
def meaningful : List Char := ['\'', '"', '<', '\x7b', '\x7d', mark, '\n']

def IsSimple : Expression → Prop
  | value name => IsName name
  | equals name literal => IsName name ∧ ∀ c ∈ meaningful, c ∉ literal
  | exceeds name number => IsName name ∧ IsNumber number
  | ratio => True
  | paddedRatio extra => IsNumber extra

section

variable {text : Text} {found : Expression}

/-- Whatever is read is simple, but for its literal. -/
theorem isSimple_of_read? (h : read? text = some found)
    (hliteral : ∀ name literal, found = equals name literal → ∀ c ∈ meaningful, c ∉ literal) :
    found.IsSimple := by
  have hreadable := (read?_eq_some_iff.1 h).1
  cases found with
  | equals name literal => exact ⟨hreadable.1, hliteral name literal rfl⟩
  | value | exceeds | ratio | paddedRatio => exact hreadable

end

end Expression

/-- What an expression is converted to is the text of one that is simple, but for its literal. -/
theorem exists_render_of_convertExpression {source text : Text}
    (h : convertExpression source = .ok text) :
    ∃ found : Expression, text = found.render ∧
      ((∀ name literal, found = .equals name literal → ∀ c ∈ Expression.meaningful, c ∉ literal) →
        found.IsSimple) := by
  rw [convertExpression] at h
  cases hdecode : (Html.decodeReferences source).mapError Fault.oversizedReference with
  | error fault => simp [hdecode, bind, Except.bind] at h
  | ok decoded =>
    simp only [hdecode, bind, Except.bind] at h
    cases hread : Expression.read? decoded with
    | none => simp [hread, throw, throwThe, MonadExceptOf.throw] at h
    | some found =>
      simp only [hread] at h
      exact ⟨found, (Except.ok.inj h).symm, Expression.isSimple_of_read? hread⟩

namespace Evaluation

def Ends (rest : Text) : Prop := ∀ c, rest.head? = some c → c = ' ' ∨ c = ')'

variable {rest : Text}

theorem Ends.false_of_mem {test : Char → Bool} (h : Ends rest) (hblank : test ' ' = false)
    (hclose : test ')' = false) : ∀ c, rest.head? = some c → test c = false := by
  intro c hc
  obtain rfl | rfl := h c hc
  · exact hblank
  · exact hclose

theorem Ends.literal_eq_none {c : Char} {expected : Text} (h : Ends rest) (hblank : c ≠ ' ')
    (hclose : c ≠ ')') : (Reader.literal (c :: expected)).run rest = none := by
  rw [Option.eq_none_iff_forall_ne_some]
  rintro ⟨_, left⟩ hrun
  have hrest := Reader.run_literal_eq_some_iff.1 hrun
  obtain heq | heq := h c (by rw [hrest]; rfl)
  · exact hblank heq
  · exact hclose heq

theorem run_plain_reference {name behind rest : Text} {found : Expression} (h : IsName name)
    (hbehind : ∀ c, behind.head? = some c → Text.isWord c = false)
    (hrun : (comparison name).run behind = some (found, rest)) :
    plain.run ("$" ++ (name ++ behind)) = some (found, rest) := by
  have hname := Reader.run_many1_append h.1 h.2 hbehind
  simp only [plain, Reader.oneOf, Reader.run_orElse, Reader.run_bind, Reader.run_literal_append,
    hname, hrun, Option.bind_some, Option.some_or]

theorem run_comparison_equals {name literal : Text} (h : '\'' ∉ literal) (rest : Text) :
    (comparison name).run ("=='" ++ (literal ++ '\'' :: rest)) =
      some (.equals name literal, rest) := by
  have hquote : (Reader.literal "'").run ('\'' :: rest) = some ((), rest) :=
    Reader.run_literal_append "'" rest
  simp only [comparison, Reader.oneOf, Reader.run_orElse, Reader.run_bind,
    Reader.run_literal_append, Reader.run_many_ne h, hquote, Option.bind_some, Reader.run_pure,
    Option.some_or]

theorem run_comparison_exceeds {name number : Text} (h : IsNumber number) (hrest : Ends rest) :
    (comparison name).run (">" ++ (number ++ rest)) = some (.exceeds name number, rest) := by
  have hnumber := Reader.run_many1_append h.1 h.2 (hrest.false_of_mem (by decide) (by decide))
  have hequals : (Reader.literal "=='").run (">" ++ (number ++ rest)) = none := rfl
  simp only [comparison, Reader.oneOf, Reader.run_orElse, Reader.run_bind, hequals,
    Reader.run_literal_append, hnumber, Option.bind_none, Option.none_or, Option.bind_some,
    Reader.run_pure, Option.some_or]

theorem run_comparison_value {name : Text} (hrest : Ends rest) :
    (comparison name).run rest = some (.value name, rest) := by
  have hequals : (Reader.literal "=='").run rest = none :=
    hrest.literal_eq_none (by decide) (by decide)
  have hexceeds : (Reader.literal ">").run rest = none :=
    hrest.literal_eq_none (by decide) (by decide)
  simp only [comparison, Reader.oneOf, Reader.run_orElse, Reader.run_bind, hequals, hexceeds,
    Option.bind_none, Option.none_or, Reader.run_pure, Option.some_or]

/-- An expression is read as it was written. -/
theorem run_plain {expression : Expression} (h : expression.IsSimple) (hrest : Ends rest) :
    plain.run (expression.render ++ rest) = some (expression, rest) := by
  cases expression with
  | value name =>
    have htext : (Expression.value name).render ++ rest = "$" ++ (name ++ rest) := by
      rw [Expression.render_value, List.append_assoc]
    rw [htext]
    exact run_plain_reference h (hrest.false_of_mem (by decide) (by decide))
      (run_comparison_value hrest)
  | equals name literal =>
    have htext : (Expression.equals name literal).render ++ rest =
        "$" ++ (name ++ ("=='" ++ (literal ++ '\'' :: rest))) := by
      simp only [Expression.render_equals, List.append_assoc]
      rfl
    rw [htext]
    refine run_plain_reference h.1 (fun c hc => ?_)
      (run_comparison_equals (h.2 '\'' (by decide)) rest)
    obtain rfl : '=' = c := Option.some.inj hc
    decide
  | exceeds name number =>
    have htext : (Expression.exceeds name number).render ++ rest =
        "$" ++ (name ++ (">" ++ (number ++ rest))) := by
      simp only [Expression.render_exceeds, List.append_assoc]
    rw [htext]
    refine run_plain_reference h.1 (fun c hc => ?_) (run_comparison_exceeds h.2 hrest)
    obtain rfl : '>' = c := Option.some.inj hc
    decide
  | ratio =>
    have hsign : (Reader.literal "$").run (Expression.ratio.render ++ rest) = none := rfl
    have hratio : (Reader.literal "100*$height/$width").run (Expression.ratio.render ++ rest) =
        some ((), rest) := Reader.run_literal_append "100*$height/$width" rest
    simp only [plain, Reader.oneOf, Reader.run_orElse, Reader.run_bind, hsign, hratio,
      Option.bind_none, Option.none_or, Option.bind_some, Reader.run_pure, Option.some_or]
  | paddedRatio extra =>
    have htext : (Expression.paddedRatio extra).render ++ rest =
        "100*($height+" ++ (extra ++ (")/$width" ++ rest)) := by
      simp only [Expression.render_paddedRatio, List.append_assoc]
    have hextra : (Reader.many1 Text.isDecimal).run (extra ++ (")/$width" ++ rest)) =
        some (extra, ")/$width" ++ rest) := by
      refine Reader.run_many1_append h.1 h.2 fun c hc => ?_
      obtain rfl : ')' = c := Option.some.inj hc
      decide
    have hsign : (Reader.literal "$").run ("100*($height+" ++ (extra ++ (")/$width" ++ rest))) =
        none := rfl
    have hratio : (Reader.literal "100*$height/$width").run
        ("100*($height+" ++ (extra ++ (")/$width" ++ rest))) = none := rfl
    rw [htext]
    simp only [plain, Reader.oneOf, Reader.run_orElse, Reader.run_bind, hsign, hratio,
      Reader.run_literal_append, hextra, Option.bind_none, Option.none_or, Option.bind_some,
      Reader.run_pure, Option.some_or]

/-! ### Literals -/

theorem run_quotedChar (c : Char) (rest : Text) :
    quotedChar.run (escapeChar c ++ rest) = some (c, rest) := by
  obtain ⟨hbackslash, hquote, hchar⟩ | ⟨hc, hchar⟩ := escapeChar_cases c
  · rw [hchar]
    simp [quotedChar, Reader.char, Reader.literal, Text.afterStart?, hbackslash, hquote,
      Ne.symm hbackslash]
  · rw [hchar]
    obtain rfl | rfl := hc <;> rfl

theorem unfoldRun_quotedChar (text rest : Text) :
    Reader.unfoldRun (fun () => do let c ← quotedChar; pure (c, ()))
      (fun _ => Reader.Consumes.bind consumes_quotedChar _) () (escape text ++ '\'' :: rest) =
      (text, '\'' :: rest) := by
  induction text with
  | nil => exact Reader.unfoldRun_of_run_eq_none _ rfl
  | cons c text ih =>
    have hstep :
        Reader.run (do let c ← quotedChar; pure (c, ())) (escape (c :: text) ++ '\'' :: rest) =
          some ((c, ()), escape text ++ '\'' :: rest) := by
      rw [escape_cons, List.append_assoc]
      simp only [Reader.run_bind, run_quotedChar, Option.bind_some, Reader.run_pure]
    rw [Reader.unfoldRun_of_run_eq_some _ hstep, ih]

theorem run_quoted (text rest : Text) : quoted.run (quote text ++ rest) = some (text, rest) := by
  have hopen : quote text ++ rest = "'" ++ (escape text ++ '\'' :: rest) := by simp [quote_eq]
  have hclose : (Reader.literal "'").run ('\'' :: rest) = some ((), rest) :=
    Reader.run_literal_append "'" rest
  rw [hopen]
  simp only [quoted, Reader.run_bind, Reader.run_literal_append, Option.bind_some, Reader.unfold,
    unfoldRun_quotedChar, hclose, Reader.run_pure]

/-! ### Strings and choices -/

variable {environment : Environment}

def Closes (rest : Text) : Prop :=
  rest = [] ∨ (∃ more, rest = ')' :: more) ∨ ∃ more, rest = ' ' :: '\x7d' :: more

theorem Closes.ends (h : Closes rest) : Ends rest := by
  intro c hc
  obtain rfl | ⟨more, rfl⟩ | ⟨more, rfl⟩ := h
  · simp at hc
  · exact .inr (Option.some.inj hc).symm
  · exact .inl (Option.some.inj hc).symm

theorem Closes.literal_eq_none {c : Char} {expected : Text} (h : Closes rest) (hc : c ≠ '\x7d') :
    (Reader.literal (' ' :: c :: expected)).run rest = none := by
  rw [Option.eq_none_iff_forall_ne_some]
  rintro ⟨_, left⟩ hrun
  have hrest := Reader.run_literal_eq_some_iff.1 hrun
  obtain rfl | ⟨more, rfl⟩ | ⟨more, rfl⟩ := h
  · simp at hrest
  · exact absurd (List.cons.inj hrest).1 (by decide)
  · exact hc (List.cons.inj (List.cons.inj hrest).2).1.symm

variable (environment) in
def Reads (text value : Text) : Prop :=
  ∀ depth, text.length ≤ depth → ∀ rest, Closes rest →
    (expression environment depth).run (text ++ rest) = some (value, rest)

theorem Reads.expressions_eq {text value : Text} (h : Reads environment text value) :
    environment.assignment.expressions text = value := by
  have hrun := h text.length (Nat.le_refl _) [] (.inl rfl)
  rw [List.append_nil] at hrun
  simp only [Environment.assignment, Reader.whole?_eq_some_iff.2 hrun, Option.getD_some]

variable (environment) in
def IsRead : Part → Prop
  | .literal _ => True
  | .reference name => IsName name
  | .expression text => Reads environment text (environment.assignment.expressions text)

/-- A term is read to its value under the assignment. -/
theorem run_term {part : Part} (h : IsRead environment part) {depth : Nat}
    (hdepth : part.term.length ≤ depth) (hrest : Ends rest) :
    (term environment (expression environment depth)).run (part.term ++ rest) =
      some (part.value environment.assignment, rest) := by
  cases part with
  | literal text =>
    have hquoted : quoted.run ((Part.literal text).term ++ rest) = some (text, rest) :=
      run_quoted text rest
    simp only [term, Reader.oneOf, Reader.run_orElse, hquoted, Option.some_or]
    rfl
  | reference name =>
    have hname := Reader.run_many1_append h.1 h.2 (hrest.false_of_mem (by decide) (by decide))
    have hterm : (Part.reference name).term ++ rest = "$" ++ (name ++ rest) :=
      List.append_assoc _ _ _
    have hquoted : quoted.run ("$" ++ (name ++ rest)) = none := rfl
    rw [hterm]
    simp only [term, Reader.oneOf, Reader.run_orElse, Reader.run_bind, hquoted,
      Reader.run_literal_append, hname, Option.bind_some, Option.none_or, Option.some_or,
      Reader.run_pure]
    rfl
  | expression text =>
    have hterm : (Part.expression text).term ++ rest = "(" ++ (text ++ ')' :: rest) := by
      simp [Part.term]
    have hquoted : quoted.run ("(" ++ (text ++ ')' :: rest)) = none := rfl
    have hsign : (Reader.literal "$").run ("(" ++ (text ++ ')' :: rest)) = none := rfl
    have hlength : text.length ≤ depth := by
      simp only [Part.term, List.length_append] at hdepth
      omega
    have hinner := h depth hlength (')' :: rest) (.inr (.inl ⟨rest, rfl⟩))
    have hclose : (Reader.literal ")").run (')' :: rest) = some ((), rest) :=
      Reader.run_literal_append ")" rest
    rw [hterm]
    simp only [term, Reader.oneOf, Reader.run_orElse, Reader.run_bind, hquoted, hsign,
      Reader.run_literal_append, hinner, hclose, Option.bind_none, Option.bind_some, Option.none_or,
      Option.some_or, Reader.run_pure]
    rfl

theorem ends_dotted (terms : List Part) (hrest : Ends rest) : Ends (Runs.dotted terms ++ rest) := by
  cases terms with
  | nil => exact hrest
  | cons first terms => exact fun c hc => .inl (Option.some.inj hc).symm

theorem unfoldRun_furtherTerm {terms : List Part} (h : ∀ part ∈ terms, IsRead environment part)
    {depth : Nat} (hdepth : (Runs.dotted terms).length ≤ depth) (hrest : Ends rest)
    (hdot : (Reader.literal " . ").run rest = none) :
    Reader.unfoldRun
      (fun () => do
        let value ← furtherTerm environment (expression environment depth)
        pure (value, ()))
      (fun _ => Reader.Consumes.bind (consumes_furtherTerm environment _) _) ()
      (Runs.dotted terms ++ rest) =
    (terms.map (Part.value environment.assignment), rest) := by
  induction terms with
  | nil =>
    refine Reader.unfoldRun_of_run_eq_none _ ?_
    have hnone : (furtherTerm environment (expression environment depth)).run rest = none := by
      simp only [furtherTerm, Reader.run_bind, hdot, Option.bind_none]
    simp only [Runs.dotted, List.flatMap_nil, List.nil_append, Reader.run_bind, hnone,
      Option.bind_none]
  | cons first terms ih =>
    obtain ⟨hfirst, hterms⟩ := List.forall_mem_cons.1 h
    have hcons : Runs.dotted (first :: terms) = " . " ++ (first.term ++ Runs.dotted terms) := by
      simp only [Runs.dotted, List.flatMap_cons, List.append_assoc]
    have hlength : first.term.length ≤ depth ∧ (Runs.dotted terms).length ≤ depth := by
      rw [hcons, List.length_append, List.length_append] at hdepth
      omega
    have hterm := run_term hfirst hlength.1 (ends_dotted terms hrest)
    have hstep : (furtherTerm environment (expression environment depth)).run
        (Runs.dotted (first :: terms) ++ rest) =
        some (first.value environment.assignment, Runs.dotted terms ++ rest) := by
      rw [hcons, List.append_assoc, List.append_assoc]
      simp only [furtherTerm, Reader.run_bind, Reader.run_literal_append, Option.bind_some, hterm]
    have hstep : Reader.run
        (do
          let value ← furtherTerm environment (expression environment depth)
          pure (value, ()))
        (Runs.dotted (first :: terms) ++ rest) =
        some ((first.value environment.assignment, ()), Runs.dotted terms ++ rest) := by
      simp only [Reader.run_bind, hstep, Option.bind_some, Reader.run_pure]
    rw [Reader.unfoldRun_of_run_eq_some _ hstep, ih hterms hlength.2, List.map_cons]

/-- Terms joined by dots are read for their values one after the other. -/
theorem run_string {terms : List Part} (hne : terms ≠ [])
    (h : ∀ part ∈ terms, IsRead environment part) {depth : Nat}
    (hdepth : (joined terms).length ≤ depth) (hrest : Ends rest)
    (hdot : (Reader.literal " . ").run rest = none) :
    (string environment (expression environment depth)).run (joined terms ++ rest) =
      some (valueOf environment.assignment terms, rest) := by
  obtain ⟨first, terms, rfl⟩ := List.exists_cons_of_ne_nil hne
  obtain ⟨hfirst, hterms⟩ := List.forall_mem_cons.1 h
  rw [Runs.joined_cons] at hdepth ⊢
  rw [List.length_append] at hdepth
  have hterm := run_term hfirst (by omega : first.term.length ≤ depth) (ends_dotted terms hrest)
  have hothers := unfoldRun_furtherTerm hterms (by omega : (Runs.dotted terms).length ≤ depth) hrest
    hdot
  rw [List.append_assoc]
  simp only [string, Reader.run_bind, hterm, Option.bind_some, Reader.unfold, hothers,
    Reader.run_pure, valueOf, List.flatMap_def, List.map_cons, List.flatten_cons]

/-- An expression without a choice is read for its value. -/
theorem reads_render {found : Expression} (h : found.IsSimple) :
    Reads environment found.render (environment.expressions found) := by
  intro depth _ rest hrest
  have hplain := run_plain h hrest.ends
  have hchoice : (Reader.literal " ? ").run rest = none := hrest.literal_eq_none (by decide)
  cases depth with
  | zero => simp only [expression, Reader.run_bind, hplain, Option.bind_some, Reader.run_pure]
  | succ depth =>
    simp only [expression, Reader.run_bind, hplain, Option.bind_some, Reader.run_orElse, hchoice,
      Option.bind_none, Option.none_or, Reader.run_pure]

/-- A choice is read for the value of the branch that its condition chooses. -/
theorem reads_choice {condition : Expression} {holds otherwise : List Part}
    (hcondition : condition.IsSimple)
    (hholds : holds ≠ [] ∧ ∀ part ∈ holds, IsRead environment part)
    (hotherwise : otherwise ≠ [] ∧ ∀ part ∈ otherwise, IsRead environment part) :
    Reads environment (choice condition holds otherwise)
      (if environment.conditions condition then valueOf environment.assignment holds
        else valueOf environment.assignment otherwise) := by
  intro depth hdepth rest hrest
  obtain ⟨depth, rfl⟩ : ∃ n, depth = n + 1 := by
    refine Nat.exists_eq_add_of_le' (Nat.le_trans ?_ hdepth)
    simp [choice]
    omega
  have hlength : (joined holds).length ≤ depth ∧ (joined otherwise).length ≤ depth := by
    simp only [choice, List.length_append] at hdepth
    have hblank : (" ? " : Text).length = 3 := rfl
    omega
  have hplain : ∀ behind : Text, plain.run (condition.render ++ (" ? " ++ behind)) =
      some (condition, " ? " ++ behind) := fun behind =>
    run_plain hcondition fun c hc => .inl (Option.some.inj hc).symm
  have hfirst : ∀ behind : Text,
      (string environment (expression environment depth)).run (joined holds ++ (" : " ++ behind)) =
        some (valueOf environment.assignment holds, " : " ++ behind) := fun behind =>
    run_string hholds.1 hholds.2 hlength.1 (fun c hc => .inl (Option.some.inj hc).symm) rfl
  have hsecond := run_string hotherwise.1 hotherwise.2 hlength.2 hrest.ends
    (hrest.literal_eq_none (by decide))
  have htext : choice condition holds otherwise ++ rest =
      condition.render ++ (" ? " ++ (joined holds ++ (" : " ++ (joined otherwise ++ rest)))) := by
    simp only [choice, List.append_assoc]
  rw [htext]
  simp only [expression, Reader.run_bind, hplain, Option.bind_some, Reader.run_orElse,
    Reader.run_literal_append, hfirst, hsecond, Reader.run_pure, Option.some_or]

/-! ### Mixed content -/

/-- A part in braces is replaced by its value. -/
theorem replace_braced {part : Part} (hwell : part.WellFormed) (h : IsRead environment part)
    {depth : Nat} (hdepth : part.source.length ≤ depth) (rest : Text) :
    (braced environment depth).replace id (part.source ++ rest) =
      part.value environment.assignment ++ (braced environment depth).replace id rest := by
  have hbegins : (braced environment depth).BeginsWith "\x7b" := Pattern.after_beginsWith _ _ _
  cases part with
  | literal text =>
    exact Pattern.replace_append (hbegins.passes (Text.misses_of_not_mem hwell.1)) id
  | reference name =>
    have hname := Reader.run_many1_of_all h.1 h.2 (d := '\x7d') (by decide) rest
    have hclose : (Reader.literal "\x7d").run ('\x7d' :: rest) = some ((), rest) :=
      Reader.run_literal_append "\x7d" rest
    have htext : (Part.reference name).source ++ rest =
        "\x7b" ++ ("$" ++ (name ++ '\x7d' :: rest)) := by simp
    refine Pattern.replace_of_run_eq_some (?_ : _ = some (environment.references name, rest))
    rw [htext, braced, Pattern.run_after_append]
    simp only [Reader.run_orElse, Reader.run_bind, Reader.run_literal_append, hname, hclose,
      Option.bind_some, Reader.run_pure, Option.some_or]
  | expression text =>
    have hlength : text.length ≤ depth := by
      simp only [Part.source_expression, List.length_append] at hdepth
      omega
    have hread := h depth hlength (" \x7d\x7d" ++ rest) (.inr (.inr ⟨'\x7d' :: rest, rfl⟩))
    have hsign : (Reader.literal "$").run ("\x7b " ++ (text ++ (" \x7d\x7d" ++ rest))) = none := rfl
    have htext : (Part.expression text).source ++ rest =
        "\x7b" ++ ("\x7b " ++ (text ++ (" \x7d\x7d" ++ rest))) := by simp
    refine Pattern.replace_of_run_eq_some
      (?_ : _ = some (environment.assignment.expressions text, rest))
    rw [htext, braced, Pattern.run_after_append]
    simp only [Reader.run_orElse, Reader.run_bind, hsign, Reader.run_literal_append, hread,
      Option.bind_none, Option.bind_some, Reader.run_pure, Option.none_or]

end Evaluation

/-- Mixed content evaluates to the values of its parts one after the other. -/
theorem evaluate_source {environment : Environment} {parts : List Part}
    (h : ∀ part ∈ parts, part.WellFormed ∧ Evaluation.IsRead environment part) :
    evaluate environment (parts.flatMap Part.source) = valueOf environment.assignment parts := by
  have hpart : ∀ part ∈ parts, ∀ rest : Text,
      (Evaluation.braced environment (parts.flatMap Part.source).length).replace id
        (part.source ++ rest) =
      part.value environment.assignment ++
        (Evaluation.braced environment (parts.flatMap Part.source).length).replace id rest := by
    intro part hmem rest
    refine Evaluation.replace_braced (h part hmem).1 (h part hmem).2 ?_ rest
    obtain ⟨before, after, rfl⟩ := List.append_of_mem hmem
    simp only [List.flatMap_append, List.flatMap_cons, List.length_append]
    omega
  have hpass := Pattern.replace_flatMap id hpart []
  rw [List.append_nil, Pattern.replace_nil, List.append_nil] at hpass
  exact hpass

end LazyEmbed.Template
