import LazyEmbed.Proofs.Template.ClosingTag

/-!
# Attribute value templates

Literal text with references to attributes between braces. A brace of the literal text itself is
doubled, and the first passes take doubled braces away from left to right. In front of a reference
that is right: in a run of opening braces the last one is the reference's. Behind a reference it is
not: of a run of closing braces the first one is the reference's, and it is taken away as half of a
pair.
-/

namespace LazyEmbed.Template

/-- Literal text of an attribute value template. It may hold braces at any place. -/
structure Wording where
  text : Text
  no_tag : '<' ∉ text
  no_openReference : ¬("&#123;" : Text) <:+: text
  no_closeReference : ¬("&#125;" : Text) <:+: text
  no_hint : ¬hintStart <:+: text

structure Reference where
  name : Name
  behind : Wording

structure ValueTemplate where
  first : Wording
  references : List Reference

def respell (opening closing text : Text) : Text :=
  text.flatMap fun c => if c = '\x7b' then opening else if c = '\x7d' then closing else [c]

abbrev setAside (text : Text) : Text := respell "&#123;" "&#125;" text

namespace Reference

/-- The literal text behind the reference begins with a brace that the reference's own runs into. -/
def IsTorn (reference : Reference) : Prop := reference.behind.text.head? = some '\x7d'

instance : DecidablePred IsTorn := fun _ => inferInstanceAs (Decidable (_ = _))

variable (reference : Reference)

def source (spell : Text → Text) : Text :=
  "\x7b@" ++ (reference.name.val ++ ("\x7d" ++ spell reference.behind.text))

def target : Text := Markup.variableText reference.name.val ++ reference.behind.text

def run : Text := reference.behind.text.takeWhile fun c => decide (c = '\x7d')

def rest : Text := reference.behind.text.dropWhile fun c => decide (c = '\x7d')

/-- The reference once doubled braces are set aside, up to the brace that is left of the run. -/
def torn : Text := "\x7b@" ++ (reference.name.val ++ (setAside reference.run ++ "\x7d"))

def left : Text :=
  (if reference.IsTorn then reference.torn else Markup.variableText reference.name.val) ++
    setAside reference.rest

end Reference

namespace ValueTemplate

variable (template : ValueTemplate)

def source : Text :=
  respell "\x7b\x7b" "\x7d\x7d" template.first.text ++
    template.references.flatMap fun reference => reference.source (respell "\x7b\x7b" "\x7d\x7d")

def target : Text := template.first.text ++ template.references.flatMap Reference.target

def left : Text := setAside template.first.text ++ template.references.flatMap Reference.left

end ValueTemplate

/-! ### Other spellings of braces -/

section

variable {opening closing text rest part : Text} {d : Char}

theorem respell_open (opening closing text : Text) :
    respell opening closing ('\x7b' :: text) = opening ++ respell opening closing text := rfl

theorem respell_close (opening closing text : Text) :
    respell opening closing ('\x7d' :: text) = closing ++ respell opening closing text := rfl

theorem respell_plain {c : Char} (hopen : c ≠ '\x7b') (hclose : c ≠ '\x7d')
    (opening closing text : Text) :
    respell opening closing (c :: text) = c :: respell opening closing text := by
  rw [respell, List.flatMap_cons, if_neg hopen, if_neg hclose]
  rfl

theorem respell_append (opening closing text rest : Text) :
    respell opening closing (text ++ rest) = respell opening closing text ++
      respell opening closing rest :=
  List.flatMap_append

/-- Proof along a text, with the braces apart. -/
theorem braceInduction {motive : Text → Prop} (nil : motive [])
    (opens : ∀ text, motive text → motive ('\x7b' :: text))
    (closes : ∀ text, motive text → motive ('\x7d' :: text))
    (plain : ∀ c text, c ≠ '\x7b' → c ≠ '\x7d' → motive text → motive (c :: text)) (text : Text) :
    motive text := by
  induction text with
  | nil => exact nil
  | cons c text ih =>
    by_cases hopen : c = '\x7b'
    · exact hopen ▸ opens text ih
    · by_cases hclose : c = '\x7d'
      · exact hclose ▸ closes text ih
      · exact plain c text hopen hclose ih

theorem not_mem_respell (hopening : d ∉ opening) (hclosing : d ∉ closing) (htext : d ∉ text) :
    d ∉ respell opening closing text := by
  intro hmem
  obtain ⟨c, hc, hd⟩ := List.mem_flatMap.1 hmem
  split_ifs at hd
  · exact hopening hd
  · exact hclosing hd
  · exact htext (List.mem_singleton.1 hd ▸ hc)

theorem brace_not_mem_respell (hd : d = '\x7b' ∨ d = '\x7d') (hopening : d ∉ opening)
    (hclosing : d ∉ closing) (text : Text) : d ∉ respell opening closing text := by
  intro hmem
  obtain ⟨c, -, hc⟩ := List.mem_flatMap.1 hmem
  split_ifs at hc with hopen hclose
  · exact hopening hc
  · exact hclosing hc
  · rw [List.mem_singleton.1 hc] at hd
    exact hd.elim hopen hclose

def OpensNext (rest : Text) : Prop := ∀ c ∈ rest.head?, c = '\x7b'

/-- What the text with its braces set aside begins with, the text begins with. -/
theorem prefix_of_prefix_respell {first last : Char} (hfirst : first ∉ part) (hlast : last ∉ part)
    (hbrace : '\x7b' ∉ part) (hrest : OpensNext rest)
    (h : part <+: respell (first :: opening) (last :: closing) text ++ rest) : part <+: text := by
  induction part generalizing text with
  | nil => exact List.nil_prefix
  | cons d part ih =>
    obtain ⟨hd₁, hpart₁⟩ := not_or.1 (mt List.mem_cons.2 hfirst)
    obtain ⟨hd₂, hpart₂⟩ := not_or.1 (mt List.mem_cons.2 hlast)
    obtain ⟨hd₃, hpart₃⟩ := not_or.1 (mt List.mem_cons.2 hbrace)
    cases text using braceInduction with
    | nil =>
      obtain ⟨more, rfl⟩ := h
      exact absurd (hrest d rfl).symm hd₃
    | opens text => exact absurd (List.cons_prefix_cons.1 h).1.symm hd₁
    | closes text => exact absurd (List.cons_prefix_cons.1 h).1.symm hd₂
    | plain c text hopen hclose =>
      rw [respell_plain hopen hclose, List.cons_append, List.cons_prefix_cons] at h
      exact List.cons_prefix_cons.2 ⟨h.1, ih hpart₁ hpart₂ hpart₃ h.2⟩

end

/-! ### Setting doubled braces aside -/

section

variable {opening closing new text rest : Text}

theorem swap_self {old : Text} (hne : old ≠ []) (new rest : Text) :
    Markup.swap old new hne (old ++ rest) = new ++ Markup.swap old new hne rest :=
  Pattern.replace_of_run_eq_some (run_fixed _ _ _)

theorem swap_of_misses {old part : Text} (hne : old ≠ []) (new : Text)
    (h : ∀ rest, Text.Misses old part rest) (rest : Text) :
    Markup.swap old new hne (part ++ rest) = part ++ Markup.swap old new hne rest := by
  obtain ⟨c, old, rfl⟩ := List.exists_cons_of_ne_nil hne
  have hbegins : (Pattern.fixed (c :: old) hne).BeginsWith (c :: old) :=
    Pattern.after_beginsWith _ _ hne
  exact Pattern.replace_append (hbegins.passes (h rest)) _

/-- The spellings of braces are replaced one by one, provided that what is replaced begins in no
other character, whatever follows that. -/
theorem swap_respell {old new opening' closing' : Text} (hne : old ≠ [])
    (hopening : ∀ rest, Markup.swap old new hne (opening ++ rest) =
      opening' ++ Markup.swap old new hne rest)
    (hclosing : ∀ rest, Markup.swap old new hne (closing ++ rest) =
      closing' ++ Markup.swap old new hne rest)
    (hplain : ∀ c behind, c :: behind <:+ text → c ≠ '\x7b' → c ≠ '\x7d' →
      ¬old <+: c :: (respell opening closing behind ++ rest)) :
    Markup.swap old new hne (respell opening closing text ++ rest) =
      respell opening' closing' text ++ Markup.swap old new hne rest := by
  induction text using braceInduction with
  | nil => rfl
  | opens text ih =>
    have hbehind := ih fun c behind hsuffix =>
      hplain c behind (hsuffix.trans (List.suffix_cons _ _))
    rw [respell_open, respell_open, List.append_assoc, List.append_assoc, hopening, hbehind]
  | closes text ih =>
    have hbehind := ih fun c behind hsuffix =>
      hplain c behind (hsuffix.trans (List.suffix_cons _ _))
    rw [respell_close, respell_close, List.append_assoc, List.append_assoc, hclosing, hbehind]
  | plain c text hopen hclose ih =>
    have hbehind := ih fun c behind hsuffix =>
      hplain c behind (hsuffix.trans (List.suffix_cons _ _))
    rw [respell_plain hopen hclose, respell_plain hopen hclose, List.cons_append, List.cons_append,
      ← hbehind]
    obtain ⟨d, old, rfl⟩ := List.exists_cons_of_ne_nil hne
    have hbegins : (Pattern.fixed (d :: old) hne).BeginsWith (d :: old) :=
      Pattern.after_beginsWith _ _ hne
    exact Pattern.replace_cons_of_run_eq_none
      (hbegins.run_eq_none (hplain c text (List.suffix_refl _) hopen hclose))

/-- Doubled braces are taken pair by pair, whatever follows. -/
theorem swap_doubledOpen (hclosing : '\x7b' ∉ closing) (new text rest : Text) :
    Markup.swap "\x7b\x7b" new (by decide) (respell "\x7b\x7b" closing text ++ rest) =
      respell new closing text ++ Markup.swap "\x7b\x7b" new (by decide) rest :=
  swap_respell (by decide) (swap_self _ _)
    (swap_of_misses _ _ fun _ => Text.misses_of_not_mem hclosing)
    fun _ _ _ hopen _ hbegins => hopen (List.cons_prefix_cons.1 hbegins).1.symm

theorem swap_doubledClose (hopening : '\x7d' ∉ opening) (new text rest : Text) :
    Markup.swap "\x7d\x7d" new (by decide) (respell opening "\x7d\x7d" text ++ rest) =
      respell opening new text ++ Markup.swap "\x7d\x7d" new (by decide) rest :=
  swap_respell (by decide) (swap_of_misses _ _ fun _ => Text.misses_of_not_mem hopening)
    (swap_self _ _)
    fun _ _ _ _ hclose hbegins => hclose (List.cons_prefix_cons.1 hbegins).1.symm

/-- A brace in front of a run of doubled ones is one behind the run. -/
theorem respell_run {run : Text} (hrun : ∀ c ∈ run, c = '\x7d') (opening : Text) :
    '\x7d' :: respell opening "\x7d\x7d" run = respell opening "\x7d\x7d" run ++ "\x7d" := by
  induction run with
  | nil => rfl
  | cons c run ih =>
    obtain ⟨rfl, hothers⟩ := List.forall_mem_cons.1 hrun
    rw [respell_close, List.append_assoc, ← ih hothers]
    rfl

end

namespace Reference

variable (reference : Reference)

theorem run_append_rest : reference.run ++ reference.rest = reference.behind.text :=
  List.takeWhile_append_dropWhile

theorem forall_mem_run : ∀ c ∈ reference.run, c = '\x7d' := by
  intro c hc
  have hclose := List.mem_takeWhile_imp hc
  simpa using hclose

theorem rest_suffix : reference.rest <:+ reference.behind.text := List.dropWhile_suffix _

theorem run_eq_nil (h : ¬reference.IsTorn) : reference.run = [] := by
  unfold run
  unfold IsTorn at h
  cases htext : reference.behind.text with
  | nil => rfl
  | cons c text =>
    rw [htext, List.head?_cons, Option.some_inj] at h
    exact List.takeWhile_cons_of_neg (by simpa using h)

theorem exists_run (h : reference.IsTorn) : ∃ more, reference.run = '\x7d' :: more := by
  obtain ⟨text, htext⟩ := List.head?_eq_some_iff.1 h
  exact ⟨_, by rw [run, htext, List.takeWhile_cons_of_pos (by decide)]⟩

theorem no_close_name : '\x7d' ∉ reference.name.val :=
  reference.name.property.isClean '\x7d' (by decide)

theorem no_open_name : '\x7b' ∉ reference.name.val :=
  reference.name.property.isClean '\x7b' (by decide)

theorem swap_openBraces (rest : Text) :
    Markup.swap "\x7b\x7b" "&#123;" (by decide) (reference.source (respell "\x7b\x7b" "\x7d\x7d") ++
      rest) = reference.source (respell "&#123;" "\x7d\x7d") ++
        Markup.swap "\x7b\x7b" "&#123;" (by decide) rest := by
  have hbegins : (Pattern.fixed "\x7b\x7b").BeginsWith ('\x7b' :: "\x7b") :=
    Pattern.after_beginsWith _ _ _
  have htail : '\x7b' ∉ '@' :: (reference.name.val ++ "\x7d") := by
    simpa using reference.no_open_name
  have hmisses : Text.Misses ('\x7b' :: "\x7b") ("\x7b@" ++ (reference.name.val ++ "\x7d"))
      (respell "\x7b\x7b" "\x7d\x7d" reference.behind.text ++ rest) := by
    refine Text.misses_cons (fun hbegins => ?_) (Text.misses_of_not_mem htail)
    exact absurd (List.cons_prefix_cons.1 (List.cons_prefix_cons.1 hbegins).2).1 (by decide)
  have hpasses := Pattern.replace_append (hbegins.passes hmisses) fun _ => "&#123;"
  have hclosing : '\x7b' ∉ ("\x7d\x7d" : Text) := by decide
  have hbehind := swap_doubledOpen hclosing "&#123;" reference.behind.text rest
  simp only [source, List.append_assoc] at hpasses ⊢
  rw [← hbehind]
  exact hpasses

theorem head?_rest : reference.rest.head? ≠ some '\x7d' := by
  intro hhead
  have hnot := List.head?_dropWhile_not (fun c => decide (c = '\x7d')) reference.behind.text
  rw [← rest, hhead] at hnot
  exact absurd hnot (by decide)

/-- The brace that is left of the run is no half of a pair. -/
theorem not_close_prefix {others : Text} (hothers : OpensNext others) :
    ¬"\x7d\x7d" <+: '\x7d' :: (respell "&#123;" "\x7d\x7d" reference.rest ++ others) := by
  intro hbegins
  have hnext := (List.cons_prefix_cons.1 hbegins).2
  have hhead := reference.head?_rest
  cases hrest : reference.rest using braceInduction with
  | nil =>
    obtain ⟨more, rfl⟩ := hrest ▸ hnext
    exact absurd (hothers '\x7d' rfl) (by decide)
  | opens text => exact absurd (List.cons_prefix_cons.1 (hrest ▸ hnext)).1 (by decide)
  | closes text => exact hhead (hrest ▸ rfl)
  | plain c text hopen hclose =>
    rw [hrest, respell_plain hopen hclose] at hnext
    exact hclose (List.cons_prefix_cons.1 hnext).1.symm

/-- The run behind the reference, with the brace of the reference in front, is paired from its
beginning. -/
theorem swap_closeBraces {others : Text} (hothers : OpensNext others) :
    Markup.swap "\x7d\x7d" "&#125;" (by decide)
        (reference.source (respell "&#123;" "\x7d\x7d") ++ others) =
      reference.torn ++
        (setAside reference.rest ++ Markup.swap "\x7d\x7d" "&#125;" (by decide) others) := by
  have hbegins : (Pattern.fixed "\x7d\x7d").BeginsWith ('\x7d' :: "\x7d") :=
    Pattern.after_beginsWith _ _ _
  have hopening : '\x7d' ∉ ("&#123;" : Text) := by decide
  have hname : '\x7d' ∉ "\x7b@" ++ reference.name.val := by
    simpa using reference.no_close_name
  have hturn : "\x7d" ++ (respell "&#123;" "\x7d\x7d" reference.behind.text ++ others) =
      respell "&#123;" "\x7d\x7d" reference.run ++
        ("\x7d" ++ (respell "&#123;" "\x7d\x7d" reference.rest ++ others)) := by
    have hrun := respell_run reference.forall_mem_run "&#123;"
    have hshift := congrArg (· ++ (respell "&#123;" "\x7d\x7d" reference.rest ++ others)) hrun
    rw [← reference.run_append_rest, respell_append]
    simpa using hshift
  have hlone :
      Text.Misses ('\x7d' :: "\x7d") "\x7d"
        (respell "&#123;" "\x7d\x7d" reference.rest ++ others) :=
    Text.misses_cons (reference.not_close_prefix hothers) (Text.misses_nil _ _)
  have hbehind : Markup.swap "\x7d\x7d" "&#125;" (by decide)
      ("\x7d" ++ (respell "&#123;" "\x7d\x7d" reference.rest ++ others)) =
        "\x7d" ++ (setAside reference.rest ++
          Markup.swap "\x7d\x7d" "&#125;" (by decide) others) := by
    rw [← swap_doubledClose hopening]
    exact Pattern.replace_append (hbegins.passes hlone) _
  calc Markup.swap "\x7d\x7d" "&#125;" (by decide)
        (reference.source (respell "&#123;" "\x7d\x7d") ++ others)
      = Markup.swap "\x7d\x7d" "&#125;" (by decide) (("\x7b@" ++ reference.name.val) ++
          (respell "&#123;" "\x7d\x7d" reference.run ++
            ("\x7d" ++ (respell "&#123;" "\x7d\x7d" reference.rest ++ others)))) := by
        rw [← hturn]
        simp only [source, List.append_assoc]
    _ = ("\x7b@" ++ reference.name.val) ++ (setAside reference.run ++
          Markup.swap "\x7d\x7d" "&#125;" (by decide)
            ("\x7d" ++ (respell "&#123;" "\x7d\x7d" reference.rest ++ others))) := by
        rw [← swap_doubledClose hopening]
        exact Pattern.replace_append (hbegins.passes (Text.misses_of_not_mem hname)) _
    _ = reference.torn ++
          (setAside reference.rest ++ Markup.swap "\x7d\x7d" "&#125;" (by decide) others) := by
        rw [hbehind]
        simp only [torn, List.append_assoc]

theorem run_torn (h : reference.IsTorn) (others : Text) :
    Markup.bracedAttribute.reader.run (reference.torn ++ others) = none := by
  obtain ⟨more, hmore⟩ := reference.exists_run h
  have hname : (Reader.many1 Text.isWord).run
      (reference.name.val ++ ("&#125;" ++ (setAside more ++ ("\x7d" ++ others)))) =
        some (reference.name.val, "&#125;" ++ (setAside more ++ ("\x7d" ++ others))) :=
    Reader.run_many1_of_all reference.name.property.1 reference.name.property.2 (by decide) _
  rw [torn, hmore, setAside, respell_close]
  simp only [List.append_assoc]
  rw [Markup.bracedAttribute, Pattern.run_after_append]
  simp only [Reader.run_bind, hname, Option.bind_some]
  rfl

/-- A torn reference keeps its braces, and the search goes on behind it. -/
theorem replace_torn {others : Text} :
    Markup.bracedAttribute.replace Markup.variableText
        (reference.torn ++ (setAside reference.rest ++ others)) =
      reference.left ++ Markup.bracedAttribute.replace Markup.variableText others := by
  have hbegins : Markup.bracedAttribute.BeginsWith ('\x7b' :: "@") := Pattern.after_beginsWith _ _ _
  have hrest : '\x7b' ∉ setAside reference.rest :=
    brace_not_mem_respell (.inl rfl) (by decide) (by decide) _
  have hbehind :
      Markup.bracedAttribute.replace Markup.variableText (setAside reference.rest ++ others) =
        setAside reference.rest ++ Markup.bracedAttribute.replace Markup.variableText others :=
    Pattern.replace_append (hbegins.passes (Text.misses_of_not_mem hrest)) _
  by_cases htorn : reference.IsTorn
  · have htail : '\x7b' ∉ '@' :: (reference.name.val ++ (setAside reference.run ++ "\x7d")) := by
      have hrun : '\x7b' ∉ setAside reference.run :=
        brace_not_mem_respell (.inl rfl) (by decide) (by decide) _
      simpa [reference.no_open_name] using hrun
    have hpasses :
        Markup.bracedAttribute.Passes reference.torn (setAside reference.rest ++ others) :=
      Pattern.passes_cons (reference.run_torn htorn _)
        (hbegins.passes (Text.misses_of_not_mem htail))
    rw [Pattern.replace_append hpasses, hbehind, left, if_pos htorn, List.append_assoc]
  · have hhit :
        Markup.bracedAttribute.reader.run (reference.torn ++ (setAside reference.rest ++ others)) =
        some (reference.name.val, setAside reference.rest ++ others) := by
      rw [torn, reference.run_eq_nil htorn]
      simp only [List.append_assoc]
      exact run_name (by decide) (c := '\x7d') rfl (by decide) reference.name _
    rw [Pattern.replace_of_run_eq_some hhit, hbehind, left, if_neg htorn, List.append_assoc]

end Reference

/-! ### The passes -/

section

variable {α : Type} {pattern : Pattern α} {write : α → Text} {before after : Reference → Text}

theorem opensNext_references (h : ∀ reference, ∃ more, before reference = '\x7b' :: more)
    (references : List Reference) : OpensNext (references.flatMap before) := by
  cases references with
  | nil => simp [OpensNext]
  | cons reference references =>
    obtain ⟨more, hmore⟩ := h reference
    rw [List.flatMap_cons, hmore]
    simp [OpensNext]

theorem replace_references (hopens : ∀ reference, ∃ more, before reference = '\x7b' :: more)
    {references : List Reference} (h : ∀ reference ∈ references, ∀ others, OpensNext others →
      pattern.replace write (before reference ++ others) =
        after reference ++ pattern.replace write others) :
    pattern.replace write (references.flatMap before) = references.flatMap after := by
  induction references with
  | nil => exact Pattern.replace_nil pattern write
  | cons reference references ih =>
    obtain ⟨hreference, hreferences⟩ := List.forall_mem_cons.1 h
    rw [List.flatMap_cons, hreference _ (opensNext_references hopens references), ih hreferences,
      List.flatMap_cons]

end

namespace Reference

variable (reference : Reference)

theorem exists_source (spell : Text → Text) : ∃ more, reference.source spell = '\x7b' :: more :=
  ⟨_, rfl⟩

theorem exists_torn : ∃ more, reference.torn ++ setAside reference.rest = '\x7b' :: more := ⟨_, rfl⟩

theorem exists_left : ∃ more, reference.left = '\x7b' :: more := by
  unfold left
  split_ifs
  · exact ⟨_, rfl⟩
  · exact ⟨_, rfl⟩

end Reference

namespace ValueTemplate

variable (template : ValueTemplate)

/-- The passes over the braces leave a template with each reference as it is set aside. -/
theorem left_eq :
    Markup.bracedAttribute.replace Markup.variableText
    (Markup.swap "\x7d\x7d" "&#125;" (by decide)
    (Markup.swap "\x7b\x7b" "&#123;" (by decide) template.source)) = template.left := by
  have hopen : Markup.swap "\x7b\x7b" "&#123;" (by decide) template.source =
      respell "&#123;" "\x7d\x7d" template.first.text ++ template.references.flatMap
      fun reference => reference.source (respell "&#123;" "\x7d\x7d") := by
    rw [source, swap_doubledOpen (by decide)]
    exact congrArg _ (replace_references (fun reference => reference.exists_source _)
      fun reference _ others _ => reference.swap_openBraces others)
  have hclose :
      Markup.swap "\x7d\x7d" "&#125;" (by decide)
        (respell "&#123;" "\x7d\x7d" template.first.text ++ template.references.flatMap
          fun reference => reference.source (respell "&#123;" "\x7d\x7d")) =
        setAside template.first.text ++ template.references.flatMap fun reference =>
          reference.torn ++ setAside reference.rest := by
    rw [swap_doubledClose (by decide)]
    refine congrArg _ (replace_references (fun reference => reference.exists_source _)
      fun reference _ others hothers => ?_)
    rw [List.append_assoc]
    exact reference.swap_closeBraces hothers
  have hfirst : '\x7b' ∉ setAside template.first.text :=
    brace_not_mem_respell (.inl rfl) (by decide) (by decide) _
  have hbegins : Markup.bracedAttribute.BeginsWith ('\x7b' :: "@") := Pattern.after_beginsWith _ _ _
  rw [hopen, hclose, Pattern.replace_append (hbegins.passes (Text.misses_of_not_mem hfirst)), left]
  refine congrArg _ (replace_references Reference.exists_torn fun reference _ others _ => ?_)
  rw [List.append_assoc]
  exact reference.replace_torn

end ValueTemplate

/-! ### What the other passes and the check find -/

section

variable {text rest : Text}

/-- A text that is not begun is not begun with other spellings of the braces either. -/
theorem not_prefix_respell {opening closing tail : Text} {c d first last : Char}
    (hfirst : first ∉ tail) (hlast : last ∉ tail) (hbrace : '\x7b' ∉ tail) (hrest : OpensNext rest)
    (h : ¬d :: tail <:+: c :: text) :
    ¬d :: tail <+: c :: (respell (first :: opening) (last :: closing) text ++ rest) := by
  intro hbegins
  obtain ⟨rfl, htail⟩ := List.cons_prefix_cons.1 hbegins
  exact h (List.cons_prefix_cons.2 ⟨rfl,
    prefix_of_prefix_respell hfirst hlast hbrace hrest htail⟩).isInfix

theorem not_infix_of_cons {part : Text} {c : Char} (h : ¬part <:+: c :: text) : ¬part <:+: text :=
  fun hbegun => h (List.infix_cons hbegun)

theorem misses_hint_setAside (h : ¬hintStart <:+: text) (hrest : OpensNext rest) :
    Text.Misses hintStart (setAside text) rest := by
  rw [hintStart_eq] at h ⊢
  induction text using braceInduction with
  | nil => exact Text.misses_nil _ _
  | opens text ih =>
    exact (Text.misses_of_not_mem (by decide)).append (ih (not_infix_of_cons h))
  | closes text ih =>
    exact (Text.misses_of_not_mem (by decide)).append (ih (not_infix_of_cons h))
  | plain c text hopen hclose ih =>
    rw [setAside, respell_plain hopen hclose]
    exact Text.misses_cons (not_prefix_respell (by decide) (by decide) (by decide) hrest h)
      (ih (not_infix_of_cons h))

/-- A text in which a reference does not begin brings it back for its brace alone. -/
theorem not_prefix_of_suffix {opening closing tail : Text} {d first last : Char}
    (hfirst : first ∉ tail) (hlast : last ∉ tail) (hbrace : '\x7b' ∉ tail)
    (h : ¬d :: tail <:+: text) (hrest : OpensNext rest) {c : Char} {behind : Text}
    (hsuffix : c :: behind <:+ text) :
    ¬d :: tail <+: c :: (respell (first :: opening) (last :: closing) behind ++ rest) :=
  not_prefix_respell hfirst hlast hbrace hrest fun hwithin => h (hwithin.trans hsuffix.isInfix)

/-- Bringing opening braces back. -/
theorem swap_openReference (h : ¬("&#123;" : Text) <:+: text) (hrest : OpensNext rest) :
    Markup.swap "&#123;" "\x7b" (by decide) (setAside text ++ rest) =
      respell "\x7b" "&#125;" text ++ Markup.swap "&#123;" "\x7b" (by decide) rest :=
  swap_respell (by decide) (swap_self _ _)
    (swap_of_misses _ _ fun _ => Text.misses_of_apart (by decide) _)
    fun _ _ hsuffix _ _ => not_prefix_of_suffix (by decide) (by decide) (by decide) h hrest hsuffix

theorem respell_self (text : Text) : respell "\x7b" "\x7d" text = text := by
  induction text using braceInduction with
  | nil => rfl
  | opens text ih => rw [respell_open, ih]; rfl
  | closes text ih => rw [respell_close, ih]; rfl
  | plain c text hopen hclose ih => rw [respell_plain hopen hclose, ih]

theorem swap_closeReference (h : ¬("&#125;" : Text) <:+: text) (hrest : OpensNext rest) :
    Markup.swap "&#125;" "\x7d" (by decide) (respell "\x7b" "&#125;" text ++ rest) =
      text ++ Markup.swap "&#125;" "\x7d" (by decide) rest := by
  have hbehind : ∀ c behind, c :: behind <:+ text → c ≠ '\x7b' → c ≠ '\x7d' →
      ¬"&#125;" <+: c :: (respell "\x7b" "&#125;" behind ++ rest) := fun _ _ hsuffix _ _ =>
    not_prefix_of_suffix (by decide) (by decide) (by decide) h hrest hsuffix
  have hback := swap_respell (by decide)
    (swap_of_misses _ _ fun _ => Text.misses_of_not_mem (by decide)) (swap_self _ "\x7d") hbehind
  exact hback.trans (congrArg (· ++ _) (respell_self text))

end

namespace Reference

variable (reference : Reference)

theorem no_tag_left : '<' ∉ reference.left := by
  have hname : '<' ∉ reference.name.val := reference.name.property.isClean '<' (by decide)
  have hrun : '<' ∉ setAside reference.run := not_mem_respell (by decide) (by decide)
    fun hmem => absurd (reference.forall_mem_run _ hmem) (by decide)
  have hrest : '<' ∉ setAside reference.rest := not_mem_respell (by decide) (by decide)
    fun hmem => reference.behind.no_tag (reference.rest_suffix.subset hmem)
  unfold left torn Markup.variableText
  split_ifs <;> simp [hname, hrun, hrest]

theorem misses_hint_left {others : Text} (hothers : OpensNext others) :
    Text.Misses hintStart reference.left others := by
  have hname : ' ' ∉ reference.name.val :=
    fun hmem => absurd (reference.name.property.2 ' ' hmem) (by decide)
  have hrun : ' ' ∉ setAside reference.run := not_mem_respell (by decide) (by decide)
    fun hmem => absurd (reference.forall_mem_run _ hmem) (by decide)
  refine Text.Misses.append ?_ (misses_hint_setAside (fun hbegun => ?_) hothers)
  · apply misses_hint_of_not_mem
    split_ifs <;> simp [torn, Markup.variableText, hname, hrun]
  · exact reference.behind.no_hint (hbegun.trans reference.rest_suffix.isInfix)

theorem left_eq (h : ¬reference.IsTorn) :
    reference.left = Markup.variableText reference.name.val ++ setAside reference.behind.text := by
  rw [left, if_neg h, ← reference.run_append_rest, reference.run_eq_nil h, List.nil_append]

theorem misses_variable {start : Text} {d : Char} (hd : d ∉ ("\x7b$\x7d" : Text))
    (hword : Text.isWord d = false) (rest : Text) :
    Text.Misses (d :: start) (Markup.variableText reference.name.val) rest := by
  have hname : d ∉ reference.name.val := fun hmem => by
    rw [reference.name.property.2 d hmem] at hword
    cases hword
  have hbraces : d ≠ '\x7b' ∧ d ≠ '$' ∧ d ≠ '\x7d' := by simpa using hd
  refine Text.misses_of_not_mem ?_
  simp [Markup.variableText, hname, hbraces]

theorem brace?_append {text : Text} (h : '\x7b' ∉ text) (rest : Text) :
    Leftover.brace? (text ++ rest) = Leftover.brace? rest := by
  rw [Leftover.brace?, Pattern.hits_append (passes_braces h rest), Leftover.brace?]

/-- A lone brace is reported up to the next closing one. -/
theorem run_braces_lone {inside : Text} (h : '\x7d' ∉ inside) (rest : Text) :
    Leftover.braces.reader.run ("\x7b@" ++ (inside ++ ("\x7d" ++ rest))) =
      some (some ("\x7b@" ++ (inside ++ "\x7d")), rest) := by
  have hall : ∀ c ∈ '@' :: inside, decide (c ≠ '\x7d') = true := by
    intro c hc
    refine decide_eq_true fun heq => ?_
    simp [heq, h] at hc
  have htake := Text.takeWhile_of_all hall (d := '\x7d') (by decide) rest
  have hdrop := Text.dropWhile_of_all hall (d := '\x7d') (by decide) rest
  have hclose :
      (Reader.optional (Reader.literal "\x7d")).run ('\x7d' :: rest) = some (some (), rest) :=
    Reader.run_optional_of_run_eq_some (Reader.run_literal_append "\x7d" rest)
  change ((do
    let inside ← Reader.many fun c => decide (c ≠ '\x7d')
    let closing ← Reader.optional (Reader.literal "\x7d")
    pure (some ("\x7b" ++ inside ++ if closing.isSome then ['\x7d'] else [])) :
      Reader (Option Text))).run
      ('@' :: inside ++ '\x7d' :: rest) = _
  simp only [Reader.run_bind, Reader.run_many, htake, hdrop, Option.bind_some, hclose,
    Reader.run_pure]
  rfl

/-- A torn reference is what the check reports, and it sees nothing in another one. -/
theorem brace?_left (others : Text) : Leftover.brace? (reference.left ++ others) =
    if reference.IsTorn then some reference.torn else Leftover.brace? others := by
  by_cases htorn : reference.IsTorn
  · have hinside : '\x7d' ∉ reference.name.val ++ setAside reference.run := by
      have hrun : '\x7d' ∉ setAside reference.run :=
        brace_not_mem_respell (.inr rfl) (by decide) (by decide) _
      simp [reference.no_close_name, hrun]
    have hrun := run_braces_lone hinside (setAside reference.rest ++ others)
    simp only [List.append_assoc] at hrun
    rw [left, if_pos htorn, if_pos htorn, torn, Leftover.brace?]
    simp only [List.append_assoc]
    rw [Pattern.hits_of_run_eq_some hrun]
    rfl
  · have hbehind :
        '\x7b' ∉ ("$" ++ (reference.name.val ++ "\x7d")) ++ setAside reference.behind.text := by
      have htext : '\x7b' ∉ setAside reference.behind.text :=
        brace_not_mem_respell (.inl rfl) (by decide) (by decide) _
      simp [reference.no_open_name, htext]
    have hrun := run_braces_variable
      ((reference.name.val ++ "\x7d") ++ setAside reference.behind.text ++ others)
    have hhits : Leftover.brace? (reference.left ++ others) = Leftover.brace?
        (("$" ++ (reference.name.val ++ "\x7d")) ++ setAside reference.behind.text ++ others) := by
      rw [reference.left_eq htorn, Leftover.brace?, Leftover.brace?]
      simp only [Markup.variableText, List.append_assoc] at hrun ⊢
      rw [Pattern.hits_of_run_eq_some hrun]
      rfl
    rw [hhits, brace?_append hbehind, if_neg htorn]

end Reference

namespace ValueTemplate

variable (template : ValueTemplate)

theorem no_tag_left : '<' ∉ template.left := by
  have hfirst : '<' ∉ setAside template.first.text :=
    not_mem_respell (by decide) (by decide) template.first.no_tag
  intro hmem
  obtain hmem | hmem := List.mem_append.1 hmem
  · exact hfirst hmem
  · obtain ⟨reference, -, hmem⟩ := List.mem_flatMap.1 hmem
    exact reference.no_tag_left hmem

theorem misses_hint_left : Text.Misses hintStart template.left [] := by
  have hreferences : ∀ references : List Reference,
      Text.Misses hintStart (references.flatMap Reference.left) [] := by
    intro references
    induction references with
    | nil => exact Text.misses_nil _ _
    | cons reference references ih =>
      rw [List.flatMap_cons]
      refine (reference.misses_hint_left ?_).append ih
      rw [List.append_nil]
      exact opensNext_references Reference.exists_left references
  refine (misses_hint_setAside template.first.no_hint ?_).append (hreferences _)
  rw [List.append_nil]
  exact opensNext_references Reference.exists_left _

/-- The check finds the first torn reference. -/
theorem brace?_left :
    Leftover.brace? template.left =
      (template.references.find? fun reference => reference.IsTorn).map Reference.torn := by
  have hfirst : '\x7b' ∉ setAside template.first.text :=
    brace_not_mem_respell (.inl rfl) (by decide) (by decide) _
  rw [left, Reference.brace?_append hfirst]
  induction template.references with
  | nil => simp [Leftover.brace?]
  | cons reference references ih =>
    rw [List.flatMap_cons, Reference.brace?_left, ih, List.find?_cons]
    by_cases htorn : reference.IsTorn <;> simp [htorn]

/-- Without a torn reference the restored text is the target. -/
theorem restoreBraces_left (h : ∀ reference ∈ template.references, ¬reference.IsTorn) :
    restoreBraces template.left = template.target := by
  have hopen : Markup.swap "&#123;" "\x7b" (by decide) template.left =
      respell "\x7b" "&#125;" template.first.text ++ template.references.flatMap fun reference =>
        Markup.variableText reference.name.val ++
          respell "\x7b" "&#125;" reference.behind.text := by
    have hbegins : (Pattern.fixed "&#123;").BeginsWith ('&' :: "#123;") :=
      Pattern.after_beginsWith _ _ _
    rw [left,
      swap_openReference template.first.no_openReference
      (opensNext_references Reference.exists_left _)]
    refine congrArg _ (replace_references Reference.exists_left
      fun reference hmem others hothers => ?_)
    rw [reference.left_eq (h reference hmem), List.append_assoc, List.append_assoc,
      Pattern.replace_append (hbegins.passes (reference.misses_variable (by decide) (by decide) _))]
    exact congrArg _ (swap_openReference reference.behind.no_openReference hothers)
  have hvariable : ∀ reference : Reference, ∃ more,
      Markup.variableText reference.name.val ++ respell "\x7b" "&#125;" reference.behind.text =
        '\x7b' :: more :=
    fun _ => ⟨_, rfl⟩
  rw [restoreBraces, Function.comp_apply, hopen,
    swap_closeReference template.first.no_closeReference (opensNext_references hvariable _), target]
  have hbegins : (Pattern.fixed "&#125;").BeginsWith ('&' :: "#125;") :=
    Pattern.after_beginsWith _ _ _
  refine congrArg _ (replace_references hvariable fun reference hmem others hothers => ?_)
  rw [List.append_assoc, Reference.target, List.append_assoc,
    Pattern.replace_append (hbegins.passes (reference.misses_variable (by decide) (by decide) _))]
  exact congrArg _ (swap_closeReference reference.behind.no_closeReference hothers)

theorem foldl_eq_self {others : List Change} {text : Text}
    (h : ∀ change ∈ others, change text = text) :
    others.foldl (fun text change => change text) text = text := by
  induction others with
  | nil => rfl
  | cons change others ih =>
    obtain ⟨hchange, hothers⟩ := List.forall_mem_cons.1 h
    exact foldl_changes_cons hchange (ih hothers)

theorem replace_left {α : Type} {pattern : Pattern α} {start : Text}
    (hbegins : pattern.BeginsWith start) (hstart : start.head? = some '<') (write : α → Text) :
    pattern.replace write template.left = template.left := by
  obtain ⟨start, rfl⟩ := List.head?_eq_some_iff.1 hstart
  exact Pattern.replace_eq_self write (hbegins.passes (Text.misses_of_not_mem template.no_tag_left))

theorem replaceM_left {α ε : Type} {pattern : Pattern α} {start : Text}
    (hbegins : pattern.BeginsWith start) (hstart : start.head? = some '<')
    (write : α → Except ε Text) : pattern.replaceM write template.left = .ok template.left := by
  obtain ⟨start, rfl⟩ := List.head?_eq_some_iff.1 hstart
  exact Pattern.replaceM_eq_self write
    (hbegins.passes (Text.misses_of_not_mem template.no_tag_left))

/-- Without a tag there is nothing to do for the passes behind the first three. -/
theorem changeMarkup_source : changeMarkup template.source = template.left := by
  have hhint : Markup.livePreview.remove template.left = template.left :=
    Pattern.replace_eq_self _ ((Pattern.after_beginsWith _ _ _).passes template.misses_hint_left)
  have htags : ∀ change ∈ changes.drop 6, change template.left = template.left := by
    simp only [changes, List.drop_succ_cons, List.drop_zero, List.forall_mem_cons]
    refine ⟨?_, ?_, ?_, ?_, ?_, ?_, ?_, by simp⟩ <;>
      exact template.replace_left (Pattern.after_beginsWith _ _ _) (by decide) _
  refine foldl_changes_cons rfl (foldl_changes_cons rfl (foldl_changes_cons template.left_eq ?_))
  refine foldl_changes_cons
    (template.replace_left (Pattern.after_beginsWith _ _ _) (by decide) _) ?_
  refine foldl_changes_cons
    (template.replace_left (Pattern.after_beginsWith _ _ _) (by decide) _) ?_
  exact foldl_changes_cons hhint (foldl_eq_self htags)

theorem no_infix_left (tag : Text) : ¬('<' :: tag) <:+: template.left :=
  fun hbegun => template.no_tag_left (hbegun.subset List.mem_cons_self)

theorem beforeCheck_source : beforeCheck template.source = .ok template.left := by
  have hconditions : Dialect.convertConditions template.left = .ok template.left :=
    template.replaceM_left (Pattern.after_beginsWith _ _ _) (by decide) _
  have hselections : Dialect.convertSelections template.left = .ok template.left :=
    template.replaceM_left (Pattern.after_beginsWith _ _ _) (by decide) _
  have hbodies : Dialect.foldAttributeBodies template.left = .ok template.left :=
    template.replaceM_left (Pattern.after_beginsWith _ _ _) (by decide) _
  have hinline : inlineAttributes template.left = template.left :=
    inlineAttributes_eq_self (template.no_infix_left "xsl:")
  simp only [beforeCheck, changeMarkup_source, hconditions, hselections, hbodies, hinline,
    bind, Except.bind]
  rfl

theorem check_left : Leftover.check template.left =
    match template.references.find? fun reference => reference.IsTorn with
    | some reference => .error (.loneBrace reference.torn)
    | none => .ok () := by
  have helement : Leftover.element? template.left = none :=
    element?_eq_none_iff.2 (template.no_infix_left "xsl:")
  rw [Leftover.check, helement, brace?_left]
  cases template.references.find? fun reference => reference.IsTorn <;> rfl

theorem convert_source_torn {reference : Reference}
    (h : template.references.find? (fun reference => reference.IsTorn) = some reference) :
    convert template.source = .error (.loneBrace reference.torn) := by
  rw [convert_of_beforeCheck template.beforeCheck_source, check_left, h]
  rfl

theorem convert_source_whole (h : ∀ reference ∈ template.references, ¬reference.IsTorn) :
    convert template.source = .ok template.target := by
  have hfind : template.references.find? (fun reference => reference.IsTorn) = none := by
    simpa using h
  rw [convert_of_beforeCheck template.beforeCheck_source, check_left, hfind,
    ← template.restoreBraces_left h]
  rfl

/-- A template is converted as it is meant exactly if no reference has a closing brace of the
literal text directly behind it. Otherwise the first reference that has one is torn apart and
reported. -/
theorem convert_doubled :
    (convert template.source = .ok template.target ↔
      ∀ reference ∈ template.references, ¬reference.IsTorn) ∧
    ∀ reference ∈ template.references.find? fun reference => reference.IsTorn,
      convert template.source = .error (.loneBrace reference.torn) := by
  refine ⟨⟨fun hconvert => ?_, template.convert_source_whole⟩,
    fun reference => template.convert_source_torn⟩
  by_contra hnot
  obtain ⟨reference, hfind⟩ : ∃ reference,
      template.references.find? (fun reference => reference.IsTorn) = some reference := by
    simpa [← Option.isSome_iff_exists] using hnot
  rw [template.convert_source_torn hfind] at hconvert
  cases hconvert

def closeBehind : ValueTemplate where
  first := ⟨[], by decide, by decide, by decide, by decide⟩
  references :=
    [⟨⟨"a", by decide, by decide⟩, ⟨"\x7d", by decide, by decide, by decide, by decide⟩⟩]

theorem convert_closeBehind :
    closeBehind.source = "\x7b@a\x7d\x7d\x7d" ∧ closeBehind.target = "\x7b$a\x7d\x7d" ∧
      convert closeBehind.source = .error (.loneBrace "\x7b@a&#125;\x7d") ∧
        ¬∀ template : ValueTemplate, convert template.source = .ok template.target := by
  have herror : convert closeBehind.source = .error (.loneBrace "\x7b@a&#125;\x7d") :=
    closeBehind.convert_source_torn rfl
  refine ⟨by decide, by decide, herror, fun hall => ?_⟩
  rw [hall closeBehind] at herror
  cases herror

end ValueTemplate

end LazyEmbed.Template
