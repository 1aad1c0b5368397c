import LazyEmbed.Proofs.Template.Host

/-!
# Attribute elements behind a start tag

Attribute elements are moved into the start tag before them one by one. A start tag is read up to
the first closing bracket, so once a value has one in it, the tag is read no further than to that
value, and the next attribute element stays where it is. All are moved exactly if no value but the
last has a closing bracket.
-/

namespace LazyEmbed

namespace Pattern

variable {α : Type} {pattern : Pattern α}

theorem splitFirst?_of_run_eq_some {text rest : Text} {value : α}
    (h : pattern.reader.run text = some (value, rest)) :
    pattern.splitFirst? text = some ([], value, rest) := by
  cases text with
  | nil => exact absurd (pattern.consumes h) (by simp)
  | cons c text => simp [splitFirst?, h]

theorem splitFirst?_append {text rest : Text} (h : pattern.Passes text rest) :
    pattern.splitFirst? (text ++ rest) = (pattern.splitFirst? rest).map fun (before, value, left) =>
      (text ++ before, value, left) := by
  induction text with
  | nil =>
    rw [List.nil_append]
    cases pattern.splitFirst? rest <;> rfl
  | cons c text ih =>
    rw [List.cons_append, splitFirst?, h.head, ih h.tail, Option.map_map]
    rfl

end Pattern

namespace Template

open MixedContent

/-! ### Inlining -/

theorem inlineAttributes_of_inlineFirst? {text shorter : Text}
    (h : inlineFirst? text = some shorter) : inlineAttributes text = inlineAttributes shorter := by
  rw [inlineAttributes]
  split
  · next other hother => rw [Option.some.inj (h.symm.trans hother)]
  · next hnone => simp [h] at hnone

theorem inlineAttributes_of_none {text : Text} (h : inlineFirst? text = none) :
    inlineAttributes text = text := by
  rw [inlineAttributes]
  split
  · next other hother => simp [h] at hother
  · rfl

/-- What no hit begins in stays as it is, whatever is moved behind it. -/
theorem inlineAttributes_append {front : Text} (h : ∀ rest, Inlinable.pattern.Passes front rest)
    (text : Text) : inlineAttributes (front ++ text) = front ++ inlineAttributes text := by
  have hfirst : ∀ rest, inlineFirst? (front ++ rest) = (inlineFirst? rest).map (front ++ ·) := by
    intro rest
    rw [inlineFirst?, Pattern.splitFirst?_append (h rest), inlineFirst?, Option.map_map,
      Option.map_map]
    congr 1
    funext found
    simp
  fun_induction inlineAttributes text with
  | case1 text shorter hsome ih =>
    rw [← ih]
    exact inlineAttributes_of_inlineFirst? (by rw [hfirst, hsome, Option.map_some])
  | case2 text hnone => exact inlineAttributes_of_none (by rw [hfirst, hnone, Option.map_none])

/-- A text that can be moved into a tag. It has no tag of the source dialect, and every brace in it
is one of the forum dialect. -/
structure IsMovable (value : Text) : Prop where
  no_element : ¬("<xsl:" : Text) <:+: value
  no_closing : ¬("</xsl:" : Text) <:+: value
  no_line : '\n' ∉ value
  no_reference : '&' ∉ value
  no_brace : ∀ rest, (∀ hit ∈ Leftover.braces.hits rest, hit = none) →
    ∀ hit ∈ Leftover.braces.hits (value ++ rest), hit = none

/-- A text that can be the value of an attribute once conditionals are folded. -/
structure IsValue (value : Text) : Prop where
  no_open : '<' ∉ value
  no_line : '\n' ∉ value
  no_reference : '&' ∉ value
  no_brace : ∀ rest, (∀ hit ∈ Leftover.braces.hits rest, hit = none) →
    ∀ hit ∈ Leftover.braces.hits (value ++ rest), hit = none

theorem IsValue.isMovable {value : Text} (h : IsValue value) : IsMovable value where
  no_element hwithin := h.no_open (hwithin.subset (by decide))
  no_closing hwithin := h.no_open (hwithin.subset (by decide))
  no_line := h.no_line
  no_reference := h.no_reference
  no_brace := h.no_brace

/-- A bracket is not part of a namespace. -/
theorem Inlinable.isNamespaced_append (tag rest : Text) :
    isNamespaced (tag ++ '>' :: rest) = isNamespaced tag := by
  rw [isNamespaced, isNamespaced, Text.takeWhile_append_stop (by decide),
    Text.dropWhile_append_stop (by decide)]
  cases tag.dropWhile Text.isWord with
  | nil => simp
  | cons c left => rfl

namespace Host

variable (host : Host) {inside outside : List (Name × Text)}

theorem exists_tagWith_append (inside : List (Name × Text)) (rest : Text) :
    ∃ d behind, host.tagWith inside ++ '>' :: rest = host.name ++ d :: behind ∧
      (d = ' ' ∨ d = '>') := by
  rw [tagWith, List.append_assoc]
  cases inside with
  | nil => exact host.exists_tag_append (.inr rfl) rest
  | cons item inside => exact host.exists_tag_append (.inl rfl) _

theorem not_mem_tagWith {c : Char} (htag : c ∉ host.tag) (hword : Text.isWord c = false)
    (hfixed : c ∉ [' ', '=', '"']) (h : ∀ item ∈ inside, c ∉ item.2) : c ∉ host.tagWith inside := by
  simp only [List.mem_cons, List.not_mem_nil, or_false, not_or] at hfixed
  refine fun hmem => (List.mem_append.1 hmem).elim htag fun hmem => ?_
  obtain ⟨item, hitem, hmem⟩ := List.mem_flatMap.1 hmem
  have hname : c ∉ item.1.val :=
    fun hmem => Bool.noConfusion (hword.symm.trans (item.1.property.2 c hmem))
  simp [attributeText, hname, hfixed, h item hitem] at hmem

theorem no_open_tagWith (h : ∀ item ∈ inside, IsValue item.2) : '<' ∉ host.tagWith inside :=
  host.not_mem_tagWith (host.not_mem_tag (by decide)) (by decide) (by decide) fun item hitem =>
    (h item hitem).no_open

theorem isNamespaced_name {d : Char} {behind : Text} (hd : d = ' ' ∨ d = '>') :
    Inlinable.isNamespaced (host.name ++ d :: behind) = false := by
  have hname : ':' ∉ host.name := host.not_mem_name (by decide)
  have hword : Text.isWord d = false ∧ d ≠ ':' := by
    obtain rfl | rfl := hd
    · decide
    · decide
  have hhead : ((host.name ++ d :: behind).dropWhile Text.isWord).head? ≠ some ':' := by
    rw [Text.dropWhile_append_stop hword.1]
    cases hleft : host.name.dropWhile Text.isWord with
    | nil => simpa using hword.2
    | cons c left =>
      have hmem : c ∈ host.name :=
        (List.dropWhile_suffix Text.isWord).subset (hleft ▸ List.mem_cons_self)
      simpa using ne_of_mem_of_not_mem hmem hname
  rw [Inlinable.isNamespaced, beq_eq_false_iff_ne.2 hhead, Bool.and_false]

theorem run_value {value : Text} (h : IsMovable value) (rest : Text) :
    (Reader.upTo (· ≠ '\n') "</xsl:attribute>").run (value ++ ("</xsl:attribute>" ++ rest)) =
      some (value, rest) := by
  have hshortest : (Reader.shortest (· ≠ '\n') (.literal "</xsl:attribute>")).run
      (value ++ ("</xsl:attribute>" ++ rest)) = some ((value, ()), rest) := by
    refine Reader.run_shortest_append (Text.forall_ne_iff.2 h.no_line) (fun first second heq hne =>
      ?_) (Reader.run_literal_append _ _)
    have hmisses : Text.Misses "</xsl:" value ("</xsl:attribute>" ++ rest) :=
      Text.misses_of_not_isInfix h.no_closing fun c hc => Option.some.inj hc ▸ by decide
    have hlonger : ("</xsl:" : Text) <+: "</xsl:attribute>" := by decide
    rw [Option.eq_none_iff_forall_ne_some]
    rintro ⟨_, left⟩ hrun
    exact hmisses first second heq hne
      (hlonger.trans ⟨left, (Reader.run_literal_eq_some_iff.1 hrun).symm⟩)
  rw [Reader.upTo, Reader.run_bind, hshortest]
  rfl

/-- An attribute element is moved into whatever is between the brackets before it, unless that has a
namespace. -/
theorem run_inlinable_tag {tag : Text} (hclose : '>' ∉ tag) (h : Inlinable.isNamespaced tag = false)
    (item : Name × Text) (hvalue : IsMovable item.2) (rest : Text) :
    Inlinable.pattern.reader.run ("<" ++ (tag ++ '>' :: (attributeElement item ++ rest))) =
      some (⟨tag, item.1.val, item.2⟩, rest) := by
  have hahead :
      (Reader.ahead (!Inlinable.isNamespaced ·)).run
        (tag ++ '>' :: (attributeElement item ++ rest)) =
          some ((), tag ++ '>' :: (attributeElement item ++ rest)) := by
    rw [Reader.run_ahead, Inlinable.isNamespaced_append, h]
    rfl
  have hliteral :
      (Reader.literal "><xsl:attribute name=\"").run ('>' :: (attributeElement item ++ rest)) =
        some ((), item.1.val ++ ("\">" ++ (item.2 ++ ("</xsl:attribute>" ++ rest)))) := by
    have hopen : ("><xsl:attribute name=\"" : Text) = '>' :: ("<xsl:attribute name=\"" : Text) := by
      decide
    rw [attributeElement_append, hopen, ← List.cons_append, Reader.run_literal_append]
  have hname : (Reader.many1 Text.isWord).run
      (item.1.val ++ ("\">" ++ (item.2 ++ ("</xsl:attribute>" ++ rest)))) =
        some (item.1.val, "\">" ++ (item.2 ++ ("</xsl:attribute>" ++ rest))) :=
    Reader.run_many1_of_all item.1.property.1 item.1.property.2 (d := '"') rfl
      ('>' :: (item.2 ++ ("</xsl:attribute>" ++ rest)))
  rw [Inlinable.pattern, Pattern.run_after_append, Inlinable.body]
  simp only [Reader.run_bind, hahead, Option.bind_some, Reader.run_many_ne hclose, hliteral, hname,
    Reader.run_literal_append, run_value hvalue, Reader.run_pure]

/-- An attribute element is moved into a tag without a closing bracket. -/
theorem run_inlinable (hclose : '>' ∉ host.tagWith inside) (item : Name × Text)
    (hvalue : IsMovable item.2) (rest : Text) :
    Inlinable.pattern.reader.run ("<" ++
      (host.tagWith inside ++ '>' :: (attributeElement item ++ rest))) =
      some (⟨host.tagWith inside, item.1.val, item.2⟩, rest) := by
  obtain ⟨d, behind, hsplit, hd⟩ :=
    host.exists_tagWith_append inside (attributeElement item ++ rest)
  have hnamespaced : Inlinable.isNamespaced (host.name ++ d :: behind) = false :=
    host.isNamespaced_name hd
  rw [← hsplit, Inlinable.isNamespaced_append] at hnamespaced
  exact run_inlinable_tag hclose hnamespaced item hvalue rest

/-- Nothing is moved into the tag of an attribute element. -/
theorem passes_inlinable_attributeOpening (name : Name) (rest : Text) :
    Inlinable.pattern.Passes (attributeOpening name) rest := by
  have hbegins : Inlinable.pattern.BeginsWith ['<'] := Pattern.after_beginsWith _ _ _
  have hsplit : ("<xsl:attribute name=\"" : Text) = "<" ++ ("xsl:" ++ "attribute name=\"") := by
    decide
  have hname : '<' ∉ name.val := name.property.isClean '<' (by decide)
  have hopening :
      attributeOpening name = '<' :: ("xsl:attribute name=\"" ++ (name.val ++ "\">")) := by
    change "<xsl:attribute name=\"" ++ (name.val ++ "\">") = _
    rw [hsplit]
    rfl
  have hopen : '<' ∉ ("xsl:attribute name=\"" : Text) ++ (name.val ++ ("\">" : Text)) := by
    simp only [List.mem_append, not_or]
    exact ⟨by decide, hname, by decide⟩
  have hrun : ∀ text : Text, Inlinable.pattern.reader.run ("<" ++ ("xsl:" ++ text)) = none := by
    intro text
    have hnamespaced : Inlinable.isNamespaced ("xsl:" ++ text) = true := rfl
    rw [Inlinable.pattern, Pattern.run_after_append, Inlinable.body, Reader.run_bind,
      Reader.run_ahead, hnamespaced]
    rfl
  rw [hopening]
  refine Pattern.passes_cons ?_ (hbegins.passes (Text.misses_of_not_mem hopen))
  exact hrun ("attribute name=\"" ++ (name.val ++ "\">") ++ rest)

theorem run_element (name : Name) (rest : Text) :
    Leftover.element.reader.run (attributeOpening name ++ rest) =
      some (attributeOpening name, rest) := by
  have hopening : ∀ rest : Text, attributeOpening name ++ rest =
      "<xsl:" ++ (("attribute name=\"" ++ (name.val ++ ['"'])) ++ '>' :: rest) := by
    have hopen : ("<xsl:attribute name=\"" : Text) = "<xsl:" ++ "attribute name=\"" := by decide
    intro rest
    change "<xsl:attribute name=\"" ++ (name.val ++ ['"', '>']) ++ rest = _
    rw [hopen]
    simp
  have hinside : '>' ∉ ("attribute name=\"" : Text) ++ (name.val ++ ['"']) := by
    have hname : '>' ∉ name.val := fun hmem => absurd (name.property.2 '>' hmem) (by decide)
    simp only [List.mem_append, not_or]
    exact ⟨by decide, hname, by decide⟩
  have hclosing : (Reader.optional (.literal ">")).run ('>' :: rest) = some (some (), rest) :=
    Reader.run_optional_of_run_eq_some (Reader.run_literal_singleton '>' rest)
  rw [hopening, Leftover.element, Pattern.run_after_append]
  simp only [Reader.run_bind, Reader.run_many_ne hinside, Option.bind_some, hclosing,
    Reader.run_pure]
  have hnil := hopening []
  rw [List.append_nil] at hnil
  rw [hnil, List.append_assoc]
  rfl

/-- A tag with a closing bracket in it is not read to its end. -/
theorem run_inlinable_eq_none (hclose : '>' ∈ host.tagWith inside)
    (hopen : '<' ∉ host.tagWith inside) (rest : Text) :
    Inlinable.pattern.reader.run ("<" ++ (host.tagWith inside ++ '>' :: rest)) = none := by
  obtain ⟨before, behind, hsplit, hbefore⟩ := List.eq_append_cons_of_mem hclose
  have hnext : ∃ c more, behind ++ '>' :: rest = c :: more ∧ c ≠ '<' := by
    cases hbehind : behind with
    | nil => exact ⟨'>', rest, rfl, by decide⟩
    | cons c more =>
      refine ⟨c, more ++ '>' :: rest, rfl, ne_of_mem_of_not_mem ?_ hopen⟩
      rw [hsplit, hbehind]
      simp
  obtain ⟨c, more, hnext, hc⟩ := hnext
  have hliteral : (Reader.literal "><xsl:attribute name=\"").run ('>' :: c :: more) = none := by
    simp [Reader.literal, Text.afterStart?, Ne.symm hc]
  rw [Inlinable.pattern, Pattern.run_after_append, Inlinable.body, hsplit, List.append_assoc,
    List.cons_append, hnext]
  rw [Reader.run_bind, Reader.run_ahead]
  split
  · simp only [Option.bind_some, Reader.run_bind, Reader.run_many_ne hbefore, hliteral,
      Option.bind_none]
  · rfl

/-! ### What is moved -/

section

variable {item : Name × Text}

theorem no_close_tagWith (h : ∀ item ∈ inside, '>' ∉ item.2) : '>' ∉ host.tagWith inside :=
  host.not_mem_tagWith (host.not_mem_tag (by decide)) (by decide) (by decide) h

theorem text_cons (inside : List (Name × Text)) (item : Name × Text)
    (outside : List (Name × Text)) :
    host.text inside (item :: outside) = "<" ++
      (host.tagWith inside ++ '>' ::
        (attributeElement item ++ (outside.flatMap attributeElement ++ host.last))) := by
  rw [text, List.flatMap_cons, List.append_assoc]
  rfl

theorem inlineFirst?_text (hclose : '>' ∉ host.tagWith inside) (hvalue : IsMovable item.2)
    (outside : List (Name × Text)) :
    inlineFirst? (host.text inside (item :: outside)) =
      some (host.text (inside ++ [item]) outside) := by
  have hrun := host.run_inlinable hclose item hvalue (outside.flatMap attributeElement ++ host.last)
  rw [inlineFirst?, text_cons, Pattern.splitFirst?_of_run_eq_some hrun, Option.map_some,
    Option.some.injEq]
  unfold Inlinable.inlined
  simp [text, tagWith, attributeText]

/-- Attribute elements are moved as long as there is no closing bracket in the values before
them. -/
theorem inlineAttributes_text {moved : List (Name × Text)} (hinside : ∀ item ∈ inside, '>' ∉ item.2)
    (hvalue : ∀ item ∈ moved, IsValue item.2) (hmoved : ∀ item ∈ moved.dropLast, '>' ∉ item.2)
    (outside : List (Name × Text)) :
    inlineAttributes (host.text inside (moved ++ outside)) =
      inlineAttributes (host.text (inside ++ moved) outside) := by
  induction moved generalizing inside with
  | nil => rw [List.append_nil, List.nil_append]
  | cons item moved ih =>
    obtain ⟨hitem, hothers⟩ := List.forall_mem_cons.1 hvalue
    rw [List.cons_append,
      inlineAttributes_of_inlineFirst?
      (host.inlineFirst?_text (host.no_close_tagWith hinside) hitem.isMovable _)]
    cases moved with
    | nil => rfl
    | cons second moved =>
      obtain ⟨hclose, hmoved⟩ := List.forall_mem_cons.1 hmoved
      rw [ih (List.forall_mem_append.2 ⟨hinside, by simpa using hclose⟩) hothers hmoved,
        List.append_assoc, List.singleton_append]

end

/-! ### What is left over -/

section

variable (hvalue : ∀ item ∈ inside, IsMovable item.2)
include hvalue

theorem misses_element_attributes (rest : Text) :
    Text.Misses "<xsl:" (inside.flatMap fun item => attributeText (item.1.val, item.2)) rest := by
  induction inside with
  | nil => exact Text.misses_nil _ rest
  | cons item inside ih =>
    obtain ⟨hitem, hinside⟩ := List.forall_mem_cons.1 hvalue
    have hname : '<' ∉ ' ' :: (item.1.val ++ "=\"") := by
      have hname : '<' ∉ item.1.val := item.1.property.isClean '<' (by decide)
      simp [hname]
    have hquote : '<' ∉ ("\"" : Text) := by decide
    have htext :
        attributeText (item.1.val, item.2) = ' ' :: (item.1.val ++ "=\"") ++ (item.2 ++ "\"") := by
      simp [attributeText]
    rw [List.flatMap_cons, htext]
    refine Text.Misses.append ((Text.misses_of_not_mem hname).append
      (Text.Misses.append ?_ (Text.misses_of_not_mem hquote))) (ih hinside)
    exact Text.misses_of_not_isInfix hitem.no_element fun c hc => Option.some.inj hc ▸ by decide

theorem misses_element_tagWith (rest : Text) :
    Text.Misses "<xsl:" ('<' :: (host.tagWith inside ++ ['>'])) rest := by
  have helement : ("<xsl:" : Text) = '<' :: ("xsl:" : Text) := by decide
  have htag : Text.Misses "<xsl:" (host.tagWith inside ++ ['>']) rest := by
    have hname : '<' ∉ host.tag := host.not_mem_tag (by decide)
    exact ((Text.misses_of_not_mem hname).append (misses_element_attributes hvalue _)).append
      (Text.misses_of_apart (by decide) rest)
  rw [helement] at htag ⊢
  refine Text.misses_cons (fun hbegins => ?_) htag
  have hstart := (List.cons_prefix_cons.1 hbegins).2
  obtain ⟨d, behind, hsplit, hd⟩ := host.exists_tagWith_append inside rest
  rw [List.append_assoc, List.singleton_append, hsplit] at hstart
  refine host.not_prefix_name (by decide) ?_ hstart
  obtain rfl | rfl := hd
  · decide
  · decide

theorem no_element_text : Text.Misses "<xsl:" (host.text inside []) [] := by
  have hlast : Text.Misses "<xsl:" host.last [] := host.misses_last (by decide) []
  have happend := (host.misses_element_tagWith hvalue (host.last ++ [])).append hlast
  simpa [text] using happend

theorem forall_hits_braces_tagWith {rest : Text}
    (h : ∀ hit ∈ Leftover.braces.hits rest, hit = none) :
    ∀ hit ∈ Leftover.braces.hits (host.tagWith inside ++ rest), hit = none := by
  have htag : '\x7b' ∉ host.tag := host.not_mem_tag (by decide)
  rw [tagWith, List.append_assoc, Pattern.hits_append (passes_braces htag _)]
  induction inside with
  | nil => exact h
  | cons item inside ih =>
    obtain ⟨hitem, hinside⟩ := List.forall_mem_cons.1 hvalue
    have hname : '\x7b' ∉ ' ' :: (item.1.val ++ "=\"") := by
      have hname : '\x7b' ∉ item.1.val := item.1.property.isClean '\x7b' (by decide)
      simp [hname]
    have hquote : '\x7b' ∉ ("\"" : Text) := by decide
    have hcons : (item :: inside).flatMap (fun item => attributeText (item.1.val, item.2)) ++ rest =
        ' ' :: (item.1.val ++ "=\"") ++ (item.2 ++ ("\"" ++
          (inside.flatMap (fun item => attributeText (item.1.val, item.2)) ++ rest))) := by
      simp [attributeText]
    rw [hcons, Pattern.hits_append (passes_braces hname _)]
    refine hitem.no_brace _ ?_
    rw [Pattern.hits_append (passes_braces hquote _)]
    exact ih hinside

/-- A host with its attributes moved in passes the check. -/
theorem check_text : Leftover.check (host.text inside []) = .ok () := by
  have hbegins : Leftover.element.BeginsWith "<xsl:" := Pattern.after_beginsWith _ _ _
  have helement : Leftover.element? (host.text inside []) = none := by
    rw [Leftover.element?, Pattern.hits_eq_nil (hbegins.passes (host.no_element_text hvalue))]
    rfl
  have hopen : '\x7b' ∉ ['<'] := by decide
  have hlast : '\x7b' ∉ '>' :: host.last := by
    have hname : '\x7b' ∉ host.name := host.not_mem_name (by decide)
    simp [last, hname]
  have hhits : ∀ hit ∈ Leftover.braces.hits (host.text inside []), hit = none := by
    have htext : host.text inside [] = ['<'] ++ (host.tagWith inside ++ '>' :: host.last) := rfl
    rw [htext, Pattern.hits_append (passes_braces hopen _)]
    refine host.forall_hits_braces_tagWith hvalue ?_
    rw [Pattern.hits_eq_nil (passes_braces hlast [])]
    exact List.forall_mem_nil _
  have hbrace : Leftover.brace? (host.text inside []) = none := by
    rw [Leftover.brace?, List.findSome?_eq_none_iff]
    exact hhits
  rw [Leftover.check, helement, hbrace]

theorem restoreBraces_text : restoreBraces (host.text inside []) = host.text inside [] := by
  have htag : '&' ∉ host.tagWith inside :=
    host.not_mem_tagWith (host.not_mem_tag (by decide)) (by decide) (by decide) fun item hitem =>
      (hvalue item hitem).no_reference
  have hname : '&' ∉ host.name := host.not_mem_name (by decide)
  have hreference : '&' ∉ host.text inside [] := by simp [text, last, htag, hname]
  have hswap : ∀ (reference new : Text), Markup.swap ('&' :: reference) new (List.cons_ne_nil _ _)
      (host.text inside []) = host.text inside [] := fun reference new =>
    Pattern.replace_eq_self _ ((Pattern.after_beginsWith _ _ _).passes
      (Text.misses_of_not_mem hreference))
  exact (congrArg _ (hswap "#123;" "\x7b")).trans (hswap "#125;" "\x7d")

end

/-! ### What is refused -/

section

variable (hvalue : ∀ item ∈ inside, IsValue item.2)
include hvalue

/-- The tag with a closing bracket in it and the opening tag behind it stay as they are. -/
theorem passes_inlinable (hclose : '>' ∈ host.tagWith inside) (name : Name) (rest : Text) :
    Inlinable.pattern.Passes ('<' :: (host.tagWith inside ++ ['>']) ++
      attributeOpening name) rest := by
  have hbegins : Inlinable.pattern.BeginsWith ['<'] := Pattern.after_beginsWith _ _ _
  have hopen := host.no_open_tagWith hvalue
  have htag :
      Inlinable.pattern.Passes ('<' :: (host.tagWith inside ++ ['>']))
        (attributeOpening name ++ rest) := by
    refine Pattern.passes_cons ?_ (hbegins.passes (Text.misses_of_not_mem (by simpa using hopen)))
    rw [List.append_assoc]
    exact host.run_inlinable_eq_none hclose hopen _
  exact htag.append (passes_inlinable_attributeOpening name rest)

/-- The attribute element behind a tag with a closing bracket in it is reported. -/
theorem check_inlineAttributes (hclose : '>' ∈ host.tagWith inside) (item : Name × Text) :
    Leftover.check (inlineAttributes (host.text inside (item :: outside))) =
      .error (.foreignElement (attributeOpening item.1)) := by
  have htext : host.text inside (item :: outside) =
      ('<' :: (host.tagWith inside ++ ['>']) ++ attributeOpening item.1) ++
        (item.2 ++ attributeClosing ++ (outside.flatMap attributeElement ++ host.last)) := by
    simp [text, attributeElement]
  have hbegins : Leftover.element.BeginsWith "<xsl:" := Pattern.after_beginsWith _ _ _
  rw [htext, inlineAttributes_append (host.passes_inlinable hvalue hclose item.1),
    List.append_assoc]
  generalize inlineAttributes _ = rest
  have helement :
      Leftover.element? ('<' :: (host.tagWith inside ++ ['>']) ++
        (attributeOpening item.1 ++ rest)) = some (attributeOpening item.1) := by
    rw [Leftover.element?,
      Pattern.hits_append
      (hbegins.passes (host.misses_element_tagWith (fun item hitem => (hvalue item hitem).isMovable)
      _)), Pattern.hits_of_run_eq_some (run_element item.1 rest), List.head?_cons]
  rw [Leftover.check, helement]

end

end Host

end Template

end LazyEmbed
