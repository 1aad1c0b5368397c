import LazyEmbed.Proofs.Template.Body

/-!
# An element with attribute elements

An element whose content is attribute elements, one directly behind the other. The passes over a
template find nothing in its start tag, in the tags of the attribute elements and in its end tag, so
each of them changes the tokens inside the attribute elements alone.
-/

namespace LazyEmbed.Template

open MixedContent

def isNameChar (c : Char) : Bool := Text.isWord c || c = '-' || c = '.'

def IsElementName (name : Text) : Prop :=
  ∃ c rest, name = c :: rest ∧ c.isAlpha = true ∧ ∀ d ∈ rest, isNameChar d = true

/-- The name and the value of an attribute that means nothing but itself and is no hint for a live
preview. -/
structure IsAttribute (name value : Text) : Prop where
  no_meaning : ∀ c ∈ ['<', '>', '&', '"', '\x7b', '\x7d'], c ∉ name ∧ c ∉ value
  no_blank : ' ' ∉ name
  no_hint : ¬("data-s9e-livepreview" : Text) <+: name
  no_hint_value : ¬hintStart <:+: value

/-- An element that attributes can be moved to: its name and the attributes that it has. -/
structure Host where
  name : Text
  attributes : List (Text × Text)
  isElementName : IsElementName name
  isAttribute : ∀ item ∈ attributes, IsAttribute item.1 item.2

def attributeText (item : Text × Text) : Text :=
  ' ' :: (item.1 ++ ("=\"" ++ (item.2 ++ "\"")))

namespace Host

variable (host : Host)

def tag : Text := host.name ++ host.attributes.flatMap attributeText

def head : Text := '<' :: (host.tag ++ ['>'])

def last : Text := '<' :: '/' :: (host.name ++ ['>'])

theorem isNameChar_of_mem {c : Char} (hc : c ∈ host.name) : isNameChar c = true := by
  obtain ⟨first, rest, hname, hfirst, hrest⟩ := host.isElementName
  rw [hname] at hc
  obtain rfl | hc := List.mem_cons.1 hc
  · have halphanum : c.isAlphanum = true := by simp [Char.isAlphanum, hfirst]
    have hranges := Html.isAlphanum_iff.1 halphanum
    have hascii : c.toNat < 128 := by omega
    simp [isNameChar, Text.isWord, hascii, halphanum]
  · exact hrest c hc

theorem not_mem_name {c : Char} (hc : isNameChar c = false) : c ∉ host.name := fun hmem =>
  Bool.noConfusion (hc.symm.trans (host.isNameChar_of_mem hmem))

theorem not_mem_attributes {c : Char} (hc : c ∈ ['<', '>', '&', '\x7b', '\x7d']) :
    c ∉ host.attributes.flatMap attributeText := by
  intro hmem
  obtain ⟨item, hitem, hmem⟩ := List.mem_flatMap.1 hmem
  have hmeaning : ∀ c ∈ ['<', '>', '&', '\x7b', '\x7d'], c ∈ ['<', '>', '&', '"', '\x7b', '\x7d'] ∧
      c ≠ ' ' ∧ c ∉ ("=\"" : Text) ∧ c ∉ ("\"" : Text) := by decide
  obtain ⟨hmem', hblank, hequals, hquote⟩ := hmeaning c hc
  obtain ⟨hname, hvalue⟩ := (host.isAttribute item hitem).no_meaning c hmem'
  simp only [attributeText, List.mem_cons, List.mem_append] at hmem
  exact hmem.elim hblank (Or.elim · hname (Or.elim · hequals (Or.elim · hvalue hquote)))

theorem not_mem_tag {c : Char} (hc : c ∈ ['<', '>', '&', '\x7b', '\x7d']) : c ∉ host.tag := by
  have hname : ∀ c ∈ ['<', '>', '&', '\x7b', '\x7d'], isNameChar c = false := by decide
  exact fun hmem => (List.mem_append.1 hmem).elim (host.not_mem_name (hname c hc))
    (host.not_mem_attributes hc)

/-- Behind the name there is a blank or the end of the tag. -/
theorem exists_tag_append {c : Char} (hc : c = ' ' ∨ c = '>') (rest : Text) :
    ∃ d behind, host.tag ++ c :: rest = host.name ++ d :: behind ∧ (d = ' ' ∨ d = '>') := by
  rw [tag, List.append_assoc]
  cases host.attributes with
  | nil => exact ⟨c, rest, rfl, hc⟩
  | cons item items => exact ⟨' ', _, rfl, .inl rfl⟩

/-! ### Nothing is found in the tags of the element -/

theorem misses_hint_attribute {name value : Text} (h : IsAttribute name value) (rest : Text) :
    Text.Misses hintStart (attributeText (name, value)) rest := by
  have hequals : Text.Misses hintStart ("=\"" ++ (value ++ "\"")) rest := by
    refine (misses_hint_of_not_mem (by decide) _).append (Text.Misses.append ?_
      (misses_hint_of_not_mem (by decide) rest))
    refine Text.misses_of_not_isInfix h.no_hint_value fun c hc => ?_
    obtain rfl : '"' = c := by simpa using hc
    decide
  refine Text.misses_cons (fun hbegins => h.no_hint ?_)
    ((misses_hint_of_not_mem h.no_blank _).append hequals)
  have hstart :
      ("data-s9e-livepreview" : Text) <+: name ++ '=' :: ('"' :: (value ++ "\"") ++ rest) := by
    rw [hintStart_eq, List.cons_prefix_cons, List.append_assoc] at hbegins
    exact hbegins.2
  exact Text.prefix_of_prefix_append_cons hstart (by decide)

theorem misses_hint_head (rest : Text) : Text.Misses hintStart host.head rest := by
  have hname : ' ' ∉ host.name := host.not_mem_name (by decide)
  have hattributes : ∀ items : List (Text × Text), (∀ item ∈ items, IsAttribute item.1 item.2) →
      ∀ rest, Text.Misses hintStart (items.flatMap attributeText) rest := by
    intro items hitems
    induction items with
    | nil => exact Text.misses_nil _
    | cons item items ih =>
      obtain ⟨hitem, hothers⟩ := List.forall_mem_cons.1 hitems
      exact fun rest => (misses_hint_attribute hitem _).append (ih hothers rest)
  have hopen : Text.Misses hintStart ('<' :: host.name)
      (host.attributes.flatMap attributeText ++ (['>'] ++ rest)) :=
    misses_hint_of_not_mem (by simpa using hname) _
  have hhead :
      host.head = ('<' :: host.name) ++ (host.attributes.flatMap attributeText ++ ['>']) := by
    simp [head, tag]
  rw [hhead]
  refine Text.Misses.append ?_ ((hattributes _ host.isAttribute _).append
    (misses_hint_of_not_mem (by decide) rest))
  rwa [List.append_assoc]

/-- A tag with a namespace is none that has the name of the element. -/
theorem not_prefix_name {root behind : Text} {d : Char} (hcolon : ':' ∈ root) (hd : d ∉ root) :
    ¬root <+: host.name ++ d :: behind := fun hbegins =>
  host.not_mem_name (by decide)
    ((Text.prefix_of_prefix_append_cons hbegins hd).subset hcolon)

def tagRoots : List Text := ["xsl:", "/xsl:", "xf:"]

def outerRoots : List Text := roots.erase "<iframe"

theorem outerRoots_cases {root : Text} (h : root ∈ outerRoots) :
    (∃ c ∈ ['&', '\x7b', '\x7d'], ∃ behind, root = c :: behind) ∨ root = hintStart ∨
      ∃ tag ∈ tagRoots, root = '<' :: tag := by
  have hall : ∀ root ∈ outerRoots, (∃ c ∈ ['&', '\x7b', '\x7d'], root.head? = some c) ∨
      root = hintStart ∨ ∃ tag ∈ tagRoots, root = '<' :: tag := by decide
  obtain ⟨c, hc, hhead⟩ | hother := hall root h
  · exact .inl ⟨c, hc, List.head?_eq_some_iff.1 hhead⟩
  · exact .inr hother

theorem misses_head {root : Text} (h : root ∈ outerRoots) (rest : Text) :
    Text.Misses root host.head rest := by
  have hopen : '<' ∉ host.tag ++ ['>'] := by simp [host.not_mem_tag]
  have hfixed : ∀ c ∈ ['&', '\x7b', '\x7d'], c ∈ ['<', '>', '&', '\x7b', '\x7d'] ∧
      c ∉ ['<', '>'] := by decide
  obtain ⟨c, hc, behind, rfl⟩ | rfl | ⟨tag, htag, rfl⟩ := outerRoots_cases h
  · obtain ⟨hmem, hbracket⟩ := hfixed c hc
    have htag := host.not_mem_tag hmem
    refine Text.misses_of_not_mem ?_
    simp only [List.mem_cons, List.not_mem_nil, or_false, not_or] at hbracket
    simp [head, htag, hbracket]
  · exact host.misses_hint_head rest
  · refine Text.misses_cons (fun hbegins => ?_) (Text.misses_of_not_mem hopen)
    have hstart := (List.cons_prefix_cons.1 hbegins).2
    obtain ⟨d, behind, hsplit, hd⟩ := host.exists_tag_append (.inr rfl) rest
    rw [List.append_assoc, List.singleton_append, hsplit] at hstart
    have htags : ∀ tag ∈ tagRoots, ':' ∈ tag ∧ ' ' ∉ tag ∧ '>' ∉ tag := by decide
    obtain ⟨hcolon, hblank, hclose⟩ := htags tag htag
    refine host.not_prefix_name hcolon ?_ hstart
    obtain rfl | rfl := hd
    · exact hblank
    · exact hclose

theorem misses_last {root : Text} (h : root ∈ outerRoots) (rest : Text) :
    Text.Misses root host.last rest := by
  have hopen : '<' ∉ '/' :: (host.name ++ ['>']) := by
    have hname : '<' ∉ host.name := host.not_mem_name (by decide)
    simp [hname]
  have hfixed : ∀ c ∈ ['&', '\x7b', '\x7d', ' '], isNameChar c = false ∧
      c ∉ ['<', '/', '>'] := by decide
  have hmem : ∀ c ∈ ['&', '\x7b', '\x7d', ' '], c ∉ host.last := by
    intro c hc
    obtain ⟨hchar, hbracket⟩ := hfixed c hc
    have hname := host.not_mem_name hchar
    simp only [List.mem_cons, List.not_mem_nil, or_false, not_or] at hbracket
    simp [last, hname, hbracket]
  obtain ⟨c, hc, behind, rfl⟩ | rfl | ⟨tag, htag, rfl⟩ := outerRoots_cases h
  · exact Text.misses_of_not_mem (hmem c (List.mem_append_left [' '] hc))
  · exact misses_hint_of_not_mem (hmem ' ' (by decide)) rest
  · refine Text.misses_cons (fun hbegins => ?_) (Text.misses_of_not_mem hopen)
    have hstart := (List.cons_prefix_cons.1 hbegins).2
    have htags : ∀ tag ∈ tagRoots, tag.head? ≠ some '/' ∨ tag = '/' :: ("xsl:" : Text) := by decide
    obtain hslash | rfl := htags tag htag
    · obtain ⟨c, tag, rfl⟩ := List.exists_cons_of_ne_nil (show tag ≠ [] from fun hnil => by
        subst hnil
        exact absurd htag (by decide))
      exact hslash (congrArg some (List.cons_prefix_cons.1 hstart).1)
    · have hname : ("xsl:" : Text) <+: host.name ++ ['>'] ++ rest :=
        (List.cons_prefix_cons.1 hstart).2
      rw [List.append_assoc] at hname
      exact host.not_prefix_name (by decide) (by decide) hname

/-! ### Its tags are fixed texts -/

theorem exists_root_of_mem_starts {start : Text} (h : start ∈ starts) :
    ∃ root ∈ outerRoots, root <+: start := by
  have hall : ∀ start ∈ starts, ∃ root ∈ outerRoots, root <+: start := by decide +kernel
  exact hall start h

/-- No slash ends the start tag, so it is no empty frame. -/
theorem getLast?_tag : host.tag.getLast? ≠ some '/' := by
  obtain hnil | ⟨items, item, hitems⟩ := List.eq_nil_or_concat host.attributes
  · have hname : '/' ∉ host.name := host.not_mem_name (by decide)
    rw [tag, hnil, List.flatMap_nil, List.append_nil]
    exact fun hlast => hname (List.mem_of_getLast? hlast)
  · have hlast : ∃ before, host.tag = before ++ ['"'] := by
      refine ⟨host.name ++ (items.flatMap attributeText ++ ' ' :: (item.1 ++ ("=\"" ++ item.2))),
        ?_⟩
      rw [tag, hitems]
      simp [attributeText]
    obtain ⟨before, hbefore⟩ := hlast
    rw [hbefore, List.getLast?_concat]
    decide

theorem passes_frame_head (rest : Text) : Markup.emptyFrame.Passes host.head rest := by
  have hbegins : Markup.emptyFrame.BeginsWith ('<' :: "iframe") := Pattern.after_beginsWith _ _ _
  have hopen : '<' ∉ host.tag ++ ['>'] := by simp [host.not_mem_tag]
  have hclose : '>' ∉ host.tag := host.not_mem_tag (by decide)
  refine Pattern.passes_cons ?_ (hbegins.passes (Text.misses_of_not_mem hopen))
  rw [List.append_assoc, List.singleton_append, Option.eq_none_iff_forall_ne_some]
  rintro ⟨inside, left⟩ hrun
  obtain ⟨_, behind, hstart, hrun⟩ := Reader.run_bind_eq_some_iff.1 hrun
  obtain ⟨more, _, hmany, hrun⟩ := Reader.run_bind_eq_some_iff.1 hrun
  obtain ⟨_, _, hliteral, hrun⟩ := Reader.run_bind_eq_some_iff.1 hrun
  obtain ⟨_, _, hguard, -⟩ := Reader.run_bind_eq_some_iff.1 hrun
  obtain ⟨rfl, hmore⟩ := Reader.eq_append_of_run_many hmany
  obtain rfl : _ = ['>'] ++ _ := Reader.run_literal_eq_some_iff.1 hliteral
  have htext := Reader.run_literal_eq_some_iff.1 hstart
  have hframe : ("<iframe" : Text) = '<' :: ("iframe" : Text) := by decide
  rw [hframe, List.cons_append, ← List.append_assoc] at htext
  have hmoreClose : '>' ∉ "iframe" ++ more := by
    intro hmem
    obtain hmem | hmem := List.mem_append.1 hmem
    · exact absurd hmem (by decide)
    · exact absurd (hmore '>' hmem) (by decide)
  obtain ⟨htag, -⟩ := Text.append_cons_inj hclose hmoreClose (List.cons.inj htext).2
  refine host.getLast?_tag ?_
  have hlast : more.getLast? = some '/' := by
    rw [Reader.run_guard] at hguard
    split at hguard
    · next hcondition => exact eq_of_beq (Bool.and_eq_true_iff.1 hcondition).1
    · exact absurd hguard (by simp)
  rw [htag, List.getLast?_append, hlast, Option.some_or]

theorem isFixed_head : IsFixed host.head where
  head := rfl
  misses start hstart rest := by
    obtain ⟨root, hroot, hbegins⟩ := exists_root_of_mem_starts hstart
    exact (host.misses_head hroot rest).of_isPrefix hbegins
  passes_frame := host.passes_frame_head

theorem isFixed_last : IsFixed host.last where
  head := rfl
  misses start hstart rest := by
    obtain ⟨root, hroot, hbegins⟩ := exists_root_of_mem_starts hstart
    exact (host.misses_last hroot rest).of_isPrefix hbegins
  passes_frame rest := by
    have hbegins : Markup.emptyFrame.BeginsWith ('<' :: "iframe") := Pattern.after_beginsWith _ _ _
    have hopen : '<' ∉ '/' :: (host.name ++ ['>']) := by
      have hname : '<' ∉ host.name := host.not_mem_name (by decide)
      simp [hname]
    refine hbegins.passes (Text.misses_cons (fun hbegins => ?_) (Text.misses_of_not_mem hopen))
    exact absurd (List.cons_prefix_cons.1 (List.cons_prefix_cons.1 hbegins).2).1 (by decide)

end Host

/-! ### Attribute elements -/

def attributeOpening (name : Name) : Text := "<xsl:attribute name=\"" ++ (name.val ++ "\">")

def attributeClosing : Text := "</xsl:attribute>"

def attributeElement (item : Name × Text) : Text :=
  attributeOpening item.1 ++ (item.2 ++ attributeClosing)

theorem attributeElement_append (item : Name × Text) (rest : Text) :
    attributeElement item ++ rest =
      "<xsl:attribute name=\"" ++
        (item.1.val ++ ("\">" ++ (item.2 ++ ("</xsl:attribute>" ++ rest)))) := by
  change ("<xsl:attribute name=\"" ++ (item.1.val ++ "\">") ++ (item.2 ++ "</xsl:attribute>")) ++
    rest = _
  simp only [List.append_assoc]

/-- Nothing that is looked for begins in the tags of an attribute element. -/
theorem misses_attributeOpening (name : Name) {start : Text}
    (h : start ∈ ("<iframe" : Text) :: starts) (rest : Text) :
    Text.Misses start (attributeOpening name) rest := by
  have hall : ∀ start ∈ ("<iframe" : Text) :: starts,
      Text.apart start "<xsl:attribute name=\"" = true ∧
      Text.apart start "\">" = true ∧ start.head?.map Text.isWord = some false := by decide +kernel
  obtain ⟨hopen, hclose, hfirst⟩ := hall start h
  obtain ⟨c, hhead, hc⟩ := Option.map_eq_some_iff.1 hfirst
  obtain ⟨behind, rfl⟩ := List.head?_eq_some_iff.1 hhead
  have hname : c ∉ name.val := fun hmem => Bool.noConfusion (hc.symm.trans (name.property.2 c hmem))
  exact (Text.misses_of_apart hopen _).append
    ((Text.misses_of_not_mem hname).append (Text.misses_of_apart hclose rest))

theorem isFixed_attributeOpening (name : Name) : IsFixed (attributeOpening name) where
  head := rfl
  misses _ hstart := misses_attributeOpening name (List.mem_cons_of_mem _ hstart)
  passes_frame rest :=
    (Pattern.after_beginsWith _ _ _).passes (misses_attributeOpening name List.mem_cons_self rest)

theorem isFixed_attributeClosing : IsFixed attributeClosing where
  head := rfl
  misses start hstart rest := by
    have hall : ∀ start ∈ starts, Text.apart start attributeClosing = true := by decide +kernel
    exact Text.misses_of_apart (hall start hstart) rest
  passes_frame rest :=
    (Pattern.after_beginsWith _ _ _).passes (Text.misses_of_apart (by decide) rest)

namespace Host

variable (host : Host)

def tagWith (inside : List (Name × Text)) : Text :=
  host.tag ++ inside.flatMap fun item => attributeText (item.1.val, item.2)

def text (inside outside : List (Name × Text)) : Text :=
  '<' :: (host.tagWith inside ++ '>' :: (outside.flatMap attributeElement ++ host.last))

def layout (items : List (Name × List Token)) : Layout where
  tokens := []
  segments := ⟨host.head, [], host.isFixed_head⟩ :: (items.flatMap fun item =>
    [⟨attributeOpening item.1, item.2, isFixed_attributeOpening item.1⟩,
      ⟨attributeClosing, [], isFixed_attributeClosing⟩]) ++ [⟨host.last, [], host.isFixed_last⟩]

theorem layout_text (items : List (Name × List Token)) :
    (host.layout items).text = host.text [] (items.map fun item => (item.1, texts item.2)) := by
  simp [layout, Layout.text, text, tagWith, head, attributeElement, List.flatMap_map,
    List.flatMap_assoc]

theorem layout_map (change : Token → Token) (items : List (Name × List Token)) :
    (host.layout items).map change =
      host.layout (items.map fun item => (item.1, item.2.map change)) := by
  simp [layout, Layout.map, List.map_flatMap, List.flatMap_map]

/-- A host with attributes whose tokens are in a stage is a layout in that stage. -/
theorem inStage_layout {shapes : List Shape} {items : List (Name × List Token)}
    (h : ∀ item ∈ items, Stage shapes item.2) : (host.layout items).InStage shapes := by
  have hnil : Stage shapes [] := ⟨trivial, List.forall_mem_nil _⟩
  refine ⟨hnil, fun segment hsegment => ?_⟩
  simp only [layout, List.mem_append, List.mem_cons, List.mem_flatMap, List.not_mem_nil,
    or_false] at hsegment
  obtain (rfl | ⟨item, hitem, rfl | rfl⟩) | rfl := hsegment
  · exact hnil
  · exact h item hitem
  · exact hnil
  · exact hnil

end Host

end LazyEmbed.Template
