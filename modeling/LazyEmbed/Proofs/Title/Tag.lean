import LazyEmbed.Proofs.Html.Escaped
import LazyEmbed.Proofs.Placeholder.Names
import LazyEmbed.Title.Tag

/-!
# What is read as a tag with a title

A tag is read up to its bracket, and nothing behind the bracket counts. The attribute of the item is
the nearest one that fits, so a text between the attributes and the bracket changes neither where a
tag is found nor what it is found to name, as long as the text has no brackets of its own.
-/

namespace LazyEmbed

namespace Text

variable {start front text word first behind left : Text} {d : Char}

/-- A word that has no `d` before its last character lies within what holds a `d`. -/
theorem prefix_of_mem {e : Char} (h : word ++ [e] <+: first ++ behind) (hword : d ∉ word)
    (hfirst : d ∈ first) : word ++ [e] <+: first := by
  rcases List.prefix_or_prefix_of_prefix h (List.prefix_append first behind) with hle | hle
  · exact hle
  · rcases List.prefix_concat_iff.1 hle with heq | hle
    · exact heq ▸ List.prefix_rfl
    · exact absurd (hle.mem hfirst) hword

/-- A word that is not in a text, and has the last character of the text at most at its own end, is
missed. -/
theorem misses_of_last {e : Char} (h : ¬word ++ [e] <:+: text ++ [d]) (hword : d ∉ word)
    (rest : Text) : Misses (word ++ [e]) (text ++ [d]) rest := by
  intro before after heq hne hbegins
  have hsuffix : after <:+ text ++ [d] := heq ▸ List.suffix_append before after
  have hmem : d ∈ after := by
    obtain rfl | ⟨last, rfl, -⟩ := List.suffix_concat_iff.1 hsuffix
    · exact absurd rfl hne
    · exact List.mem_append_right last (List.mem_singleton_self d)
  exact h ((prefix_of_mem hbegins hword hmem).isInfix.trans hsuffix.isInfix)

/-- Two occurrences of a text that has its last character nowhere else do not overlap. -/
theorem prefix_of_prefix_append_self (hstart : start = front ++ [d]) (hfront : d ∉ front)
    (h : start <+: text ++ (start ++ behind)) (htext : text ≠ []) : start <+: text := by
  subst hstart
  by_cases hmem : d ∈ text
  · exact prefix_of_mem h hfront hmem
  · obtain ⟨more, hmore⟩ := h
    have hsame : front ++ d :: more = (text ++ front) ++ d :: behind := by
      simpa only [List.append_assoc, List.singleton_append] using hmore
    have hnot : d ∉ text ++ front := by simp [hmem, hfront]
    have hfront := (append_cons_inj hfront hnot hsame).1
    exact absurd (List.append_left_eq_self.1 hfront.symm) htext

/-- What a text has up to its first `d` does not depend on what follows another `d`. -/
theorem exists_of_append_cons_eq (h : word ++ d :: behind = text ++ d :: left) (hword : d ∉ word) :
    ∃ more, behind = more ++ left ∧ ∀ other, text ++ d :: other = word ++ d :: (more ++ other) := by
  have hle : word ++ [d] <+: (text ++ [d]) ++ left := ⟨behind, by simpa using h⟩
  obtain ⟨more, hmore⟩ := prefix_of_mem hle hword (by simp)
  have hother : ∀ other, text ++ d :: other = word ++ d :: (more ++ other) := by
    intro other
    simpa using (congrArg (· ++ other) hmore).symm
  rw [hother left, List.append_cancel_left_eq, List.cons.injEq] at h
  exact ⟨more, h.2, hother⟩

/-- A word before a `d` is missed in front of the only `d` of a text that does not end with the
word. -/
theorem misses_concat (hword : d ∉ word) (htext : d ∉ text) (h : ¬word <:+ text) (rest : Text) :
    Misses (word ++ [d]) (text ++ [d]) rest := by
  intro before after heq hne hbegins
  obtain rfl | ⟨last, rfl, hlast⟩ :=
    List.suffix_concat_iff.1 (heq ▸ List.suffix_append before after)
  · exact hne rfl
  · obtain ⟨more, hmore⟩ := hbegins
    rw [List.append_assoc, List.append_assoc, List.singleton_append, List.singleton_append] at hmore
    have hfree : d ∉ last := fun hmem => htext (hlast.mem hmem)
    exact h ((append_cons_inj hword hfree hmore).1 ▸ hlast)

end Text

namespace Title.Tag

def siteStart : Text := ClickToLoad.siteName ++ "=\""

def itemStart : Text := ClickToLoad.mediaName ++ "=\""

def itemReader : Reader (Text × Text) := do
  .literal "data-s9e-mediaembed-c2l-oembed-id=\""
  let media ← .many1 isNameChar
  .literal "\""
  let rest ← .many fun c => !(c = '<' || c = '>')
  .literal ">"
  pure (media, rest ++ ">")

def IsName (text : Text) : Prop := text ≠ [] ∧ ∀ c ∈ text, isNameChar c = true

def IsInside (text : Text) : Prop := '<' ∉ text ∧ '>' ∉ text

def itemText (media inside left : Text) : Text :=
  itemStart ++ (media ++ '"' :: (inside ++ '>' :: left))

variable {text media rest inside left title : Text} {tag : Tag} {d : Char}

theorem siteStart_eq : siteStart = (ClickToLoad.siteName ++ ['=']) ++ ['"'] := by
  rw [siteStart, String.toList_ofList, List.append_assoc]
  rfl

theorem itemStart_eq : itemStart = (ClickToLoad.mediaName ++ ['=']) ++ ['"'] := by
  rw [itemStart, String.toList_ofList, List.append_assoc]
  rfl

/-- As the reader has it. -/
theorem siteStart_literal : siteStart = ("data-s9e-mediaembed-c2l=\"" : Text) := by
  unfold siteStart ClickToLoad.siteName
  repeat rw [String.toList_ofList]
  rfl

theorem itemStart_literal : itemStart = ("data-s9e-mediaembed-c2l-oembed-id=\"" : Text) := by
  unfold itemStart ClickToLoad.mediaName
  repeat rw [String.toList_ofList]
  rfl

/-- The beginning of an attribute has no such character up to the quote. -/
theorem not_mem_nameStart {name : Text} {c : Char} (h : Attributes.IsName name)
    (hc : c ∈ ['"', '<', '>']) : c ∉ name ++ ['='] := by
  have hfixed : ∀ c ∈ ['"', '<', '>'], Attributes.isNameChar c = false ∧ c ∉ ['='] := by decide
  rw [List.mem_append, not_or]
  exact ⟨h.not_mem (hfixed c hc).1, (hfixed c hc).2⟩

theorem isInside_start : IsInside siteStart ∧ IsInside itemStart := by
  have hbracket : ∀ c ∈ ['<', '>'], c ∈ ['"', '<', '>'] ∧ c ∉ ['"'] := by decide
  have hname : ∀ name, Attributes.IsName name → ∀ c ∈ ['<', '>'], c ∉ name ++ ['='] ++ ['"'] :=
    fun name h c hc =>
    List.not_mem_append (not_mem_nameStart h (hbracket c hc).1) (hbracket c hc).2
  have hsite := hname _ Placeholder.isName_siteName
  have hitem := hname _ Placeholder.isName_mediaName
  rw [siteStart_eq, itemStart_eq]
  exact ⟨⟨hsite _ (by decide), hsite _ (by decide)⟩, hitem _ (by decide), hitem _ (by decide)⟩

theorem isNameChar_eq_true_iff {c : Char} : isNameChar c = true ↔ c ≠ '"' ∧ c ≠ '<' ∧ c ≠ '>' := by
  simp [isNameChar, and_assoc]

theorem IsName.not_mem (h : IsName text) : '"' ∉ text ∧ '<' ∉ text ∧ '>' ∉ text := by
  have hchar : ∀ {c : Char}, c ∈ text → c ≠ '"' ∧ c ≠ '<' ∧ c ≠ '>' := fun hc =>
    isNameChar_eq_true_iff.1 (h.2 _ hc)
  exact ⟨fun hc => (hchar hc).1 rfl, fun hc => (hchar hc).2.1 rfl, fun hc => (hchar hc).2.2 rfl⟩

theorem isName_iff : IsName text ↔ text ≠ [] ∧ '"' ∉ text ∧ '<' ∉ text ∧ '>' ∉ text := by
  refine ⟨fun h => ⟨h.1, h.not_mem⟩, fun ⟨hne, hquote, hless, hgreater⟩ => ⟨hne, fun c hc => ?_⟩⟩
  rw [isNameChar_eq_true_iff]
  exact ⟨ne_of_mem_of_not_mem hc hquote, ne_of_mem_of_not_mem hc hless,
    ne_of_mem_of_not_mem hc hgreater⟩

/-! ### The attribute of an item -/

theorem run_itemReader_eq_some_iff : itemReader.run text = some ((media, rest), left) ↔
    IsName media ∧ ∃ inside, IsInside inside ∧ rest = inside ++ ['>'] ∧
    text = itemText media inside left := by
  have hbracket : (">" : Text) = ['>'] := by decide
  have hquote : ("\"" : Text) = ['"'] := by decide
  rw [itemReader, hbracket, hquote, ← itemStart_literal]
  constructor
  · intro h
    obtain ⟨_, behind, hliteral, h⟩ := Reader.run_bind_eq_some_iff.1 h
    obtain ⟨found, behind₁, hmedia, h⟩ := Reader.run_bind_eq_some_iff.1 h
    obtain ⟨_, behind₂, hclose, h⟩ := Reader.run_bind_eq_some_iff.1 h
    obtain ⟨inside, behind₃, hinside, h⟩ := Reader.run_bind_eq_some_iff.1 h
    obtain ⟨_, behind₄, hend, h⟩ := Reader.run_bind_eq_some_iff.1 h
    obtain ⟨heq, rfl⟩ := Prod.mk.inj (Option.some.inj h)
    obtain ⟨rfl, rfl⟩ := Prod.mk.inj heq
    obtain rfl := Reader.run_literal_eq_some_iff.1 hliteral
    obtain ⟨rfl, hne, hall⟩ := Reader.eq_append_of_run_many1 hmedia
    obtain rfl := Reader.run_literal_eq_some_iff.1 hclose
    obtain ⟨rfl, hfree⟩ := Reader.eq_append_of_run_many hinside
    obtain rfl := Reader.run_literal_eq_some_iff.1 hend
    refine ⟨⟨hne, hall⟩, inside, ⟨fun hmem => ?_, fun hmem => ?_⟩, rfl, rfl⟩
    · simpa using hfree _ hmem
    · simpa using hfree _ hmem
  · rintro ⟨⟨hne, hall⟩, inside, ⟨hless, hgreater⟩, rfl, rfl⟩
    have hfree : ∀ c ∈ inside, (!(c = '<' || c = '>')) = true := by
      intro c hc
      simpa using ⟨ne_of_mem_of_not_mem hc hless, ne_of_mem_of_not_mem hc hgreater⟩
    refine Reader.run_bind_eq_some_iff.2 ⟨(), _, Reader.run_literal_append _ _, ?_⟩
    refine Reader.run_bind_eq_some_iff.2
      ⟨media, _, Reader.run_many1_of_all hne hall (by decide) _, ?_⟩
    refine Reader.run_bind_eq_some_iff.2 ⟨(), _, Reader.run_literal_singleton '"' _, ?_⟩
    refine Reader.run_bind_eq_some_iff.2 ⟨inside, '>' :: left, ?_, ?_⟩
    · exact Reader.run_many_of_all hfree (by decide) left
    · exact Reader.run_bind_eq_some_iff.2 ⟨(), left, Reader.run_literal_singleton '>' _, rfl⟩

theorem isSome_itemReader_iff : (itemReader.run text).isSome ↔
    ∃ media inside left, IsName media ∧ IsInside inside ∧ text = itemText media inside left := by
  simp only [Option.isSome_iff_exists, Prod.exists, run_itemReader_eq_some_iff]
  constructor
  · rintro ⟨media, rest, left, hmedia, inside, hinside, -, htext⟩
    exact ⟨media, inside, left, hmedia, hinside, htext⟩
  · rintro ⟨media, inside, left, hmedia, hinside, htext⟩
    exact ⟨media, _, left, hmedia, inside, hinside, rfl, htext⟩

theorem isSome_itemReader (hmedia : IsName media) (hinside : IsInside inside) (left : Text) :
    (itemReader.run (itemText media inside left)).isSome :=
  isSome_itemReader_iff.2 ⟨media, inside, left, hmedia, hinside, rfl⟩

theorem itemText_eq (media inside left : Text) :
    itemText media inside left = (itemStart ++ (media ++ '"' :: inside)) ++ '>' :: left := by
  simp [itemText]

/-- Nothing behind the bracket counts. -/
theorem isSome_itemReader_bracket (h : (itemReader.run (text ++ '>' :: left)).isSome)
    (other : Text) : (itemReader.run (text ++ '>' :: other)).isSome := by
  obtain ⟨media, inside, behind, hmedia, hinside, heq⟩ := isSome_itemReader_iff.1 h
  have hword : '>' ∉ itemStart ++ (media ++ '"' :: inside) := by
    simp [isInside_start.2.2, hmedia.not_mem.2.2, hinside.2]
  rw [itemText_eq] at heq
  obtain ⟨more, -, hother⟩ := Text.exists_of_append_cons_eq heq.symm hword
  rw [hother other, ← itemText_eq]
  exact isSome_itemReader hmedia hinside _

/-- A word without quotes that ends with one lies within what holds a quote, and then not in what
follows. -/
theorem exists_of_quote {word first behind rest : Text} (hword : '"' ∉ word) (hfirst : '"' ∈ first)
    (h : first ++ behind = word ++ '"' :: rest) :
    ∃ more, first = word ++ '"' :: more ∧ rest = more ++ behind := by
  have hle : word ++ ['"'] <+: first ++ behind := ⟨rest, by rw [h]; simp⟩
  obtain ⟨more, rfl⟩ := Text.prefix_of_mem hle hword hfirst
  refine ⟨more, by simp, ?_⟩
  simpa using h.symm

/-- In front of the nearest item none is found with a text behind that item if none is found
without. -/
theorem isSome_itemReader_insert {second : Text} (hne : second ≠ []) (hsecond : '>' ∉ second)
    (hmedia : IsName media) (htitle : IsInside title) (hinside : IsInside inside)
    (h : (itemReader.run (second ++ itemText media (title ++ inside) left)).isSome) :
    (itemReader.run (second ++ itemText media inside left)).isSome := by
  obtain ⟨other, middle, behind, hother, hmiddle, heq⟩ := isSome_itemReader_iff.1 h
  have hbegins :
      itemStart <+: second ++ (itemStart ++ (media ++ '"' :: (title ++ inside ++ '>' :: left))) :=
    ⟨_, heq.symm⟩
  have hname : '"' ∉ ClickToLoad.mediaName ++ ['='] :=
    not_mem_nameStart Placeholder.isName_mediaName (by decide)
  obtain ⟨more, rfl⟩ := Text.prefix_of_prefix_append_self itemStart_eq hname hbegins hne
  have hquote : '"' ∈ more ++ itemStart := List.mem_append_right _ (by simp [itemStart_eq])
  have hbracket : '>' ∉ more ++ itemStart := by
    simp only [List.mem_append, not_or] at hsecond ⊢
    exact ⟨hsecond.2, isInside_start.2.2⟩
  rw [itemText, itemText, List.append_assoc, List.append_cancel_left_eq, ← List.append_assoc] at heq
  obtain ⟨found, hfound, hrest⟩ := exists_of_quote hother.not_mem.1 hquote heq
  rw [hfound] at hbracket
  have hfree : '>' ∉ found ++ (media ++ '"' :: (title ++ inside)) := by
    have hfound : '>' ∉ found := fun hmem => hbracket (by simp [hmem])
    simp [hfound, hmedia.not_mem.2.2, htitle.2, hinside.2]
  have hsame :
      middle ++ '>' :: behind = (found ++ (media ++ '"' :: (title ++ inside))) ++ '>' :: left := by
    rw [hrest]
    simp
  obtain ⟨rfl, -⟩ := Text.append_cons_inj hmiddle.2 hfree hsame
  have hinside' : IsInside (found ++ (media ++ '"' :: inside)) := by
    have hsubset : ∀ c ∈ found ++ (media ++ '"' :: inside),
        c ∈ found ++ (media ++ '"' :: (title ++ inside)) := by
      intro c hc
      simp only [List.mem_append, List.mem_cons] at hc ⊢
      exact hc.imp_right (Or.imp_right (Or.imp_right .inr))
    exact ⟨fun hmem => hmiddle.1 (hsubset _ hmem), fun hmem => hmiddle.2 (hsubset _ hmem)⟩
  refine isSome_itemReader_iff.2 ⟨other, _, left, hother, hinside', ?_⟩
  rw [itemText, itemText, List.append_assoc, List.append_cancel_left_eq,
    ← List.append_assoc, hfound]
  simp only [List.append_assoc, List.cons_append]

/-! ### The whole tag -/

/-- The tag is put together from its parts as a tag is read, with this before its bracket. -/
structure Fits (tag : Tag) (inside : Text) : Prop where
  site : IsName tag.site
  between : '>' ∉ tag.between
  media : IsName tag.media
  free : IsInside inside
  rest : tag.rest = inside ++ ['>']
  /-- No attribute of an item that would fit is nearer. -/
  nearest : ∀ first second, tag.between = first ++ second → second ≠ [] →
    itemReader.run (second ++ itemText tag.media inside []) = none

theorem head_append (tag : Tag) (rest : Text) :
    tag.head ++ rest = siteStart ++
      (tag.site ++ '"' :: (tag.between ++ (itemStart ++ (tag.media ++ '"' :: rest)))) := by
  have hquote : ("\"" : Text) = ['"'] := by decide
  simp only [head, siteStart, itemStart, hquote, List.append_assoc, List.cons_append,
    List.nil_append]

def bodyReader : Reader Tag := do
  let site ← .many1 isNameChar
  .literal "\""
  let (between, media, rest) ← .shortest (· ≠ '>') itemReader
  pure ⟨site, between, media, rest⟩

theorem run_siteStart (text : Text) :
    pattern.reader.run (siteStart ++ text) = bodyReader.run text := by
  rw [siteStart_literal]
  exact Pattern.run_after_append _ _ _ text

theorem exists_of_run (h : pattern.reader.run text = some (tag, left)) :
    ∃ behind, text = siteStart ++ behind ∧ bodyReader.run behind = some (tag, left) := by
  obtain ⟨behind, rfl⟩ : siteStart <+: text := siteStart_literal ▸ Pattern.after_beginsWith _ _ _ h
  exact ⟨behind, rfl, run_siteStart behind ▸ h⟩

theorem run_itemReader_eq_none {second : Text}
    (h : itemReader.run (second ++ itemText media inside []) = none) (left : Text) :
    itemReader.run (second ++ itemText media inside left) = none := by
  rw [← Option.not_isSome_iff_eq_none, itemText_eq, ← List.append_assoc] at h ⊢
  exact fun hsome => h (isSome_itemReader_bracket hsome [])

theorem run_bodyReader_eq_some_iff : bodyReader.run text = some (tag, left) ↔
    ∃ inside, tag.Fits inside ∧
    text = tag.site ++ '"' :: (tag.between ++ itemText tag.media inside left) := by
  have hquote : ("\"" : Text) = ['"'] := by decide
  rw [bodyReader, hquote]
  constructor
  · intro h
    obtain ⟨site, behind, hsite, h⟩ := Reader.run_bind_eq_some_iff.1 h
    obtain ⟨_, behind₁, hclose, h⟩ := Reader.run_bind_eq_some_iff.1 h
    obtain ⟨⟨between, media, rest⟩, behind₂, hshortest, h⟩ := Reader.run_bind_eq_some_iff.1 h
    obtain ⟨rfl, rfl⟩ := Prod.mk.inj (Option.some.inj h)
    obtain ⟨rfl, hne, hall⟩ := Reader.eq_append_of_run_many1 hsite
    obtain rfl := Reader.run_literal_eq_some_iff.1 hclose
    rw [Reader.run_shortest] at hshortest
    obtain ⟨item, rfl, hitem, hbetween⟩ := Reader.shortestRun_eq_some hshortest
    obtain ⟨hmedia, inside, hinside, rfl, rfl⟩ := run_itemReader_eq_some_iff.1 hitem
    refine ⟨inside, ⟨⟨hne, hall⟩, fun hmem => ?_, hmedia, hinside, rfl, ?_⟩, rfl⟩
    · simpa using hbetween _ hmem
    · intro first second heq hsecond
      have hnone := Reader.shortestRun_nearest hshortest first second heq hsecond
      rw [← Option.not_isSome_iff_eq_none, itemText_eq, ← List.append_assoc] at hnone ⊢
      exact fun hsome => hnone (isSome_itemReader_bracket hsome _)
  · rintro ⟨inside, hfits, rfl⟩
    have hitem :
        itemReader.run (itemText tag.media inside left) = some ((tag.media, tag.rest), left) :=
      run_itemReader_eq_some_iff.2 ⟨hfits.media, inside, hfits.free, hfits.rest, rfl⟩
    refine Reader.run_bind_eq_some_iff.2
      ⟨tag.site, _, Reader.run_many1_of_all hfits.site.1 hfits.site.2 (by decide) _, ?_⟩
    refine Reader.run_bind_eq_some_iff.2 ⟨(), _, Reader.run_literal_singleton '"' _, ?_⟩
    refine Reader.run_bind_eq_some_iff.2 ⟨(tag.between, tag.media, tag.rest), left, ?_, rfl⟩
    exact Reader.run_shortest_append (Text.forall_ne_iff.2 hfits.between)
      (fun first second heq hne => run_itemReader_eq_none (hfits.nearest first second heq hne) left)
      hitem

theorem isSome_bodyReader {site before after : Text} (hsite : IsName site) (hbefore : '>' ∉ before)
    (hafter : (itemReader.run after).isSome) :
    (bodyReader.run (site ++ '"' :: (before ++ after))).isSome := by
  have hquote : ("\"" : Text) = ['"'] := by decide
  obtain ⟨⟨⟨between, media, rest⟩, left⟩, hshortest⟩ :=
    Option.isSome_iff_exists.1 (Reader.isSome_run_shortest (Text.forall_ne_iff.2 hbefore) hafter)
  refine Option.isSome_iff_exists.2 ⟨(⟨site, between, media, rest⟩, left), ?_⟩
  rw [bodyReader, hquote]
  refine Reader.run_bind_eq_some_iff.2
    ⟨site, _, Reader.run_many1_of_all hsite.1 hsite.2 (by decide) _, ?_⟩
  refine Reader.run_bind_eq_some_iff.2 ⟨(), _, Reader.run_literal_singleton '"' _, ?_⟩
  exact Reader.run_bind_eq_some_iff.2 ⟨(between, media, rest), left, hshortest, rfl⟩

/-- The pattern of titles as a relation: a tag, its inside without a title, and the rest. -/
theorem run_eq_some_iff : pattern.reader.run text = some (tag, left) ↔
    ∃ inside, tag.Fits inside ∧ text = tag.head ++ (inside ++ '>' :: left) := by
  simp only [head_append]
  constructor
  · intro h
    obtain ⟨behind, rfl, hbody⟩ := exists_of_run h
    obtain ⟨inside, hfits, rfl⟩ := run_bodyReader_eq_some_iff.1 hbody
    exact ⟨inside, hfits, rfl⟩
  · rintro ⟨inside, hfits, rfl⟩
    rw [run_siteStart]
    exact run_bodyReader_eq_some_iff.2 ⟨inside, hfits, rfl⟩

theorem Fits.not_mem (h : tag.Fits inside) : '>' ∉ tag.head ++ inside := by
  rw [head_append]
  simp [isInside_start.1.2, isInside_start.2.2, h.site.not_mem.2.2, h.between,
    h.media.not_mem.2.2, h.free.2]

/-- Nothing behind the bracket counts. -/
theorem isSome_run_bracket (h : (pattern.reader.run (text ++ '>' :: left)).isSome) (other : Text) :
    (pattern.reader.run (text ++ '>' :: other)).isSome := by
  obtain ⟨⟨tag, behind⟩, hrun⟩ := Option.isSome_iff_exists.1 h
  obtain ⟨inside, hfits, heq⟩ := run_eq_some_iff.1 hrun
  rw [← List.append_assoc] at heq
  obtain ⟨more, -, hother⟩ := Text.exists_of_append_cons_eq heq.symm hfits.not_mem
  rw [hother other, List.append_assoc]
  exact Option.isSome_iff_exists.2 ⟨_, run_eq_some_iff.2 ⟨inside, hfits, rfl⟩⟩

/-! ### Texts behind the attributes -/

/-- A text in front of the bracket becomes a part of the rest. -/
theorem Fits.insert (h : tag.Fits inside) (htitle : IsInside title) :
    ({ tag with rest := title ++ tag.rest } : Tag).Fits (title ++ inside) where
  site := h.site
  between := h.between
  media := h.media
  free := by
    simp only [IsInside, List.mem_append, not_or]
    exact ⟨⟨htitle.1, h.free.1⟩, htitle.2, h.free.2⟩
  rest := by rw [h.rest, List.append_assoc]
  nearest := by
    intro first second heq hne
    have hsecond : '>' ∉ second := fun hmem => h.between (heq ▸ List.mem_append_right first hmem)
    rw [← Option.not_isSome_iff_eq_none]
    intro hsome
    have hnone := h.nearest first second heq hne
    rw [← Option.not_isSome_iff_eq_none] at hnone
    exact hnone (isSome_itemReader_insert hne hsecond h.media htitle h.free hsome)

/-- A tag that is found before another, in front of the same bracket, is found whatever follows the
attributes of the other. -/
theorem isSome_run_before {before rest : Text} (h : tag.Fits inside) (hne : before ≠ [])
    (hbefore : '>' ∉ before) (hrun : (pattern.reader.run (before ++ (tag.head ++ rest))).isSome) :
    (pattern.reader.run (before ++ (tag.head ++ (inside ++ '>' :: left)))).isSome := by
  obtain ⟨⟨found, behind⟩, hfound⟩ := Option.isSome_iff_exists.1 hrun
  obtain ⟨middle, hfits, heq⟩ := run_eq_some_iff.1 hfound
  rw [head_append, head_append] at heq
  have hbegins : siteStart <+: before ++ (siteStart ++ _) := ⟨_, heq.symm⟩
  have hname : '"' ∉ ClickToLoad.siteName ++ ['='] :=
    not_mem_nameStart Placeholder.isName_siteName (by decide)
  obtain ⟨more, rfl⟩ := Text.prefix_of_prefix_append_self siteStart_eq hname hbegins hne
  have hquote : '"' ∈ more ++ siteStart := List.mem_append_right _ (by simp [siteStart_eq])
  have hbracket : '>' ∉ more ++ siteStart := by
    simp only [List.mem_append, not_or] at hbefore ⊢
    exact ⟨hbefore.2, isInside_start.1.2⟩
  rw [List.append_assoc, List.append_cancel_left_eq, ← List.append_assoc] at heq
  obtain ⟨between, hbetween, -⟩ := exists_of_quote hfits.site.not_mem.1 hquote heq
  have hfree : '>' ∉ between ++ (tag.site ++ '"' :: tag.between) := by
    have hbetween : '>' ∉ between := fun hmem => hbracket (by simp [hbetween, hmem])
    simp [hbetween, h.site.not_mem.2.2, h.between]
  have htext : siteStart ++ more ++ (tag.head ++ (inside ++ '>' :: left)) = siteStart ++
      (found.site ++ '"' ::
      ((between ++ (tag.site ++ '"' :: tag.between)) ++ itemText tag.media inside left)) := by
    rw [head_append, List.append_assoc, ← List.append_assoc more, hbetween, itemText]
    simp only [List.append_assoc, List.cons_append]
  rw [htext, run_siteStart]
  exact isSome_bodyReader hfits.site hfree (isSome_itemReader h.media h.free left)

/-! ### Titles that a tag has -/

/-- In front of a quote, the text ends like the beginning of a title attribute. -/
def EndsInTitle (text : Text) : Prop :=
  ∃ c, Text.isBlank c = true ∧ c :: (attributeName ++ ['=']) <:+ text

theorem exists_of_run_titleAttribute {value : Unit}
    (h : titleAttribute.reader.run text = some (value, left)) :
    ∃ c title, Text.isBlank c = true ∧ '"' ∉ title ∧
      text = c :: (attributeName ++ ['=']) ++ '"' :: (title ++ '"' :: left) := by
  have hstart : ("=\"" : Text) = ['=', '"'] := by decide
  have hquote : ("\"" : Text) = ['"'] := by decide
  obtain ⟨c, behind, hblank, h⟩ := Reader.run_bind_eq_some_iff.1 h
  obtain ⟨_, behind₁, hname, h⟩ := Reader.run_bind_eq_some_iff.1 h
  obtain ⟨title, behind₂, htitle, hclose⟩ := Reader.run_bind_eq_some_iff.1 h
  obtain ⟨hc, rfl⟩ := Reader.run_char_eq_some_iff.1 hblank
  obtain rfl := Reader.run_literal_eq_some_iff.1 hname
  obtain ⟨rfl, hall⟩ := Reader.eq_append_of_run_many htitle
  obtain rfl := Reader.run_literal_eq_some_iff.1 hclose
  refine ⟨c, title, hc, fun hmem => ?_, ?_⟩
  · simpa using hall _ hmem
  · rw [hstart, hquote]
    simp

theorem run_titleAttribute {c : Char} (hblank : Text.isBlank c = true) (htitle : '"' ∉ title)
    (left : Text) :
    titleAttribute.reader.run (c :: (attributeName ++ ['=']) ++ '"' :: (title ++ '"' :: left)) =
      some ((), left) := by
  have hstart : attributeName ++ ("=\"" : Text) = attributeName ++ ['='] ++ ['"'] :=
    (List.append_assoc _ ['='] ['"']).symm
  have hquote : ("\"" : Text) = ['"'] := by decide
  have hsplit : attributeName ++ ['='] ++ '"' :: (title ++ '"' :: left) =
      (attributeName ++ ['='] ++ ['"']) ++ (title ++ '"' :: left) := by simp
  refine Reader.run_bind_eq_some_iff.2 ⟨c, _, Reader.run_char_eq_some_iff.2 ⟨hblank, rfl⟩, ?_⟩
  rw [hstart, hquote]
  refine Reader.run_bind_eq_some_iff.2 ⟨(), _, Reader.run_literal_eq_some_iff.2 hsplit, ?_⟩
  exact Reader.run_bind_eq_some_iff.2
    ⟨title, '"' :: left, Reader.run_many_ne htitle left, Reader.run_literal_singleton '"' left⟩

theorem not_mem_titleStart {c d : Char} (hd : d ∈ ['"', '>']) (hblank : Text.isBlank c = true) :
    d ∉ c :: (attributeName ++ ['=']) := by
  have hfixed : ∀ d ∈ ['"', '>'], Text.isBlank d = false ∧ d ∈ ['"', '<', '>'] := by decide
  rw [List.mem_cons, not_or]
  refine ⟨?_, not_mem_nameStart Placeholder.isName_titleName (hfixed d hd).2⟩
  rintro rfl
  exact absurd hblank (by simp [(hfixed d hd).1])

theorem passes_of_misses (h : ∀ c, Text.isBlank c = true →
    Text.Misses (c :: (attributeName ++ ['=']) ++ ['"']) text rest) :
    titleAttribute.Passes text rest := by
  intro before after heq hne
  rw [Option.eq_none_iff_forall_ne_some]
  rintro ⟨value, left⟩ hrun
  obtain ⟨c, title, hblank, -, hafter⟩ := exists_of_run_titleAttribute hrun
  exact h c hblank before after heq hne ⟨title ++ '"' :: left, by rw [hafter]; simp⟩

/-- The beginning of a title attribute, up to its value, is nowhere in the text. -/
def Untitled (text : Text) : Prop :=
  ∀ c, Text.isBlank c = true → ¬c :: (attributeName ++ ['=']) ++ ['"'] <:+: text

theorem untitled_of_not_isInfix (h : ¬attributeName <:+: text) : Untitled text := by
  intro c _ hbegun
  refine h (List.IsInfix.trans ?_ hbegun)
  exact ⟨[c], ['=', '"'], by simp⟩

theorem Untitled.of_isInfix (h : Untitled text) (hpart : rest <:+: text) : Untitled rest :=
  fun c hblank hbegun => h c hblank (hbegun.trans hpart)

/-- No title begins in such a text, whatever follows, if the text ends with a quote or a bracket. -/
theorem Untitled.passes (h : Untitled (text ++ [d])) (hd : d ∈ ['"', '>']) (rest : Text) :
    titleAttribute.Passes (text ++ [d]) rest :=
  passes_of_misses fun c hblank =>
    Text.misses_of_last (h c hblank) (not_mem_titleStart hd hblank) rest

theorem Untitled.remove_eq_self (h : Untitled text) : titleAttribute.remove text = text := by
  refine Pattern.replace_eq_self _ (passes_of_misses fun c hblank => ?_)
  exact Text.misses_of_not_isInfix (h c hblank) (by simp)

theorem passes_quoted (htext : '"' ∉ text) (hends : ¬EndsInTitle text) (rest : Text) :
    titleAttribute.Passes (text ++ ['"']) rest :=
  passes_of_misses fun c hblank => Text.misses_concat (not_mem_titleStart (by decide) hblank) htext
    (fun hword => hends ⟨c, hblank, hword⟩) rest

/-- The last quote of a text begins no title. -/
theorem passes_last_quote (htext : '"' ∉ text) : titleAttribute.Passes (text ++ ['"']) [] := by
  intro before after heq hne
  rw [Option.eq_none_iff_forall_ne_some]
  rintro ⟨value, left⟩ hrun
  obtain ⟨c, title, hblank, -, hafter⟩ := exists_of_run_titleAttribute hrun
  obtain rfl | ⟨word, rfl, hword⟩ :=
    List.suffix_concat_iff.1 (heq ▸ List.suffix_append before after)
  · exact hne rfl
  · have hfree : '"' ∉ word := fun hmem => htext (hword.mem hmem)
    rw [List.append_assoc, List.singleton_append] at hafter
    obtain ⟨-, hnil⟩ := Text.append_cons_inj hfree (not_mem_titleStart (by decide) hblank) hafter
    simp at hnil

theorem renderTitle_append (title rest : Text) : renderTitle title ++ rest =
    ' ' :: (attributeName ++ ['=']) ++ '"' :: (Html.forAnyQuotes title ++ '"' :: rest) := by
  have hblank : (" " : Text) = [' '] := by decide
  have hstart : ("=\"" : Text) = ['=', '"'] := by decide
  have hquote : ("\"" : Text) = ['"'] := by decide
  rw [renderTitle, hblank, hstart, hquote]
  simp

theorem renderTitle_injective : Function.Injective renderTitle := by
  intro title other h
  have happend := congrArg (· ++ ([] : Text)) h
  simp only [renderTitle_append, List.append_cancel_left_eq, List.cons.injEq, true_and] at happend
  have hdecode := Html.decodeReferences_forAnyQuotes title
  rw [List.append_cancel_right happend, Html.decodeReferences_forAnyQuotes] at hdecode
  exact (Except.ok.inj hdecode).symm

theorem renderTitle_ne_nil (title : Text) : renderTitle title ≠ [] := by
  rw [← List.append_nil (renderTitle title), renderTitle_append]
  exact List.cons_ne_nil _ _

theorem remove_renderTitle (title rest : Text) :
    titleAttribute.remove (renderTitle title ++ rest) = titleAttribute.remove rest := by
  rw [renderTitle_append, Pattern.remove,
    Pattern.replace_of_run_eq_some
    (run_titleAttribute (by decide) (Html.not_mem_forAnyQuotes (by decide) title) rest),
    List.nil_append, Pattern.remove]

/-- A rendered title stays inside the tag, whatever the title. -/
theorem isInside_renderTitle (title : Text) : IsInside (renderTitle title) := by
  have hname : ∀ c ∈ ['"', '<', '>'], c ∉ ' ' :: (attributeName ++ ['=']) := by
    have hblank : ∀ c ∈ ['"', '<', '>'], c ≠ ' ' := by decide
    exact fun c hc =>
      List.not_mem_cons_of_ne_of_not_mem (hblank c hc)
      (not_mem_nameStart Placeholder.isName_titleName hc)
  rw [← List.append_nil (renderTitle title), renderTitle_append]
  have hless : '<' ∉ Html.forAnyQuotes title := Html.not_mem_forAnyQuotes (by decide) title
  have hgreater : '>' ∉ Html.forAnyQuotes title := Html.not_mem_forAnyQuotes (by decide) title
  constructor
  · rw [List.mem_append, not_or]
    exact ⟨hname '<' (by decide), by simp [hless]⟩
  · rw [List.mem_append, not_or]
    exact ⟨hname '>' (by decide), by simp [hgreater]⟩

end Title.Tag

end LazyEmbed
