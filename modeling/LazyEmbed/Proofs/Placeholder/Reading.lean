import LazyEmbed.Proofs.Placeholder.Names

/-!
# The attributes that are read off an element

An attribute is read where its name begins, and the search goes on behind its value. Of several
attributes with one name the last counts, and what is set apart for a click touches four names only,
so every other attribute of a frame is found in its placeholder with the value that it was read
with.
-/

namespace LazyEmbed

namespace Attributes

variable {name value rest : Text} {d : Char}

def written (name value : Text) : Text := name ++ '=' :: '"' :: (value ++ ['"'])

theorem run_pattern (h : IsName name) (rest : Text) :
    pattern.reader.run (name ++ '=' :: '"' :: rest) =
      some ((name, rest.takeWhile (· ≠ '"')), rest.dropWhile (· ≠ '"')) := by
  have hequals : ("=\"" : Text) = ['=', '"'] := by decide +kernel
  refine Reader.run_bind_eq_some_iff.2
    ⟨name, '=' :: '"' :: rest, Reader.run_many1_of_all h.1 h.2 (by decide) _, ?_⟩
  refine Reader.run_bind_eq_some_iff.2 ⟨(), rest, ?_, ?_⟩
  · rw [hequals]
    exact Reader.run_literal_append ['=', '"'] rest
  · exact Reader.run_bind_eq_some_iff.2 ⟨_, _, Reader.run_many _ _, rfl⟩

/-- Behind a word that no equals sign follows there is no attribute. -/
theorem run_pattern_eq_none (hname : ∀ c ∈ name, isNameChar c = true) (hd : isNameChar d = false)
    (hequals : d ≠ '=') (rest : Text) : pattern.reader.run (name ++ d :: rest) = none := by
  rw [Option.eq_none_iff_forall_ne_some]
  rintro ⟨found, left⟩ hrun
  obtain ⟨word, behind, hword, hrun⟩ := Reader.run_bind_eq_some_iff.1 hrun
  obtain ⟨_, behind₁, hliteral, -⟩ := Reader.run_bind_eq_some_iff.1 hrun
  obtain rfl := Reader.run_literal_eq_some_iff.1 hliteral
  rw [Reader.run_many1, Text.takeWhile_of_all hname hd, Text.dropWhile_of_all hname hd] at hword
  split at hword
  · simp at hword
  · simp only [Option.some.injEq, Prod.mk.injEq] at hword
    exact hequals (List.cons.inj hword.2).1

theorem passes_word (hname : ∀ c ∈ name, isNameChar c = true) (hd : isNameChar d = false)
    (hequals : d ≠ '=') (rest : Text) : pattern.Passes (name ++ [d]) rest := by
  intro before after heq hne
  obtain rfl | ⟨word, rfl, hword⟩ :=
    List.suffix_concat_iff.1 (heq ▸ List.suffix_append before after)
  · exact absurd rfl hne
  · rw [List.append_assoc, List.singleton_append]
    exact run_pattern_eq_none (fun c hc => hname c (hword.mem hc)) hd hequals rest

theorem passes_char (hd : isNameChar d = false) (hequals : d ≠ '=') (rest : Text) :
    pattern.Passes [d] rest := by
  have hnone : ∀ c ∈ ([] : Text), isNameChar c = true := by simp
  exact passes_word hnone hd hequals rest

/-- A written attribute is found with its name and value, and the search goes on behind it. -/
theorem hits_written (h : IsName name) (hvalue : '"' ∉ value) (rest : Text) :
    pattern.hits (' ' :: (written name value ++ rest)) = (name, value) :: pattern.hits rest := by
  have hall := Text.forall_ne_iff.2 hvalue
  have hrun := run_pattern h (value ++ '"' :: rest)
  rw [Text.takeWhile_of_all hall (by decide), Text.dropWhile_of_all hall (by decide)] at hrun
  have htext : written name value ++ rest = name ++ '=' :: '"' :: (value ++ '"' :: rest) := by
    simp [written]
  have hblank :=
    Pattern.hits_append (passes_char (d := ' ') (by decide) (by decide)
      (written name value ++ rest))
  have hquote := Pattern.hits_append (passes_char (d := '"') (by decide) (by decide) rest)
  rw [List.singleton_append] at hblank hquote
  rw [hblank, htext, Pattern.hits_of_run_eq_some hrun, hquote]

/-- A hit is a name, an equals sign and a double quote, and its value runs to the next one. -/
theorem exists_of_run {text left : Text}
    (h : pattern.reader.run text = some ((name, value), left)) :
    IsName name ∧ ∃ rest, text = name ++ '=' :: '"' :: rest ∧ left = rest.dropWhile (· ≠ '"') := by
  have hequals : ("=\"" : Text) = ['=', '"'] := by decide +kernel
  obtain ⟨word, behind, hword, h⟩ := Reader.run_bind_eq_some_iff.1 h
  obtain ⟨_, behind₁, hliteral, h⟩ := Reader.run_bind_eq_some_iff.1 h
  obtain ⟨found, behind₂, hvalue, h⟩ := Reader.run_bind_eq_some_iff.1 h
  obtain ⟨heq, rfl⟩ := Prod.mk.inj (Option.some.inj h)
  obtain ⟨rfl, rfl⟩ := Prod.mk.inj heq
  obtain ⟨rfl, hne, hall⟩ := Reader.eq_append_of_run_many1 hword
  obtain rfl := Reader.run_literal_eq_some_iff.1 hliteral
  rw [Reader.run_many] at hvalue
  refine ⟨⟨hne, hall⟩, behind₁, by rw [hequals]; rfl, ?_⟩
  exact (Prod.mk.inj (Option.some.inj hvalue)).2.symm

theorem hits_of_not_mem {text : Text} (h : '=' ∉ text) : pattern.hits text = [] := by
  refine Pattern.hits_eq_nil fun before after heq _ => ?_
  rw [List.append_nil, Option.eq_none_iff_forall_ne_some]
  rintro ⟨⟨name, value⟩, left⟩ hrun
  obtain ⟨-, rest, rfl, -⟩ := exists_of_run hrun
  exact h (heq ▸ List.mem_append_right _ (List.mem_append_right _ List.mem_cons_self))

/-- The names that are read do not depend on what follows a bracket, if that has no quotes. -/
theorem names_append_bracket {behind : Text} (hquote : '"' ∉ behind)
    (hnone : pattern.hits ('>' :: behind) = []) (text : Text) :
    (pattern.hits (text ++ '>' :: behind)).map Prod.fst = (pattern.hits text).map Prod.fst := by
  induction text using pattern.searchInduction with
  | nil => rw [List.nil_append, hnone, Pattern.hits_nil]
  | plain c text hrun ih =>
    have hrun' : pattern.reader.run (c :: (text ++ '>' :: behind)) = none := by
      rw [Option.eq_none_iff_forall_ne_some]
      rintro ⟨⟨name, value⟩, left⟩ hsome
      obtain ⟨hname, rest, heq, -⟩ := exists_of_run hsome
      have hfree : '>' ∉ name ++ ['=', '"'] := by
        have hmem : '>' ∉ name := fun hmem => absurd (hname.2 '>' hmem) (by decide)
        simp [hmem]
      have hbegins : name ++ ['=', '"'] <+: (c :: text) ++ '>' :: behind :=
        ⟨rest, by rw [List.cons_append, heq]; simp⟩
      obtain ⟨more, hmore⟩ := Text.prefix_of_prefix_append_cons hbegins hfree
      rw [List.append_assoc] at hmore
      rw [← hmore] at hrun
      exact absurd ((run_pattern hname more).symm.trans hrun) (by simp)
    rw [List.cons_append, Pattern.hits_cons_of_run_eq_none hrun', ih,
      Pattern.hits_cons_of_run_eq_none hrun]
  | hit text found left hrun ih =>
    obtain ⟨hname, rest, rfl, rfl⟩ := exists_of_run hrun
    have hrun' := run_pattern hname (rest ++ '>' :: behind)
    rw [List.append_assoc, List.cons_append, List.cons_append, Pattern.hits_of_run_eq_some hrun',
      Pattern.hits_of_run_eq_some (run_pattern hname rest), List.map_cons, List.map_cons]
    congr 1
    rw [List.dropWhile_append]
    split
    · next hempty =>
      have hbehind : ('>' :: behind).dropWhile (· ≠ '"') = [] := by
        refine List.dropWhile_eq_nil_iff.2 fun c hc => ?_
        have hne : c ≠ '"' := ne_of_mem_of_not_mem hc (by simp [hquote])
        simpa using hne
      rw [hbehind, List.isEmpty_iff.1 hempty]
    · exact ih

end Attributes

namespace ClickToLoad

variable {name : Text}

theorem get?_promoteSource (attributes : Attributes) (h : name ≠ "src") :
    (promoteSource attributes).get? name = attributes.get? name := by
  unfold promoteSource
  split
  · exact Keyed.get?_put_of_ne _ _ h
  · rfl

/-- Only the style and the background attribute change when the background is moved. -/
theorem get?_extractBackground (attributes : Attributes) (hbackground : name ≠ backgroundName)
    (hstyle : name ≠ "style") :
    (extractBackground attributes).get? name = attributes.get? name := by
  unfold extractBackground
  split
  · split
    · simp only
      split
      · rw [Keyed.get?_erase_of_ne hstyle, Keyed.get?_put_of_ne _ _ hbackground]
      · rw [Keyed.get?_put_of_ne _ _ hstyle, Keyed.get?_put_of_ne _ _ hbackground]
    · rfl
  · rfl

/-- Neither the site nor the address to load on a click is changed as a frame is set apart. -/
theorem clickName_ne :
    ∀ name ∈ [siteName, sourceName], name ≠ "src" ∧ name ≠ backgroundName ∧ name ≠ "style" := by
  simp only [List.forall_mem_cons]
  dsimp only [siteName, sourceName, backgroundName]
  repeat rw [String.toList_ofList]
  decide +kernel

end ClickToLoad

namespace Placeholder

/-- All attributes but those four are taken over as they are. -/
theorem get?_attributesOf {name : Text} (frame : Text)
    (h : name ∉ (["src", ClickToLoad.backgroundName, "style", "onload"] : List Text)) :
    (attributesOf frame).get? name = (Attributes.ofElement frame).get? name := by
  simp only [List.mem_cons, List.not_mem_nil, or_false, not_or] at h
  obtain ⟨hsource, hbackground, hstyle, honload⟩ := h
  have hapart : (ClickToLoad.setApart (Attributes.ofElement frame)).get? name =
      (Attributes.ofElement frame).get? name :=
    (ClickToLoad.get?_extractBackground _ hbackground hstyle).trans
      (ClickToLoad.get?_promoteSource _ hsource)
  unfold attributesOf
  simp only
  split
  · rw [Keyed.get?_erase_of_ne honload, hapart]
  · exact hapart

/-- The mark, the site and the item are among these. -/
theorem get?_attributesOf_itemName {name : Text} (frame : Text)
    (h : name ∈ [markName, ClickToLoad.siteName, ClickToLoad.mediaName]) :
    (attributesOf frame).get? name = (Attributes.ofElement frame).get? name := by
  have hapart : ∀ name ∈ [markName, ClickToLoad.siteName, ClickToLoad.mediaName],
      name ∉ (["src", ClickToLoad.backgroundName, "style", "onload"] : List Text) := by
    simp only [List.forall_mem_cons]
    dsimp only [markName, ClickToLoad.siteName, ClickToLoad.mediaName, ClickToLoad.backgroundName]
    repeat rw [String.toList_ofList]
    decide +kernel
  exact get?_attributesOf frame (hapart name h)

end Placeholder

end LazyEmbed
