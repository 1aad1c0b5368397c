import LazyEmbed.Proofs.Html.Reference
import LazyEmbed.Proofs.Template.ClosingTag
import LazyEmbed.Proofs.Template.Siblings

/-!
# Lone opening braces

An opening brace that is next to no other and has no dollar sign behind it is reported when all
passes are done. Until then every pass writes what it found anew, and a lone brace can get a
neighbour or go with a text that is written in another way. A pass is looked at hit by hit, with any
text in front: a hit keeps lone braces if what is written has them where what was read had them, and
does not begin or end with a neighbour for a brace beside it.
-/

namespace LazyEmbed

theorem Reader.exists_run_optional {α : Type} (reader : Reader α) (text : Text) :
    ∃ found rest, (Reader.optional reader).run text = some (found, rest) := by
  cases hrun : reader.run text with
  | none => exact ⟨none, text, Reader.run_optional_of_run_eq_none hrun⟩
  | some found => exact ⟨some found.1, found.2, Reader.run_optional_of_run_eq_some hrun⟩

namespace Pattern

variable {α ε : Type} {pattern : Pattern α} {write : α → Except ε Text} {text out : Text}

theorem exists_of_replaceM_hit {rest : Text} {value : α}
    (hrun : pattern.reader.run text = some (value, rest))
    (h : pattern.replaceM write text = .ok out) :
    ∃ first others, write value = .ok first ∧ pattern.replaceM write rest = .ok others ∧
      out = first ++ others := by
  rw [replaceM_of_run_eq_some write hrun] at h
  exact Html.bind_append_eq_ok_iff.1 h

theorem exists_of_replaceM_plain {c : Char} (hrun : pattern.reader.run (c :: text) = none)
    (h : pattern.replaceM write (c :: text) = .ok out) :
    ∃ others, pattern.replaceM write text = .ok others ∧ out = c :: others := by
  rw [replaceM_cons_of_run_eq_none write hrun] at h
  exact map_eq_ok_iff.1 h

/-- What fails is the writing of some hit. -/
theorem exists_hit_of_replaceM {fault : ε} (h : pattern.replaceM write text = .error fault) :
    ∃ value ∈ pattern.hits text, write value = .error fault := by
  induction text using pattern.searchInduction with
  | nil =>
    rw [replaceM_nil] at h
    cases h
  | plain c text hrun ih =>
    rw [replaceM_cons_of_run_eq_none write hrun] at h
    rw [hits_cons_of_run_eq_none hrun]
    cases hothers : pattern.replaceM write text with
    | error other =>
      rw [hothers] at h
      exact ih (hothers.trans h)
    | ok others =>
      rw [hothers] at h
      cases h
  | hit text value rest hrun ih =>
    rw [replaceM_of_run_eq_some write hrun] at h
    rw [hits_of_run_eq_some hrun]
    cases hfirst : write value with
    | error other =>
      rw [hfirst] at h
      exact ⟨value, List.mem_cons_self, hfirst.trans h⟩
    | ok first =>
      cases hothers : pattern.replaceM write rest with
      | error other =>
        rw [hfirst, hothers] at h
        obtain ⟨found, hfound, hfault⟩ := ih (hothers.trans h)
        exact ⟨found, List.mem_cons_of_mem value hfound, hfault⟩
      | ok others =>
        rw [hfirst, hothers] at h
        cases h

/-- What a text has, with anything in front of it, it keeps when every hit keeps it. -/
theorem carry_replaceM (has : Text → Prop)
    (h : ∀ value ∈ pattern.hits text, ∀ behind rest first,
      pattern.reader.run behind = some (value, rest) →
      write value = .ok first → ∀ front, has (front ++ behind) → has (front ++ (first ++ rest)))
    (hout : pattern.replaceM write text = .ok out) (front : Text) (htext : has (front ++ text)) :
    has (front ++ out) := by
  induction text using pattern.searchInduction generalizing front out with
  | nil =>
    rw [replaceM_nil] at hout
    rwa [← Except.ok.inj hout]
  | plain c text hrun ih =>
    obtain ⟨others, hothers, rfl⟩ := exists_of_replaceM_plain hrun hout
    rw [hits_cons_of_run_eq_none hrun] at h
    have hnext := ih h hothers (front ++ [c]) (by rwa [List.append_assoc])
    rwa [List.append_assoc] at hnext
  | hit text value rest hrun ih =>
    obtain ⟨first, others, hfirst, hothers, rfl⟩ := exists_of_replaceM_hit hrun hout
    rw [hits_of_run_eq_some hrun] at h
    obtain ⟨hvalue, hrest⟩ := List.forall_mem_cons.1 h
    have hwritten := hvalue text rest first hrun hfirst front htext
    have hnext := ih hrest hothers (front ++ first) (by rwa [List.append_assoc])
    rwa [List.append_assoc] at hnext

theorem carry_replace {has : Text → Prop} {write : α → Text}
    (h : ∀ behind value rest, pattern.reader.run behind = some (value, rest) →
      ∀ front, has (front ++ behind) → has (front ++ (write value ++ rest)))
    (htext : has text) : has (pattern.replace write text) := by
  have hout : pattern.replaceM (fun value => (.ok (write value) : Except Empty Text)) text =
      .ok (pattern.replace write text) :=
    replaceM_ok write text
  refine carry_replaceM has ?_ hout [] htext
  rintro value - behind rest first hrun ⟨⟩
  exact h behind value rest hrun

end Pattern

namespace Template

/-! ### What a lone brace is -/

/-- The brace between the two texts is next to no other, and no dollar sign follows it. -/
structure IsLone (front behind : Text) : Prop where
  no_brace_front : front.getLast? ≠ some '\x7b'
  no_brace_behind : behind.head? ≠ some '\x7b'
  no_dollar_behind : behind.head? ≠ some '$'

def HasLone (text : Text) : Prop :=
  ∃ front behind, text = front ++ '\x7b' :: behind ∧ IsLone front behind

def HasBare (text : Text) : Prop :=
  ∃ front behind, text = front ++ '\x7b' :: behind ∧ behind.head? ≠ some '$'

/-- No brace at the end of the first text gets a neighbour from the second one. -/
def Parted (first second : Text) : Prop :=
  first.getLast? = some '\x7b' → second.head? ≠ some '\x7b' ∧ second.head? ≠ some '$'

variable {text first second : Text}

theorem parted_of_getLast? (h : first.getLast? ≠ some '\x7b') (second : Text) :
    Parted first second :=
  fun hlast => absurd hlast h

theorem parted_cons {c : Char} (hbrace : c ≠ '\x7b') (hdollar : c ≠ '$') (first second : Text) :
    Parted first (c :: second) :=
  fun _ => ⟨by simpa using hbrace, by simpa using hdollar⟩

theorem getLast?_ne_of_not_mem (h : '\x7b' ∉ text) : text.getLast? ≠ some '\x7b' :=
  fun hlast => h (List.mem_of_getLast? hlast)

theorem getLast?_append_ne (first second : Text) (h : second.getLast? ≠ some '\x7b')
    (hne : second ≠ []) : (first ++ second).getLast? ≠ some '\x7b' := by
  rw [List.getLast?_append]
  cases hlast : second.getLast? with
  | none => exact absurd (List.getLast?_eq_none_iff.1 hlast) hne
  | some c => rwa [← hlast, hlast, Option.some_or, ← hlast]

theorem HasBare.hasLone_or_pair (h : HasBare text) :
    HasLone text ∨ ("\x7b\x7b" : Text) <:+: text := by
  obtain ⟨front, behind, rfl, hdollar⟩ := h
  by_cases hfront : front.getLast? = some '\x7b'
  · obtain ⟨before, rfl⟩ := List.getLast?_eq_some_iff.1 hfront
    exact .inr ⟨before, behind, by simp⟩
  by_cases hbehind : behind.head? = some '\x7b'
  · obtain ⟨after, rfl⟩ := List.head?_eq_some_iff.1 hbehind
    exact .inr ⟨front, after, by simp⟩
  · exact .inl ⟨front, behind, rfl, hfront, hbehind, hdollar⟩

theorem HasLone.mem (h : HasLone text) : '\x7b' ∈ text := by
  obtain ⟨front, behind, rfl, -⟩ := h
  simp

theorem IsLone.of_append {front behind : Text} (h : IsLone (first ++ front) behind) :
    IsLone front behind := by
  refine ⟨fun hlast => h.no_brace_front ?_, h.no_brace_behind, h.no_dollar_behind⟩
  rw [List.getLast?_append, hlast, Option.some_or]

theorem HasLone.of_append (h : HasLone (first ++ second)) : HasLone first ∨ HasLone second := by
  obtain ⟨front, behind, heq, hlone⟩ := h
  obtain ⟨middle, rfl, rfl⟩ | ⟨middle, rfl, hbehind⟩ := List.append_eq_append_iff.1 heq
  · exact .inr ⟨middle, behind, rfl, hlone.of_append⟩
  · cases middle with
    | nil =>
      refine .inr ⟨[], behind, hbehind.symm, by simp, hlone.no_brace_behind, hlone.no_dollar_behind⟩
    | cons c middle =>
      obtain ⟨rfl, rfl⟩ := List.cons.inj hbehind
      have hhead : ∀ d, middle.head? = some d → (middle ++ second).head? = some d := fun d hd => by
        rw [List.head?_append, hd, Option.some_or]
      exact .inl ⟨front, middle, rfl, hlone.no_brace_front,
        fun hd => hlone.no_brace_behind (hhead _ hd), fun hd => hlone.no_dollar_behind (hhead _ hd)⟩

theorem HasLone.append_right (h : HasLone first) (hparted : Parted first second) :
    HasLone (first ++ second) := by
  obtain ⟨front, behind, rfl, hlone⟩ := h
  rw [List.append_assoc, List.cons_append]
  cases behind with
  | nil =>
    obtain ⟨hbrace, hdollar⟩ := hparted (by simp)
    exact ⟨front, second, rfl, hlone.no_brace_front, hbrace, hdollar⟩
  | cons c behind => exact ⟨front, c :: behind ++ second, rfl, hlone.no_brace_front,
      hlone.no_brace_behind, hlone.no_dollar_behind⟩

theorem HasLone.append_left (h : HasLone second)
    (hparted : first.getLast? = some '\x7b' → second.head? ≠ some '\x7b') :
    HasLone (first ++ second) := by
  obtain ⟨front, behind, rfl, hlone⟩ := h
  refine ⟨first ++ front, behind, by rw [List.append_assoc], fun hlast => ?_, hlone.no_brace_behind,
    hlone.no_dollar_behind⟩
  rw [List.getLast?_append, Option.or_eq_some_iff] at hlast
  obtain hfront | ⟨hfront, hfirst⟩ := hlast
  · exact hlone.no_brace_front hfront
  · obtain rfl := List.getLast?_eq_none_iff.1 hfront
    exact hparted hfirst rfl

theorem HasLone.of_append_left (h : HasLone (first ++ second)) (hfirst : '\x7b' ∉ first) :
    HasLone second :=
  h.of_append.resolve_left fun hlone => hfirst hlone.mem

theorem HasLone.of_append_right (h : HasLone (first ++ second)) (hsecond : '\x7b' ∉ second) :
    HasLone first :=
  h.of_append.resolve_right fun hlone => hsecond hlone.mem

/-- Between texts without a brace. -/
theorem HasLone.around {before after : Text} (h : HasLone text) (hbefore : '\x7b' ∉ before)
    (hafter : Parted text after) : HasLone (before ++ (text ++ after)) :=
  (h.append_right hafter).append_left fun hlast => absurd hlast (getLast?_ne_of_not_mem hbefore)

/-- A text takes the place of another one, between the same neighbours. -/
theorem HasLone.exchange {front old new rest : Text} (h : HasLone (front ++ (old ++ rest)))
    (hcore : HasLone old → HasLone new) (hfront : Parted front (new ++ rest))
    (hrest : Parted new rest) : HasLone (front ++ (new ++ rest)) := by
  obtain h | h := h.of_append
  · exact h.append_right hfront
  · refine HasLone.append_left ?_ fun hlast => (hfront hlast).1
    obtain h | h := h.of_append
    · exact (hcore h).append_right hrest
    · exact h.append_left fun hlast => (hrest hlast).1

/-! ### The check -/

/-- A run of braces that ends with the first text: the brace is lone exactly if it is the only one
and no dollar sign follows. -/
theorem hasLone_run_append {run rest : Text} (hrun : ∀ c ∈ run, c = '\x7b') (hne : run ≠ [])
    (hrest : rest.head? ≠ some '\x7b') :
    HasLone (run ++ rest) ↔ (run.length = 1 ∧ rest.head? ≠ some '$') ∨ HasLone rest := by
  constructor
  · rintro ⟨front, behind, heq, hlone⟩
    obtain ⟨middle, rfl, rfl⟩ | ⟨middle, rfl, hbehind⟩ := List.append_eq_append_iff.1 heq
    · exact .inr ⟨middle, behind, rfl, hlone.of_append⟩
    · cases middle with
      | nil => exact absurd (by rw [← List.nil_append rest, ← hbehind]; rfl) hrest
      | cons c middle =>
        obtain ⟨rfl, rfl⟩ := List.cons.inj hbehind
        -- All of the run is braces, so nothing of it stands beside the lone one.
        have hfront : front = [] := by
          by_contra hfront
          have hlast := List.getLast?_eq_some_getLast hfront
          exact hlone.no_brace_front (by rw [hlast,
            hrun _ (List.mem_append_left _ (List.getLast_mem hfront))])
        have hmiddle : middle = [] := by
          by_contra hmiddle
          obtain ⟨d, more, rfl⟩ := List.exists_cons_of_ne_nil hmiddle
          obtain rfl : d = '\x7b' := hrun d (by simp)
          exact hlone.no_brace_behind rfl
        subst hfront hmiddle
        exact .inl ⟨rfl, hlone.no_dollar_behind⟩
  · rintro (⟨hlength, hdollar⟩ | h)
    · obtain ⟨c, rfl⟩ := List.length_eq_one_iff.1 hlength
      obtain rfl := hrun c (by simp)
      exact ⟨[], rest, rfl, by simp, hrest, hdollar⟩
    · exact h.append_left fun _ => hrest

section

variable {run behind : Text} (hrun : ∀ c ∈ run, c = '\x7b') (hne : run ≠ [])
    (hbehind : behind.head? ≠ some '\x7b')
include hrun hne hbehind

theorem run_many1_braces :
    (Reader.many1 fun c => decide (c = '\x7b')).run (run ++ behind) = some (run, behind) :=
  Reader.run_many1_append hne (fun c hc => by simpa using hrun c hc)
    fun c hc => by simpa using fun heq : c = '\x7b' => hbehind (heq ▸ hc)

/-- A lone brace is caught unless a variable stands behind it. -/
theorem run_braces_single (hlength : run.length = 1) (hdollar : behind.head? ≠ some '$') :
    ∃ fragment rest, Leftover.braces.reader.run (run ++ behind) = some (some fragment, rest) := by
  have hlone :
      (Reader.orElse
      (do Reader.guard (run.length = 1); Reader.ahead (·.head? ≠ some '$'); pure true)
      (pure false)).run behind = some (true, behind) := by
    simp [hlength, hdollar]
  obtain ⟨closing, rest, hclose⟩ :=
    Reader.exists_run_optional (Reader.literal "\x7d")
      (behind.dropWhile fun c => decide (c ≠ '\x7d'))
  refine ⟨run ++ behind.takeWhile (fun c => decide (c ≠ '\x7d')) ++ if closing.isSome then ['\x7d']
    else [], rest,
    Reader.run_bind_eq_some_iff.2 ⟨run, behind, run_many1_braces hrun hne hbehind, ?_⟩⟩
  refine Reader.run_bind_eq_some_iff.2 ⟨true, behind, hlone, ?_⟩
  exact Reader.run_bind_eq_some_iff.2 ⟨_, _, Reader.run_many _ _,
    Reader.run_bind_eq_some_iff.2 ⟨_, _, hclose, rfl⟩⟩

theorem run_braces_other (h : ¬(run.length = 1 ∧ behind.head? ≠ some '$')) :
    Leftover.braces.reader.run (run ++ behind) = some (none, behind) := by
  have hlone :
      (Reader.orElse
      (do Reader.guard (run.length = 1); Reader.ahead (·.head? ≠ some '$'); pure true)
      (pure false)).run behind = some (false, behind) := by
    by_cases hlength : run.length = 1
    · have hdollar : behind.head? = some '$' := by simpa [hlength] using h
      simp [hlength, hdollar]
    · simp [hlength]
  refine Reader.run_bind_eq_some_iff.2 ⟨run, behind, run_many1_braces hrun hne hbehind, ?_⟩
  exact Reader.run_bind_eq_some_iff.2 ⟨false, behind, hlone, rfl⟩

end

/-- A text that begins with a brace begins with a run of braces. -/
theorem exists_run_append (h : ['\x7b'] <+: text) :
    ∃ run behind, text = run ++ behind ∧ (∀ c ∈ run, c = '\x7b') ∧ run ≠ [] ∧
      behind.head? ≠ some '\x7b' := by
  refine ⟨text.takeWhile (fun c => decide (c = '\x7b')),
    text.dropWhile (fun c => decide (c = '\x7b')), List.takeWhile_append_dropWhile.symm,
    fun c hc => by simpa using List.mem_takeWhile_imp hc, ?_, fun hhead => ?_⟩
  · obtain ⟨rest, rfl⟩ := h
    simp
  · have hstops := List.head?_dropWhile_not (fun c => decide (c = '\x7b')) text
    rw [hhead] at hstops
    simp at hstops

/-- A brace is reported exactly if there is a lone one. -/
theorem brace?_eq_none_iff (text : Text) : Leftover.brace? text = none ↔ ¬HasLone text := by
  rw [Leftover.brace?, List.findSome?_eq_none_iff]
  induction text using Leftover.braces.searchInduction with
  | nil => simp [HasLone]
  | plain c text hrun ih =>
    have hc : c ≠ '\x7b' := by
      rintro rfl
      obtain ⟨run, behind, htext, hall, hne, hbehind⟩ :=
        exists_run_append (show ['\x7b'] <+: '\x7b' :: text from ⟨text, rfl⟩)
      rw [htext] at hrun
      by_cases hlone : run.length = 1 ∧ behind.head? ≠ some '$'
      · obtain ⟨fragment, rest, hfound⟩ := run_braces_single hall hne hbehind hlone.1 hlone.2
        cases hrun.symm.trans hfound
      · cases hrun.symm.trans (run_braces_other hall hne hbehind hlone)
    rw [Pattern.hits_cons_of_run_eq_none hrun, ih]
    refine not_congr ⟨fun h => ?_, fun h => ?_⟩
    · have hcons : HasLone ([c] ++ text) :=
        h.append_left fun hlast => absurd (by simpa using hlast) hc
      exact hcons
    · have hcons : HasLone ([c] ++ text) := h
      exact hcons.of_append_left (by simpa using hc.symm)
  | hit text value rest hrun ih =>
    obtain ⟨run, behind, rfl, hall, hne, hbehind⟩ := exists_run_append (braces_beginsWith hrun)
    rw [Pattern.hits_of_run_eq_some hrun, List.forall_mem_cons, hasLone_run_append hall hne hbehind]
    by_cases hlone : run.length = 1 ∧ behind.head? ≠ some '$'
    · obtain ⟨fragment, left, hfound⟩ := run_braces_single hall hne hbehind hlone.1 hlone.2
      obtain ⟨rfl, rfl⟩ := Prod.mk.inj (Option.some.inj (hrun.symm.trans hfound))
      exact iff_of_false (fun h => by cases h.1) (not_not.2 (.inl hlone))
    · obtain ⟨rfl, rfl⟩ :=
        Prod.mk.inj (Option.some.inj (hrun.symm.trans (run_braces_other hall hne hbehind hlone)))
      rw [ih, or_iff_right hlone]
      exact and_iff_right rfl

theorem isAboutTemplate_of_check {fault : Fault} (h : Leftover.check text = .error fault) :
    fault.isAboutTemplate = true := by
  rw [Leftover.check] at h
  split at h
  · rw [← Except.error.inj h]
    rfl
  · rw [← Except.error.inj h]
    rfl
  · cases h

/-! ### The fixed changes -/

/-- The template once doubled braces are set aside, variables are spelled as in the forum dialect,
and live-preview hints are gone. -/
def prepared (template : Text) : Text :=
  (changes.take 6).foldl (fun text change => change text) template

theorem changeMarkup_eq (template : Text) :
    changeMarkup template =
      (changes.drop 6).foldl (fun text change => change text) (prepared template) := by
  rw [changeMarkup, prepared, ← List.foldl_append, List.take_append_drop]

/-- What is written begins with an angle bracket and does not end with a brace, so no brace beside
it gets a neighbour. -/
theorem HasLone.exchange_tag {front old rest : Text} (h : HasLone (front ++ (old ++ rest)))
    (tag : Text) (hcore : HasLone old → HasLone ('<' :: tag)) (hlast : tag.getLast? ≠ some '\x7b') :
    HasLone (front ++ ('<' :: tag ++ rest)) := by
  refine h.exchange hcore (parted_cons (by decide) (by decide) front (tag ++ rest))
    (parted_of_getLast? ?_ rest)
  cases tag with
  | nil => decide
  | cons c tag => simpa using hlast

theorem hasLone_swap {old : Text} {hne : old ≠ []} (tag : Text) (hold : '\x7b' ∉ old)
    (htag : '\x7b' ∉ tag) (h : HasLone text) : HasLone (Markup.swap old ('<' :: tag) hne text) := by
  refine Pattern.carry_replace (fun behind value rest hrun front hfront => ?_) h
  obtain ⟨left, rfl⟩ := Pattern.after_beginsWith _ _ _ hrun
  obtain rfl : left = rest := by
    rw [Pattern.fixed, Pattern.run_after_append] at hrun
    exact (Prod.mk.inj (Option.some.inj hrun)).2
  exact hfront.exchange_tag tag (fun hlone => absurd hlone.mem hold) (getLast?_ne_of_not_mem htag)

theorem eq_append_of_run_opening {start behind rest test : Text} {hne : start ≠ []}
    (h : (Markup.opening start hne).reader.run behind = some (test, rest)) :
    behind = start ++ (test ++ "\">") ++ rest := by
  obtain ⟨left, rfl⟩ := Pattern.after_beginsWith _ _ _ h
  rw [Markup.opening, Pattern.run_after_append] at h
  obtain ⟨found, more, hmany, h⟩ := Reader.run_bind_eq_some_iff.1 h
  obtain ⟨_, _, hliteral, h⟩ := Reader.run_bind_eq_some_iff.1 h
  obtain ⟨rfl, rfl⟩ := Prod.mk.inj (Option.some.inj h)
  obtain ⟨rfl, -, -⟩ := Reader.eq_append_of_run_many1 hmany
  rw [Reader.run_literal_eq_some_iff.1 hliteral]
  simp

/-- Rewriting an opening tag loses no lone brace. -/
theorem hasLone_opening {start : Text} {hne : start ≠ []} (tag : Text) (hstart : '\x7b' ∉ start)
    (htag : '\x7b' ∉ tag) (h : HasLone text) :
    HasLone ((Markup.opening start hne).replace
      (fun test => '<' :: tag ++ test ++ "\">") text) := by
  refine Pattern.carry_replace (fun behind test rest hrun front hfront => ?_) h
  rw [eq_append_of_run_opening hrun] at hfront
  rw [List.append_assoc ('<' :: tag)]
  refine hfront.exchange_tag (tag ++ (test ++ "\">")) (fun hlone => ?_) ?_
  · have htest : HasLone test := (hlone.of_append_left hstart).of_append_right (by decide)
    have hbefore : '\x7b' ∉ '<' :: tag := by simpa using htag
    exact htest.around hbefore (parted_cons (by decide) (by decide) _ _)
  · rw [← List.append_assoc]
    exact getLast?_append_ne _ _ (by decide) (by decide)

/-- The changes of conditionals keep lone braces. -/
theorem hasLone_changeMarkup {template : Text} (h : HasLone (prepared template)) :
    HasLone (changeMarkup template) := by
  have hall : ∀ change ∈ changes.drop 6, ∀ text, HasLone text → HasLone (change text) := by
    intro change hchange text htext
    simp only [changes, List.drop_succ_cons, List.drop_zero, List.mem_cons, List.not_mem_nil,
      or_false] at hchange
    obtain rfl | rfl | rfl | rfl | rfl | rfl | rfl := hchange
    · exact hasLone_opening "xf:if is=\"" (by decide) (by decide) htext
    · exact hasLone_swap "/xf:if>" (by decide) (by decide) htext
    · exact hasLone_opening "xf:if is=\"" (by decide) (by decide) htext
    · exact hasLone_opening "xf:elseif is=\"" (by decide) (by decide) htext
    · exact hasLone_swap "xf:else/>" (by decide) (by decide) htext
    · exact hasLone_swap "/xf:if>" (by decide) (by decide) htext
    · exact hasLone_swap "/xf:if>" (by decide) (by decide) htext
  rw [changeMarkup_eq]
  generalize changes.drop 6 = others at hall
  generalize prepared template = text at h
  induction others generalizing text with
  | nil => exact h
  | cons change others ih =>
    obtain ⟨hchange, hothers⟩ := List.forall_mem_cons.1 hall
    exact ih hothers _ (hchange text h)

/-! ### Expressions -/

/-- What is converted is a readable expression once its references are decoded. -/
theorem exists_of_convertExpression {source out : Text} (h : convertExpression source = .ok out) :
    ∃ found : Expression, found.IsReadable ∧ Html.decodeReferences source = .ok found.source ∧
      out = found.render := by
  obtain ⟨decoded, hdecodes, h⟩ := bind_eq_ok_iff.1 h
  rw [mapError_eq_ok_iff] at hdecodes
  split at h
  · next found hread =>
    obtain ⟨hreadable, rfl⟩ := Expression.read?_eq_some_iff.1 hread
    exact ⟨found, hreadable, hdecodes, (Except.ok.inj h).symm⟩
  · cases h

theorem isAboutTemplate_of_convertExpression {source : Text} {fault : Fault}
    (h : convertExpression source = .error fault) :
    fault.isAboutTemplate = true ∨ ∃ oversized, fault = .oversizedReference oversized := by
  simp only [convertExpression] at h
  cases hdecodes : Html.decodeReferences source with
  | error oversized =>
    rw [hdecodes] at h
    exact .inr ⟨oversized, (Except.error.inj h).symm⟩
  | ok decoded =>
    rw [hdecodes] at h
    cases hread : Expression.read? decoded with
    | none =>
      simp only [Except.mapError, bind, Except.bind, hread] at h
      obtain rfl := Except.error.inj h
      exact .inl rfl
    | some found =>
      simp only [Except.mapError, bind, Except.bind, hread] at h
      cases h

namespace Expression

theorem not_mem_source_or_exists {found : Expression} (h : found.IsReadable) :
    ('\x7b' ∉ found.source ∧ '\x7b' ∉ found.render) ∨ ∃ name literal, found = equals name literal ∧
      IsName name := by
  cases found with
  | equals name literal => exact .inr ⟨name, literal, rfl, h.1⟩
  | value | exceeds | ratio | paddedRatio =>
    refine .inl ((isClean ?_).imp (· '\x7b' (by decide)) (· '\x7b' (by decide)))
    exact h

theorem render_ne_nil (found : Expression) : found.render ≠ [] := by
  cases found with
  | value name => exact List.append_ne_nil_of_left_ne_nil (by decide) name
  | equals name literal => exact List.append_ne_nil_of_right_ne_nil _ (by decide)
  | exceeds name number =>
    exact List.append_ne_nil_of_left_ne_nil (List.append_ne_nil_of_right_ne_nil _ (by decide)) _
  | ratio => decide
  | paddedRatio extra => exact List.append_ne_nil_of_right_ne_nil _ (by decide)

/-- No expression ends with a brace. -/
theorem getLast?_render {found : Expression} (h : found.IsReadable) :
    found.render.getLast? ≠ some '\x7b' := by
  obtain ⟨-, hrender⟩ | ⟨name, literal, rfl, -⟩ := not_mem_source_or_exists h
  · exact getLast?_ne_of_not_mem hrender
  · exact getLast?_append_ne _ "'" (by decide) (by decide)

/-- A lone brace can only stand in the literal, which goes to the forum dialect as it is. -/
theorem hasLone_render {found : Expression} (h : found.IsReadable) (hlone : HasLone found.source) :
    HasLone found.render := by
  obtain ⟨hsource, -⟩ | ⟨name, literal, rfl, hname⟩ := not_mem_source_or_exists h
  · exact absurd hlone.mem hsource
  · have hclean : '\x7b' ∉ name := hname.isClean '\x7b' (by decide)
    rw [source_equals] at hlone
    rw [render_equals, List.append_assoc]
    refine HasLone.around ?_ (by simp [hclean]) (parted_cons (by decide) (by decide) _ _)
    exact (hlone.of_append_right (by decide)).of_append_left (by simp [hclean])

end Expression

/-- A pass that leaves no lone brace of a text that holds one. -/
def Loses {ε : Type} (pass : Text → Except ε Text) (text : Text) : Prop :=
  HasLone text ∧ ∃ out, pass text = .ok out ∧ ¬HasLone out

/-- Only decoding takes a lone brace out of an expression. -/
theorem hasLone_convertExpression {source out : Text} (h : convertExpression source = .ok out)
    (hlone : HasLone source) : HasLone out ∨ '&' ∈ source ∧ Loses convertExpression source := by
  by_cases hout : HasLone out
  · exact .inl hout
  refine .inr ⟨?_, hlone, out, h, hout⟩
  by_contra hreference
  obtain ⟨found, hreadable, hdecodes, rfl⟩ := exists_of_convertExpression h
  rw [Html.decodeReferences_of_not_mem hreference] at hdecodes
  rw [Except.ok.inj hdecodes] at hlone
  exact hout (Expression.hasLone_render hreadable hlone)

/-! ### The passes -/

section

open Dialect

variable {behind rest out : Text}

theorem exists_of_run_condition {found : Text × Text}
    (h : condition.reader.run behind = some (found, rest)) :
    ∃ tail, behind = "<xf:" ++ (found.1 ++ "if is=\"") ++ tail ∧ found.1 ∈ ["else".toList, []] ∧
      (Reader.many1 fun c => decide (c ≠ '"')).run tail = some (found.2, rest) := by
  obtain ⟨left, rfl⟩ := Pattern.after_beginsWith _ _ _ h
  rw [condition, Pattern.run_after_append] at h
  obtain ⟨further, second, hfurther, h⟩ := Reader.run_bind_eq_some_iff.1 h
  obtain ⟨_, third, hliteral, h⟩ := Reader.run_bind_eq_some_iff.1 h
  obtain ⟨test, fourth, hmany, h⟩ := Reader.run_bind_eq_some_iff.1 h
  obtain ⟨rfl, rfl⟩ := Prod.mk.inj (Option.some.inj h)
  obtain rfl := Reader.run_literal_eq_some_iff.1 hliteral
  obtain ⟨_, rfl, helse⟩ | ⟨rfl, rfl⟩ := Reader.run_optional_cases hfurther
  · rw [Reader.run_literal_eq_some_iff.1 helse]
    exact ⟨third, by simp, by simp, hmany⟩
  · exact ⟨third, by simp, by simp, hmany⟩

/-- As long as no test with a reference loses a lone brace, converting the conditions loses none. -/
theorem hasLone_convertConditions (h : HasLone text) (hout : convertConditions text = .ok out)
    (hkeeps : ∀ found ∈ condition.hits text, '&' ∈ found.2 → ¬Loses convertExpression found.2) :
    HasLone out := by
  refine Pattern.carry_replaceM HasLone
    (fun found hfound behind rest written hrun hwrite front hfront => ?_) hout [] h
  obtain ⟨tail, rfl, hfurther, hmany⟩ := exists_of_run_condition hrun
  obtain ⟨rfl, -, -⟩ := Reader.eq_append_of_run_many1 hmany
  rw [← List.append_assoc _ found.2 rest] at hfront
  obtain ⟨converted, hconverted, ⟨⟩⟩ := bind_eq_ok_iff.1 hwrite
  obtain ⟨expression, hreadable, -, rfl⟩ := exists_of_convertExpression hconverted
  have hopening : ∀ further ∈ ["else".toList, []], '\x7b' ∉ "<xf:" ++ (further ++ "if is=\"") ∧
      '\x7b' ∉ "<xf:" ++ further ++ "if is=\"" := by decide
  obtain ⟨hread, hwritten⟩ := hopening found.1 hfurther
  refine hfront.exchange_tag ("xf:" ++ found.1 ++ "if is=\"" ++ expression.render) (fun hlone => ?_)
    (getLast?_append_ne _ _ (Expression.getLast?_render hreadable)
    (Expression.render_ne_nil expression))
  obtain hkept | ⟨hreference, hloses⟩ :=
    hasLone_convertExpression hconverted (hlone.of_append_left hread)
  · exact hkept.append_left fun hlast => absurd hlast (getLast?_ne_of_not_mem hwritten)
  · exact absurd hloses (hkeeps found hfound hreference)

theorem eq_append_of_run_selection {selected : Text}
    (h : selection.reader.run behind = some (selected, rest)) :
    behind = "<xsl:value-of select=\"" ++ selected ++ "\"/>" ++ rest := by
  obtain ⟨left, rfl⟩ := Pattern.after_beginsWith _ _ _ h
  rw [selection, Pattern.run_after_append] at h
  obtain ⟨⟨found, _⟩, second, hshortest, h⟩ := Reader.run_bind_eq_some_iff.1 h
  obtain ⟨rfl, rfl⟩ := Prod.mk.inj (Option.some.inj h)
  obtain ⟨after, rfl, hstop, -⟩ := Reader.shortestRun_eq_some hshortest
  rw [Reader.run_literal_eq_some_iff.1 hstop]
  simp

def selectionStart : Text := "<xsl:value-of select=\""

/-- As long as no selection with a reference loses a lone brace and none stands right before a
selection, converting the selections loses none. -/
theorem hasLone_convertSelections (front : Text) (hbeside : ¬ '\x7b' :: selectionStart <:+: text)
    (hfront : front.getLast? = some '\x7b' → ¬selectionStart <+: text)
    (hkeeps : ∀ selected ∈ selection.hits text, '&' ∈ selected → ¬Loses convertExpression selected)
    (hout : convertSelections text = .ok out) (h : HasLone (front ++ text)) :
    HasLone (front ++ out) := by
  induction text using selection.searchInduction generalizing front out with
  | nil =>
    rw [convertSelections, Pattern.replaceM_nil] at hout
    rwa [← Except.ok.inj hout]
  | plain c text hrun ih =>
    obtain ⟨others, hothers, rfl⟩ := Pattern.exists_of_replaceM_plain hrun hout
    rw [Pattern.hits_cons_of_run_eq_none hrun] at hkeeps
    rw [List.append_cons]
    refine ih _ (fun hwithin => hbeside (hwithin.trans (List.suffix_cons c text).isInfix))
      (fun hlast hstart => ?_) hkeeps hothers (by rwa [← List.append_cons])
    obtain rfl : c = '\x7b' := by simpa using hlast
    exact hbeside (List.cons_prefix_cons.2 ⟨rfl, hstart⟩).isInfix
  | hit text selected rest hrun ih =>
    obtain ⟨written, others, hwrite, hothers, rfl⟩ := Pattern.exists_of_replaceM_hit hrun hout
    obtain ⟨converted, hconverted, ⟨⟩⟩ := bind_eq_ok_iff.1 hwrite
    rw [Pattern.hits_of_run_eq_some hrun] at hkeeps
    obtain ⟨hkept, hrest⟩ := List.forall_mem_cons.1 hkeeps
    obtain rfl := eq_append_of_run_selection hrun
    -- The written braces are no lone ones, and the brace in front of them could only be one with a
    -- value behind it.
    have hlast : front.getLast? ≠ some '\x7b' := fun hlast =>
      hfront hlast (by rw [List.append_assoc, List.append_assoc]; exact List.prefix_append _ _)
    have hend : ("\x7b\x7b " ++ converted ++ " \x7d\x7d" : Text).getLast? ≠ some '\x7b' :=
      getLast?_append_ne _ " \x7d\x7d" (by decide) (by decide)
    have hwritten : HasLone (front ++ ("\x7b\x7b " ++ converted ++ " \x7d\x7d" ++ rest)) := by
      refine h.exchange (fun hlone => ?_) (parted_of_getLast? hlast _)
        (parted_of_getLast? hend rest)
      have hselected : HasLone selected :=
        (hlone.of_append_right (by decide)).of_append_left (by decide)
      obtain hlone | ⟨hreference, hloses⟩ := hasLone_convertExpression hconverted hselected
      · refine HasLone.append_right (hlone.append_left fun hlast => ?_)
          (parted_cons (by decide) (by decide) _ _)
        exact absurd hlast (by decide)
      · exact absurd hloses (hkept hreference)
    rw [← List.append_assoc]
    refine ih _ (fun hwithin => hbeside (hwithin.trans (List.suffix_append _ rest).isInfix))
      (fun hlast => ?_) hrest hothers (by rwa [List.append_assoc])
    exact absurd hlast (getLast?_append_ne front _ hend (by simp))

theorem eq_append_of_run_attributeBody {found : Text × Text}
    (h : attributeBody.reader.run behind = some (found, rest)) :
    behind = found.1 ++ found.2 ++ rest ∧
      (∃ inside : Text, found.1 = "<xsl:attribute" ++ inside ++ ">") ∧
      ("</xsl:attribute" : Text) <+: rest := by
  obtain ⟨left, rfl⟩ := Pattern.after_beginsWith _ _ _ h
  rw [attributeBody, Pattern.run_after_append] at h
  obtain ⟨inside, second, hmany, h⟩ := Reader.run_bind_eq_some_iff.1 h
  obtain ⟨_, third, hliteral, h⟩ := Reader.run_bind_eq_some_iff.1 h
  obtain ⟨⟨content, _⟩, fourth, hshortest, h⟩ := Reader.run_bind_eq_some_iff.1 h
  obtain ⟨rfl, rfl⟩ := Prod.mk.inj (Option.some.inj h)
  obtain ⟨rfl, -, -⟩ := Reader.eq_append_of_run_many1 hmany
  obtain rfl := Reader.run_literal_eq_some_iff.1 hliteral
  obtain ⟨after, rfl, hstop, -⟩ := Reader.shortestRun_eq_some hshortest
  rw [Reader.run_ahead, Option.ite_none_right_eq_some, List.isPrefixOf_iff_prefix] at hstop
  obtain ⟨hclose, hafter⟩ := hstop
  obtain rfl : after = fourth := (Prod.mk.inj (Option.some.inj hafter)).2
  exact ⟨by simp, ⟨inside, rfl⟩, hclose⟩

/-- As long as folding no single body loses a lone brace, folding all of them loses none. -/
theorem hasLone_foldAttributeBodies (h : HasLone text) (hout : foldAttributeBodies text = .ok out)
    (hkeeps : ∀ found ∈ attributeBody.hits text, ¬Loses foldConditionals found.2) :
    HasLone out := by
  refine Pattern.carry_replaceM HasLone
    (fun found hfound behind rest written hrun hwrite front hfront => ?_) hout [] h
  obtain ⟨rfl, ⟨inside, htag⟩, left, rfl⟩ := eq_append_of_run_attributeBody hrun
  obtain ⟨folded, hmapped, ⟨⟩⟩ := bind_eq_ok_iff.1 hwrite
  have hfolded := mapError_eq_ok_iff.1 hmapped
  have hlast : found.1.getLast? ≠ some '\x7b' := by
    rw [htag]
    exact getLast?_append_ne _ ">" (by decide) (by decide)
  refine hfront.exchange (fun hlone => ?_) ?_ (parted_cons (by decide) (by decide) _ _)
  · obtain hlone | hlone := hlone.of_append
    · exact hlone.append_right (parted_of_getLast? hlast folded)
    · refine HasLone.append_left ?_ fun hend => absurd hend hlast
      by_contra hnone
      exact hkeeps found hfound ⟨hlone, folded, hfolded, hnone⟩
  · rw [htag]
    exact parted_cons (by decide) (by decide) front _

/-! ### Inlining -/

theorem hasLone_inlined {front rest : Text} {found : Inlinable}
    (h : HasLone (front ++ ("<" ++ found.tag ++ "><xsl:attribute name=\"" ++ found.name ++ "\">" ++
      found.value ++ "</xsl:attribute>" ++ rest))) :
    HasLone (front ++ (found.inlined ++ rest)) := by
  refine h.exchange (fun hlone => ?_) (parted_cons (by decide) (by decide) front _)
    (parted_of_getLast? (getLast?_append_ne _ "\">" (by decide) (by decide)) rest)
  rw [Inlinable.inlined]
  have hblank : ("<" ++ found.tag ++ " " : Text).getLast? ≠ some '\x7b' :=
    getLast?_append_ne _ " " (by decide) (by decide)
  have hquote : ("<" ++ found.tag ++ " " ++ found.name ++ "=\"" : Text).getLast? ≠ some '\x7b' :=
    getLast?_append_ne _ "=\"" (by decide) (by decide)
  refine HasLone.append_right ?_ (parted_cons (by decide) (by decide) _ _)
  obtain hlone | hvalue := (hlone.of_append_right (by decide)).of_append
  · refine HasLone.append_right ?_ (parted_of_getLast? hquote _)
    refine HasLone.append_right ?_ (parted_cons (by decide) (by decide) _ _)
    obtain hlone | hname := (hlone.of_append_right (by decide)).of_append
    · exact ((hlone.of_append_right (by decide)).append_right
        (parted_cons (by decide) (by decide) _ _)).append_right (parted_of_getLast? hblank _)
    · exact hname.append_left fun hlast => absurd hlast hblank
  · exact hvalue.append_left fun hlast => absurd hlast hquote

/-- Moving attributes loses no lone brace. -/
theorem hasLone_inlineAttributes (h : HasLone text) : HasLone (inlineAttributes text) := by
  fun_induction inlineAttributes text with
  | case1 text shorter hsome ih =>
    obtain ⟨⟨before, found, rest⟩, hsplit, rfl⟩ := Option.map_eq_some_iff.1 hsome
    obtain ⟨tail, rfl, hrun⟩ := Pattern.splitFirst?_eq_some hsplit
    rw [Inlinable.eq_append_of_run hrun] at h
    refine ih ?_
    change HasLone (before ++ found.inlined ++ rest)
    rw [List.append_assoc]
    exact hasLone_inlined h
  | case2 text hnone => exact h

/-! ### Every template -/

theorem hits_ne_nil_of_loses (h : Loses foldConditionals text) :
    Conditional.pattern.hits text ≠ [] := by
  intro hnil
  obtain ⟨hlone, out, hout, hnone⟩ := h
  have honce : Conditional.foldOnce text = .ok text :=
    Pattern.replaceM_eq_self _ (Pattern.passes_of_hits_eq_nil hnil)
  have hself : foldConditionals text = .ok text := by
    rw [foldConditionals, Conditional.foldWithin, honce]
    exact if_pos rfl
  rw [Except.ok.inj (hself.symm.trans hout)] at hlone
  exact hnone hlone

/-- A pass that spells expressions anew fails only where an expression is not converted. -/
theorem isAboutTemplate_of_replaceM {α : Type} {pattern : Pattern α} (source : α → Text)
    (spell : α → Text → Text) {fault : Fault}
    (h : pattern.replaceM (fun value => do
      let converted ← convertExpression (source value)
      pure (spell value converted)) text = .error fault) :
    fault.isAboutTemplate = true ∨ ∃ oversized, fault = .oversizedReference oversized := by
  obtain ⟨value, -, hwrite⟩ := Pattern.exists_hit_of_replaceM h
  obtain hfault | ⟨converted, -, ⟨⟩⟩ := bind_eq_error_iff.1 hwrite
  exact isAboutTemplate_of_convertExpression hfault

theorem exists_token_of_foldAttributeBodies {fault : Fault}
    (h : foldAttributeBodies text = .error fault) : ∃ hidden, fault = .token hidden := by
  obtain ⟨found, -, hwrite⟩ := Pattern.exists_hit_of_replaceM h
  obtain hfault | ⟨folded, -, ⟨⟩⟩ := bind_eq_error_iff.1 hwrite
  cases hfold : foldConditionals found.2 with
  | error hidden =>
    rw [hfold] at hfault
    exact ⟨hidden, (Except.error.inj hfault).symm⟩
  | ok folded =>
    rw [hfold] at hfault
    cases hfault

/-- How a template with a brace that is to be reported gets past the check: no lone brace is left of
it. -/
inductive Leak (template : Text) : Prop
  /-- A brace comes to stand beside another one when a value is spelled as a variable, or when a
  hint goes. -/
  | joined (hpair : ("\x7b\x7b" : Text) <:+: prepared template)
      (hnone : ¬HasLone (prepared template))
  /-- The brace of a test becomes the beginning of something else once the references of the test
  are decoded. -/
  | test {found : Text × Text} (hloses : Loses convertConditions (changeMarkup template))
    (hfound : found ∈ condition.hits (changeMarkup template)) (hreference : '&' ∈ found.2)
    (hlost : Loses convertExpression found.2)
  /-- A brace stands right before a value, which is written between double braces, or the same
  happens in the value. -/
  | value {resolved : Text} (hresolved : convertConditions (changeMarkup template) = .ok resolved)
    (hloses : Loses convertSelections resolved)
    (hcause : '\x7b' :: selectionStart <:+: resolved ∨
      ∃ selected ∈ selection.hits resolved, '&' ∈ selected ∧ Loses convertExpression selected)
  /-- The brace stands in an attribute element with a conditional, and goes when that is folded. -/
  | body {resolved computed : Text} {found : Text × Text}
    (hresolved : convertConditions (changeMarkup template) = .ok resolved)
    (hcomputed : convertSelections resolved = .ok computed)
      (hloses : Loses foldAttributeBodies computed) (hfound : found ∈ attributeBody.hits computed)
      (hconditional : Conditional.pattern.hits found.2 ≠ [])
    (hlost : Loses foldConditionals found.2)

section

variable {template : Text}

/-- How a conversion fails: with the template, with a reference that is too long to be read, or with
a hidden expression that cannot be brought back. -/
theorem fault_of_convert {fault : Fault} (h : convert template = .error fault) :
    fault.isAboutTemplate = true ∨ (∃ oversized, fault = .oversizedReference oversized) ∨
      ∃ hidden, fault = .token hidden := by
  obtain hfault | ⟨resolved, -, h⟩ := bind_eq_error_iff.1 h
  · exact (isAboutTemplate_of_replaceM Prod.snd _ hfault).imp_right .inl
  obtain hfault | ⟨computed, -, h⟩ := bind_eq_error_iff.1 h
  · exact (isAboutTemplate_of_replaceM id _ hfault).imp_right .inl
  obtain hfault | ⟨folded, -, h⟩ := bind_eq_error_iff.1 h
  · exact .inr (.inr (exists_token_of_foldAttributeBodies hfault))
  obtain hfault | ⟨_, -, ⟨⟩⟩ := bind_eq_error_iff.1 h
  exact .inl (isAboutTemplate_of_check hfault)

variable {resolved computed folded : Text}

theorem hasLone_resolved_or_leak (h : HasLone (changeMarkup template))
    (hresolved : convertConditions (changeMarkup template) = .ok resolved) :
    HasLone resolved ∨ Leak template := by
  by_cases hlone : HasLone resolved
  · exact .inl hlone
  by_contra hnot
  refine hlone (hasLone_convertConditions h hresolved fun found hfound hreference hlost =>
    hnot (.inr ?_))
  exact .test ⟨h, resolved, hresolved, hlone⟩ hfound hreference hlost

theorem hasLone_computed_or_leak
    (hresolved : convertConditions (changeMarkup template) = .ok resolved) (h : HasLone resolved)
    (hcomputed : convertSelections resolved = .ok computed) : HasLone computed ∨ Leak template := by
  by_cases hlone : HasLone computed
  · exact .inl hlone
  refine .inr (.value hresolved ⟨h, computed, hcomputed, hlone⟩ ?_)
  by_contra hnot
  obtain ⟨hbeside, hselected⟩ := not_or.1 hnot
  refine hlone (hasLone_convertSelections [] hbeside (fun hlast => by cases hlast) ?_ hcomputed h)
  exact fun selected hmem hreference hlost => hselected ⟨selected, hmem, hreference, hlost⟩

theorem hasLone_folded_or_leak
    (hresolved : convertConditions (changeMarkup template) = .ok resolved)
    (hcomputed : convertSelections resolved = .ok computed) (h : HasLone computed)
    (hfolded : foldAttributeBodies computed = .ok folded) : HasLone folded ∨ Leak template := by
  by_cases hlone : HasLone folded
  · exact .inl hlone
  by_contra hnot
  refine hlone (hasLone_foldAttributeBodies h hfolded fun found hfound hlost => hnot (.inr ?_))
  exact .body hresolved hcomputed ⟨h, folded, hfolded,
    hlone⟩ hfound (hits_ne_nil_of_loses hlost) hlost

/-- A template with a bare brace that converts has let it through in one of the listed ways. -/
theorem leak_of_convert {out : Text} (h : HasBare (prepared template))
    (hout : convert template = .ok out) : Leak template := by
  obtain ⟨left, hleft, hcheck, -⟩ := exists_of_convert hout
  obtain ⟨resolved, computed, folded, hresolved, hcomputed, hfolded, rfl⟩ :=
    exists_of_beforeCheck hleft
  by_cases hprepared : HasLone (prepared template)
  · obtain hlone | hleak := hasLone_resolved_or_leak (hasLone_changeMarkup hprepared) hresolved
    · obtain hlone | hleak := hasLone_computed_or_leak hresolved hlone hcomputed
      · obtain hlone | hleak := hasLone_folded_or_leak hresolved hcomputed hlone hfolded
        · have hnone := (brace?_eq_none_iff _).1 (check_eq_ok_iff.1 hcheck).2
          exact absurd (hasLone_inlineAttributes hlone) hnone
        · exact hleak
      · exact hleak
    · exact hleak
  · exact .joined (h.hasLone_or_pair.resolve_left hprepared) hprepared

end

/-- A template with an opening brace that no dollar sign follows, once its doubled braces are set
aside, is refused unless the brace leaks; and nothing that is converted had a lone brace when it was
checked. A reference too long to be read and a hidden expression that cannot be brought back end the
conversion in their own ways. -/
theorem convert_bare (template : Text) (h : HasBare (prepared template)) :
    ((∃ fault, convert template = .error fault ∧ fault.isAboutTemplate = true) ∨ Leak template ∨
      (∃ oversized, convert template = .error (.oversizedReference oversized)) ∨
      ∃ hidden, convert template = .error (.token hidden)) ∧
    ∀ out, convert template = .ok out →
      ∃ left, beforeCheck template = .ok left ∧ ¬HasLone left ∧ out = restoreBraces left := by
  constructor
  · cases hconvert : convert template with
    | ok out => exact .inr (.inl (leak_of_convert h hconvert))
    | error fault =>
      obtain hfault | ⟨oversized, rfl⟩ | ⟨hidden, rfl⟩ := fault_of_convert hconvert
      · exact .inl ⟨fault, rfl, hfault⟩
      · exact .inr (.inr (.inl ⟨oversized, rfl⟩))
      · exact .inr (.inr (.inr ⟨hidden, rfl⟩))
  · intro out hout
    obtain ⟨left, hleft, hcheck, rfl⟩ := exists_of_convert hout
    exact ⟨left, hleft, (brace?_eq_none_iff left).1 (check_eq_ok_iff.1 hcheck).2, rfl⟩

theorem convert_bare_title :
    HasBare (prepared "<b title=\"\x7bx\x7d\"></b>") ∧
      ∃ fault, convert "<b title=\"\x7bx\x7d\"></b>" = .error fault ∧
        fault.isAboutTemplate = true := by
  have hprepared : prepared "<b title=\"\x7bx\x7d\"></b>" = "<b title=\"" ++
      '\x7b' :: ("x\x7d\"></b>" : Text) := by
    repeat rw [String.toList_ofList]
    decide +kernel
  have hbare : HasBare (prepared "<b title=\"\x7bx\x7d\"></b>") := ⟨_, _, hprepared, by decide⟩
  refine ⟨hbare, ?_⟩
  have hconvert : convert "<b title=\"\x7bx\x7d\"></b>" = .error (.loneBrace "\x7bx\x7d") := by
    rw [String.toList_ofList, String.toList_ofList]
    decide +kernel
  obtain ⟨hrefused | hleak | ⟨oversized, hfault⟩ | ⟨hidden, hfault⟩, -⟩ := convert_bare _ hbare
  · exact hrefused
  · exact ⟨_, hconvert, rfl⟩
  · cases hconvert.symm.trans hfault
  · cases hconvert.symm.trans hfault

/-- The brace comes to stand before those of the value, and what is written begins with an
expression. -/
theorem not_refused_beside_value : ¬∀ template, HasBare (prepared template) →
    ∃ fault, convert template = .error fault ∧ fault.isAboutTemplate = true := by
  intro h
  have hprepared : prepared "\x7b<xsl:value-of select=\"100*@height div@width\"/>\x7d" =
      [] ++ '\x7b' :: ("<xsl:value-of select=\"100*@height div@width\"/>\x7d" : Text) := by
    rw [String.toList_ofList, String.toList_ofList]
    decide +kernel
  obtain ⟨fault, hfault, -⟩ := h _ ⟨_, _, hprepared, by decide⟩
  have hconvert : convert "\x7b<xsl:value-of select=\"100*@height div@width\"/>\x7d" =
      .ok "\x7b\x7b\x7b 100*$height/$width \x7d\x7d\x7d" := by
    rw [String.toList_ofList, String.toList_ofList]
    decide +kernel
  cases hconvert.symm.trans hfault

end

end Template

end LazyEmbed
