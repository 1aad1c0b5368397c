import LazyEmbed.Proofs.Json.Grammar
import LazyEmbed.Proofs.Json.Stepping

/-!
# JSON documents

A document is one value, perhaps between blanks. The grammar of values says nothing of fuel and
depth; a text that follows it is read if there is room for as many brackets as the text has
characters, and nothing else is read with whatever room. The step relations carry both directions:
what one step reads is composed as one rule of the grammar says.
-/

namespace LazyEmbed.Json

variable {fuel room : Nat} {text literal rest left blanks : Text} {value : Value}

/-! ### Words and numbers -/

inductive IsAtom : Value → Text → Prop
  | word {word : Text} {value : Value} (h : (word, value) ∈ words) : IsAtom value word
  | number {literal : Text} {digits : Option Text} (h : IsNumber literal digits)
      (hsize : ∀ whole ∈ digits, whole.length ≤ Text.maxDigits) : IsAtom (.number literal) literal

/-- Behind hyphens a number goes on with a digit. -/
theorem IsNumber.head_digit {digits : Option Text} (h : IsNumber literal digits) (rest : Text) :
    ∃ c others, (literal ++ rest).dropWhile (· = '-') = c :: others ∧ c.isDigit = true := by
  obtain @⟨sign, whole, fraction, exponent, hsign, hwhole, -, -⟩ := h
  obtain ⟨c, others, rfl, hdigit⟩ := hwhole.head
  have hne : decide (c = '-') = false := decide_eq_false (ne_of_isDigit hdigit (by decide))
  rcases hsign with rfl | rfl <;> simp [hne, hdigit]

/-- Behind hyphens a word goes on with a letter. -/
theorem word_head {entry : Text × Value} (h : entry ∈ words) (rest : Text) :
    ∃ c others, (entry.1 ++ rest).dropWhile (· = '-') = c :: others ∧ c.isDigit = false := by
  simp only [words, List.mem_cons, List.not_mem_nil, or_false] at h
  rcases h with rfl | rfl | rfl | rfl | rfl | rfl <;> exact ⟨_, _, rfl, rfl⟩

theorem readAtom_eq_ok_of_isAtom (h : IsAtom value literal) (hrest : Number.Ends rest) :
    readAtom (literal ++ rest) = .ok (value, rest) := by
  cases h with
  | word h =>
    simp only [words, List.mem_cons, Prod.mk.injEq, List.not_mem_nil, or_false] at h
    rcases h with ⟨rfl, rfl⟩ | ⟨rfl, rfl⟩ | ⟨rfl, rfl⟩ | ⟨rfl, rfl⟩ | ⟨rfl, rfl⟩ | ⟨rfl, rfl⟩ <;>
        rfl
  | @number _ digits h hsize =>
    rw [readAtom]
    split
    · next found hfound =>
      obtain ⟨⟨word, value⟩, hword, hread⟩ := List.exists_of_findSome?_eq_some hfound
      obtain ⟨behind, hread, -⟩ := Option.map_eq_some_iff.1 hread
      obtain ⟨c, others, hdigit, hc⟩ := h.head_digit rest
      obtain ⟨d, others', hletter, hd⟩ := word_head hword behind
      rw [Text.afterStart?_eq_some_iff.1 hread, hletter] at hdigit
      exact absurd (List.cons.inj hdigit).1.symm (ne_of_isDigit hc hd)
    · simp only [run_number h hrest]
      cases digits with
      | none => rfl
      | some whole => simp only [if_pos (hsize whole rfl)]

/-- What the reader of atoms takes off is the literal of an atom. -/
theorem isAtom_of_readAtom (h : readAtom text = .ok (value, left)) :
    ∃ literal, IsAtom value literal ∧ text = literal ++ left := by
  rw [readAtom] at h
  split at h
  · next found hfound =>
    obtain rfl := Except.ok.inj h
    obtain ⟨⟨word, spelled⟩, hword, hread⟩ := List.exists_of_findSome?_eq_some hfound
    obtain ⟨rest, hrest, heq⟩ := Option.map_eq_some_iff.1 hread
    obtain ⟨rfl, rfl⟩ := Prod.mk.inj heq
    exact ⟨word, .word hword, Text.afterStart?_eq_some_iff.1 hrest⟩
  · split at h
    · cases h
    · next literal digits behind hrun =>
      obtain ⟨hnumber, rfl⟩ := isNumber_of_run hrun
      split at h
      · split at h
        · next whole hsize =>
          obtain ⟨rfl, rfl⟩ := Prod.mk.inj (Except.ok.inj h)
          exact ⟨_, .number hnumber fun other hother => Option.some.inj hother ▸ hsize, rfl⟩
        · cases h
      · obtain ⟨rfl, rfl⟩ := Prod.mk.inj (Except.ok.inj h)
        exact ⟨_, .number hnumber (by simp), rfl⟩

/-! ### Values -/

/-- What a stretch of a document is: a value, or the items of an array or the members of an object
with the closing bracket or brace. -/
inductive Shape where
  | value (value : Value)
  | items (items : List Value)
  | members (members : List (Text × Value))

inductive IsJson : Shape → Text → Prop
  | atom {value : Value} {literal : Text} (h : IsAtom value literal) : IsJson (.value value) literal
  | string {content literal : Text} (h : IsString content literal) :
      IsJson (.value (.string content)) literal
  | emptyArray {blanks : Text} (hblanks : IsBlanks blanks) :
      IsJson (.value (.array [])) ('[' :: (blanks ++ [']']))
  | array {items : List Value} {blanks inside : Text} (hblanks : IsBlanks blanks)
      (h : IsJson (.items items) inside) :
      IsJson (.value (.array items)) ('[' :: (blanks ++ inside))
  | emptyObject {blanks : Text} (hblanks : IsBlanks blanks) :
      IsJson (.value (.object [])) ('\x7b' :: (blanks ++ ['\x7d']))
  | object {members : List (Text × Value)} {blanks inside : Text} (hblanks : IsBlanks blanks)
      (h : IsJson (.members members) inside) :
      IsJson (.value (.object members)) ('\x7b' :: (blanks ++ inside))
  | lastItem {item : Value} {literal blanks : Text} (h : IsJson (.value item) literal)
      (hblanks : IsBlanks blanks) : IsJson (.items [item]) (literal ++ (blanks ++ [']']))
  | item {item : Value} {items : List Value} {literal before after more : Text}
      (h : IsJson (.value item) literal) (hbefore : IsBlanks before) (hafter : IsBlanks after)
      (hmore : IsJson (.items items) more) :
      IsJson (.items (item :: items)) (literal ++ (before ++ ',' :: (after ++ more)))
  | lastMember {name nameLiteral before after literal blanks : Text} {value : Value}
      (hname : IsString name nameLiteral) (hbefore : IsBlanks before) (hafter : IsBlanks after)
      (h : IsJson (.value value) literal) (hblanks : IsBlanks blanks) :
      IsJson (.members [(name, value)])
      (nameLiteral ++ (before ++ ':' :: (after ++ (literal ++ (blanks ++ ['\x7d'])))))
  | member {name nameLiteral before after literal blanks further more : Text} {value : Value}
      {members : List (Text × Value)} (hname : IsString name nameLiteral)
      (hbefore : IsBlanks before) (hafter : IsBlanks after) (h : IsJson (.value value) literal)
      (hblanks : IsBlanks blanks) (hfurther : IsBlanks further)
      (hmore : IsJson (.members members) more) :
      IsJson (.members ((name, value) :: members))
        (nameLiteral ++
        (before ++ ':' :: (after ++ (literal ++ (blanks ++ ',' :: (further ++ more))))))

def Shape.Reads (fuel room : Nat) (text left : Text) : Shape → Prop
  | .value found => readValue fuel room text = .ok (found, left)
  | .items found => readItems fuel room text = .ok (found, left)
  | .members found => readMembers fuel room text = .ok (found, left)

/-- What can be read is a stretch of a document. -/
theorem exists_isJson (shape : Shape) (h : shape.Reads fuel room text left) :
    ∃ literal, IsJson shape literal ∧ text = literal ++ left := by
  induction fuel generalizing shape room text left with
  | zero => cases shape <;> cases h
  | succ fuel ih =>
    cases shape with
    | value value =>
      cases readValue_eq_ok_iff.1 h with
      | string h =>
        obtain ⟨literal, hstring, htext⟩ := readString_eq_ok_iff.1 h
        exact ⟨literal, .string hstring, htext⟩
      | emptyArray h =>
        obtain ⟨blanks, hblanks, rfl⟩ := exists_blanks h
        exact ⟨_, .emptyArray hblanks, by simp⟩
      | @array _ _ _ items _ h =>
        obtain ⟨inside, hinside, heq⟩ := ih (.items items) h
        obtain ⟨blanks, hblanks, rfl⟩ := exists_blanks heq
        exact ⟨_, .array hblanks hinside, by simp⟩
      | emptyObject h =>
        obtain ⟨blanks, hblanks, rfl⟩ := exists_blanks h
        exact ⟨_, .emptyObject hblanks, by simp⟩
      | @object _ _ _ members _ h =>
        obtain ⟨inside, hinside, heq⟩ := ih (.members members) h
        obtain ⟨blanks, hblanks, rfl⟩ := exists_blanks heq
        exact ⟨_, .object hblanks hinside, by simp⟩
      | atom _ h =>
        obtain ⟨literal, hatom, htext⟩ := isAtom_of_readAtom h
        exact ⟨literal, .atom hatom, htext⟩
    | items items =>
      cases readItems_eq_ok_iff.1 h with
      | @last item _ _ hvalue hrest =>
        obtain ⟨literal, hliteral, rfl⟩ := ih (.value item) hvalue
        obtain ⟨blanks, hblanks, rfl⟩ := exists_blanks hrest
        exact ⟨_, .lastItem hliteral hblanks, by simp⟩
      | @more item items _ _ _ hvalue hrest hitems =>
        obtain ⟨literal, hliteral, rfl⟩ := ih (.value item) hvalue
        obtain ⟨more, hmore, heq⟩ := ih (.items items) hitems
        obtain ⟨before, hbefore, rfl⟩ := exists_blanks hrest
        obtain ⟨after, hafter, rfl⟩ := exists_blanks heq
        exact ⟨_, .item hliteral hbefore hafter hmore, by simp⟩
    | members members =>
      cases readMembers_eq_ok_iff.1 h with
      | @last _ _ _ _ _ _ value hread hcolon hvalue hend =>
        obtain ⟨nameLiteral, hname, htext⟩ := readString_eq_ok_iff.1 hread
        obtain ⟨literal, hliteral, heq⟩ := ih (.value value) hvalue
        obtain ⟨before, hbefore, rfl⟩ := exists_blanks hcolon
        obtain ⟨after, hafter, rfl⟩ := exists_blanks heq
        obtain ⟨blanks, hblanks, rfl⟩ := exists_blanks hend
        exact ⟨_, .lastMember hname hbefore hafter hliteral hblanks, by simp [htext]⟩
      | @more _ _ _ _ _ _ _ value members hread hcolon hvalue hcomma hmembers =>
        obtain ⟨nameLiteral, hname, htext⟩ := readString_eq_ok_iff.1 hread
        obtain ⟨literal, hliteral, heq⟩ := ih (.value value) hvalue
        obtain ⟨more, hmore, hskip⟩ := ih (.members members) hmembers
        obtain ⟨before, hbefore, rfl⟩ := exists_blanks hcolon
        obtain ⟨after, hafter, rfl⟩ := exists_blanks heq
        obtain ⟨blanks, hblanks, rfl⟩ := exists_blanks hcomma
        obtain ⟨further, hfurther, rfl⟩ := exists_blanks hskip
        exact ⟨_, .member hname hbefore hafter hliteral hblanks hfurther hmore, by simp [htext]⟩

/-! ### The beginning of a stretch -/

def starts : List Char := openers ++ ['-', 'n', 't', 'f', 'N', 'I']

def Starts (c : Char) : Prop := c ∈ starts ∨ c.isDigit = true

instance instDecidableStarts (c : Char) : Decidable (Starts c) :=
  inferInstanceAs (Decidable (_ ∨ _))

theorem Starts.isBlank {c : Char} (h : Starts c) : isBlank c = false := by
  rw [← Bool.not_eq_true]
  intro hblank
  simp only [Json.isBlank, Bool.or_eq_true, decide_eq_true_eq] at hblank
  obtain ((rfl | rfl) | rfl) | rfl := hblank <;> exact absurd h (by decide)

theorem IsAtom.head (h : IsAtom value literal) :
    ∃ c others, literal = c :: others ∧ Starts c ∧ c ∉ openers := by
  cases h with
  | word h =>
    simp only [words, List.mem_cons, Prod.mk.injEq, List.not_mem_nil, or_false] at h
    rcases h with ⟨rfl, -⟩ | ⟨rfl, -⟩ | ⟨rfl, -⟩ | ⟨rfl, -⟩ | ⟨rfl, -⟩ | ⟨rfl, -⟩ <;>
        exact ⟨_, _, rfl, by decide⟩
  | number h =>
    obtain @⟨sign, whole, fraction, exponent, hsign, hwhole, -, -⟩ := h
    obtain ⟨c, others, rfl, hdigit⟩ := hwhole.head
    obtain rfl | rfl := hsign
    · refine ⟨c, _, rfl, .inr hdigit, fun hc => ?_⟩
      have hnone : ∀ d ∈ openers, d.isDigit = false := by decide
      exact ne_of_isDigit hdigit (hnone c hc) rfl
    · exact ⟨_, _, rfl, by decide⟩

theorem IsJson.head {shape : Shape} (h : IsJson shape literal) :
    ∃ c others, literal = c :: others ∧ Starts c := by
  induction h with
  | atom h =>
    obtain ⟨c, others, rfl, hc, -⟩ := h.head
    exact ⟨c, others, rfl, hc⟩
  | string h =>
    obtain ⟨body, rfl⟩ := h.exists_cons
    exact ⟨_, _, rfl, by decide⟩
  | emptyArray | array | emptyObject | object => exact ⟨_, _, rfl, by decide⟩
  | lastItem _ _ ih | item _ _ _ _ ih _ =>
    obtain ⟨c, others, rfl, hc⟩ := ih
    exact ⟨c, _, rfl, hc⟩
  | lastMember hname | member hname =>
    obtain ⟨behindQuote, rfl⟩ := hname.exists_cons
    exact ⟨_, _, rfl, by decide⟩

theorem IsJson.skipBlanks {shape : Shape} (h : IsJson shape literal) (hblanks : IsBlanks blanks)
    (rest : Text) : skipBlanks (blanks ++ (literal ++ rest)) = literal ++ rest := by
  obtain ⟨c, others, rfl, hc⟩ := h.head
  rw [skipBlanks_append hblanks, List.cons_append, skipBlanks_cons hc.isBlank]

theorem IsJson.head_ne {shape : Shape} (h : IsJson shape literal) {c : Char} (hc : ¬Starts c)
    (rest : Text) : (literal ++ rest).head? ≠ some c := by
  obtain ⟨d, others, rfl, hd⟩ := h.head
  rw [List.cons_append, List.head?_cons, ne_eq, Option.some_inj]
  rintro rfl
  exact hc hd

/-! ### Reading a stretch -/

theorem ends_cons {c : Char} (h : c.isDigit = false ∧ c ∉ (['.', 'e', 'E'] : List Char))
    (rest : Text) : Number.Ends (c :: rest) := by
  rintro d ⟨⟩
  exact h

theorem ends_blanks (h : IsBlanks blanks) (hrest : Number.Ends rest) :
    Number.Ends (blanks ++ rest) := by
  cases blanks with
  | nil => exact hrest
  | cons c blanks =>
    refine ends_cons ?_ _
    have hblank := h c List.mem_cons_self
    simp only [isBlank, Bool.or_eq_true, decide_eq_true_eq] at hblank
    obtain ((rfl | rfl) | rfl) | rfl := hblank <;> decide

theorem skipBlanks_stop {c : Char} (h : IsBlanks blanks) (hc : isBlank c = false) (rest : Text) :
    skipBlanks (blanks ++ c :: rest) = c :: rest := by
  rw [skipBlanks_append h, skipBlanks_cons hc]

/-- A stretch of a document is read, if there is enough fuel and room. -/
theorem IsJson.reads {shape : Shape} (h : IsJson shape literal) (hrest : Number.Ends rest)
    (hfuel : 2 * literal.length < fuel) (hroom : literal.length ≤ room) :
    shape.Reads fuel room (literal ++ rest) rest := by
  induction h generalizing fuel room rest with
  | atom h =>
    obtain ⟨fuel, rfl⟩ := Nat.exists_eq_succ_of_ne_zero (Nat.ne_zero_of_lt hfuel)
    obtain ⟨c, others, rfl, -, hopener⟩ := h.head
    refine readValue_eq_ok_iff.2 (.atom ?_ (readAtom_eq_ok_of_isAtom h hrest))
    rintro d ⟨⟩
    exact hopener
  | string h =>
    obtain ⟨fuel, rfl⟩ := Nat.exists_eq_succ_of_ne_zero (Nat.ne_zero_of_lt hfuel)
    obtain @⟨parts, body, hbody⟩ := h
    exact readValue_eq_ok_iff.2 (.string (readString_eq_ok_iff.2 ⟨_, .mk hbody, rfl⟩))
  | emptyArray hblanks =>
    obtain ⟨fuel, rfl⟩ := Nat.exists_eq_succ_of_ne_zero (Nat.ne_zero_of_lt hfuel)
    obtain ⟨room, rfl⟩ := Nat.exists_eq_succ_of_ne_zero (Nat.ne_zero_of_lt hroom)
    rw [List.cons_append, List.append_assoc]
    exact readValue_eq_ok_iff.2 (.emptyArray (skipBlanks_stop hblanks (by decide) rest))
  | array hblanks h ih =>
    obtain ⟨fuel, rfl⟩ := Nat.exists_eq_succ_of_ne_zero (Nat.ne_zero_of_lt hfuel)
    obtain ⟨room, rfl⟩ := Nat.exists_eq_succ_of_ne_zero (Nat.ne_zero_of_lt hroom)
    simp only [List.length_cons, List.length_append] at hfuel hroom
    rw [List.cons_append, List.append_assoc]
    apply readValue_eq_ok_iff.2
    apply ValueStep.array
    · rw [h.skipBlanks hblanks]
      exact h.head_ne (by decide) rest
    · rw [h.skipBlanks hblanks]
      exact ih hrest (by omega) (by omega)
  | emptyObject hblanks =>
    obtain ⟨fuel, rfl⟩ := Nat.exists_eq_succ_of_ne_zero (Nat.ne_zero_of_lt hfuel)
    obtain ⟨room, rfl⟩ := Nat.exists_eq_succ_of_ne_zero (Nat.ne_zero_of_lt hroom)
    rw [List.cons_append, List.append_assoc]
    exact readValue_eq_ok_iff.2 (.emptyObject (skipBlanks_stop hblanks (by decide) rest))
  | object hblanks h ih =>
    obtain ⟨fuel, rfl⟩ := Nat.exists_eq_succ_of_ne_zero (Nat.ne_zero_of_lt hfuel)
    obtain ⟨room, rfl⟩ := Nat.exists_eq_succ_of_ne_zero (Nat.ne_zero_of_lt hroom)
    simp only [List.length_cons, List.length_append] at hfuel hroom
    rw [List.cons_append, List.append_assoc]
    apply readValue_eq_ok_iff.2
    apply ValueStep.object
    · rw [h.skipBlanks hblanks]
      exact h.head_ne (by decide) rest
    · rw [h.skipBlanks hblanks]
      exact ih hrest (by omega) (by omega)
  | @lastItem item literal blanks h hblanks ih =>
    obtain ⟨fuel, rfl⟩ := Nat.exists_eq_succ_of_ne_zero (Nat.ne_zero_of_lt hfuel)
    simp only [List.length_cons, List.length_append] at hfuel hroom
    have hvalue : readValue fuel room _ = .ok (item, blanks ++ ']' :: rest) :=
      ih (ends_blanks hblanks (ends_cons (by decide) rest)) (by omega) (by omega)
    simp only [List.append_assoc, List.singleton_append]
    exact readItems_eq_ok_iff.2 (.last hvalue (skipBlanks_stop hblanks (by decide) rest))
  | @item item items literal before after more h hbefore hafter hmore ih ihmore =>
    obtain ⟨fuel, rfl⟩ := Nat.exists_eq_succ_of_ne_zero (Nat.ne_zero_of_lt hfuel)
    simp only [List.length_cons, List.length_append] at hfuel hroom
    have hvalue : readValue fuel room _ = .ok (item, before ++ ',' :: (after ++ (more ++ rest))) :=
      ih (ends_blanks hbefore (ends_cons (by decide) _)) (by omega) (by omega)
    simp only [List.append_assoc, List.cons_append]
    refine readItems_eq_ok_iff.2 (.more hvalue (skipBlanks_stop hbefore (by decide) _) ?_)
    rw [hmore.skipBlanks hafter]
    exact ihmore hrest (by omega) (by omega)
  | @lastMember name nameLiteral before after literal blanks value hname hbefore hafter
      h hblanks ih =>
    obtain ⟨fuel, rfl⟩ := Nat.exists_eq_succ_of_ne_zero (Nat.ne_zero_of_lt hfuel)
    simp only [List.length_cons, List.length_append] at hfuel hroom
    have hvalue : readValue fuel room _ = .ok (value, blanks ++ '\x7d' :: rest) :=
      ih (ends_blanks hblanks (ends_cons (by decide) rest)) (by omega) (by omega)
    obtain ⟨behindQuote, rfl⟩ := hname.exists_cons
    simp only [List.append_assoc, List.cons_append, List.nil_append]
    rw [← h.skipBlanks hafter] at hvalue
    exact readMembers_eq_ok_iff.2 (.last (readString_eq_ok_iff.2 ⟨_, hname, rfl⟩)
      (skipBlanks_stop hbefore (by decide) _) hvalue (skipBlanks_stop hblanks (by decide) rest))
  | @member name nameLiteral before after literal blanks further more value members hname hbefore
      hafter h hblanks hfurther hmore ih ihmore =>
    obtain ⟨fuel, rfl⟩ := Nat.exists_eq_succ_of_ne_zero (Nat.ne_zero_of_lt hfuel)
    simp only [List.length_cons, List.length_append] at hfuel hroom
    have hvalue :
        readValue fuel room _ = .ok (value, blanks ++ ',' :: (further ++ (more ++ rest))) :=
      ih (ends_blanks hblanks (ends_cons (by decide) _)) (by omega) (by omega)
    obtain ⟨behindQuote, rfl⟩ := hname.exists_cons
    simp only [List.append_assoc, List.cons_append]
    rw [← h.skipBlanks hafter] at hvalue
    refine readMembers_eq_ok_iff.2 (.more (readString_eq_ok_iff.2 ⟨_, hname, rfl⟩)
      (skipBlanks_stop hbefore (by decide) _) hvalue (skipBlanks_stop hblanks (by decide) _) ?_)
    rw [hmore.skipBlanks hfurther]
    exact ihmore hrest (by omega) (by omega)

/-! ### Documents -/

/-- With as much room as there is text, nothing lies too deep. -/
theorem ne_tooDeep (hroom : text.length ≤ room) : readValue fuel room text ≠ .error .tooDeep ∧
    readItems fuel room text ≠ .error .tooDeep ∧ readMembers fuel room text ≠ .error .tooDeep := by
  induction fuel generalizing room text with
  | zero => simp [readValue, readItems, readMembers]
  | succ fuel ih =>
    refine ⟨fun h => ?_, fun h => ?_, fun h => ?_⟩
    · obtain ⟨c, rest, rfl, rfl | ⟨room, rfl, hinside⟩⟩ := tooDeep_of_readValue h
      · cases hroom
      · have hskip := length_skipBlanks_le rest
        rw [List.length_cons] at hroom
        have hinner : (skipBlanks rest).length ≤ room := by omega
        exact hinside.elim (ih hinner).2.1 (ih hinner).2.2
    · obtain hvalue | ⟨item, rest, behind, hvalue, hcomma, hmore⟩ := tooDeep_of_readItems h
      · exact (ih hroom).1 hvalue
      · obtain ⟨literal, -, rfl⟩ := exists_isJson (.value item) hvalue
        obtain ⟨before, -, rfl⟩ := exists_blanks hcomma
        have hskip := length_skipBlanks_le behind
        simp only [List.length_append, List.length_cons] at hroom
        exact (ih (by omega)).2.1 hmore
    · obtain ⟨behindQuote, name, rest, behind, rfl, hname, hcolon, hvalue⟩ :=
        tooDeep_of_readMembers h
      obtain ⟨nameLiteral, -, htext⟩ := readString_eq_ok_iff.1 hname
      obtain ⟨before, -, rfl⟩ := exists_blanks hcolon
      have hskip := length_skipBlanks_le behind
      simp only [htext, List.length_append, List.length_cons] at hroom
      obtain hvalue | ⟨value, after, further, hvalue, hcomma, hmore⟩ := hvalue
      · exact (ih (by omega)).1 hvalue
      · obtain ⟨literal, -, heq⟩ := exists_isJson (.value value) hvalue
        obtain ⟨blanks, -, rfl⟩ := exists_blanks hcomma
        have hfurther := length_skipBlanks_le further
        simp only [heq, List.length_append, List.length_cons] at hskip
        exact (ih (by omega)).2.2 hmore

def IsDocument (value : Value) (text : Text) : Prop :=
  ∃ before literal after, IsBlanks before ∧ IsJson (.value value) literal ∧ IsBlanks after ∧
    text = before ++ (literal ++ after)

/-- A text the reader accepts is a document with the value it gives. -/
theorem isDocument_of_readWithin {maxDepth : Nat} (h : readWithin maxDepth text = .ok value) :
    IsDocument value text := by
  unfold readWithin at h
  split at h
  · cases h
  · obtain ⟨⟨found, rest⟩, hvalue, h⟩ := bind_eq_ok_iff.1 h
    simp only at h
    split at h
    · next hrest =>
      obtain rfl := Except.ok.inj h
      obtain ⟨literal, hliteral, hskip⟩ := exists_isJson (.value found) hvalue
      obtain ⟨before, hbefore, rfl⟩ := exists_blanks hskip
      obtain ⟨after, hafter, rfl⟩ := exists_blanks hrest
      exact ⟨before, literal, after, hbefore, hliteral, hafter, by rw [List.append_nil]⟩
    · cases h

theorem IsDocument.head_ne_mark (h : IsDocument value text) : text.head? ≠ some '\ufeff' := by
  obtain ⟨before, literal, after, hbefore, h, -, rfl⟩ := h
  cases before with
  | nil => exact h.head_ne (by decide) after
  | cons c before =>
    rw [List.cons_append, List.head?_cons, ne_eq, Option.some_inj]
    rintro rfl
    exact absurd (hbefore _ List.mem_cons_self) (by decide)

/-- Just documents are read, where the depth is no bound. -/
theorem readWithin_eq_ok_iff {maxDepth : Nat} (hdepth : text.length ≤ maxDepth) :
    readWithin maxDepth text = .ok value ↔ IsDocument value text := by
  refine ⟨isDocument_of_readWithin, fun h => ?_⟩
  have hmark := h.head_ne_mark
  obtain ⟨before, literal, after, hbefore, h, hafter, rfl⟩ := h
  have hends : Number.Ends (after ++ []) := ends_blanks hafter (by simp [Number.Ends])
  have hskip : skipBlanks (after ++ []) = [] := skipBlanks_append hafter []
  simp only [List.length_append] at hdepth
  have hvalue :
      readValue (2 * (before ++ (literal ++ after)).length + 2) maxDepth (literal ++ after) =
        .ok (value, after) := by
    rw [List.append_nil] at hends
    exact h.reads hends (by simp only [List.length_append]; omega) (by omega)
  rw [List.append_nil] at hskip
  rw [readWithin, if_neg hmark, h.skipBlanks hbefore, hvalue]
  exact bind_eq_ok_iff.2 ⟨_, rfl, by simp only [hskip]; rfl⟩

theorem readWithin_ne_tooDeep {maxDepth : Nat} (hdepth : text.length ≤ maxDepth) :
    readWithin maxDepth text ≠ .error .tooDeep := by
  intro h
  unfold readWithin at h
  split at h
  · cases h
  · obtain hvalue | ⟨⟨found, rest⟩, -, h⟩ := bind_eq_error_iff.1 h
    · exact (ne_tooDeep ((length_skipBlanks_le text).trans hdepth)).1 hvalue
    · simp only at h
      split at h <;> cases h

end LazyEmbed.Json
