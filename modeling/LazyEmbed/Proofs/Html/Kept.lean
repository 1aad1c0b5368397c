import LazyEmbed.Proofs.Html.Reference

/-!
# What decoding keeps

The name of a reference may be any run of characters, but only letters, digits and the semicolon are
ever used up: no known name has others, and what is not known stays. So of a text that is decoded
every other character is still there, and so is every stretch of text behind a blank up to the next
ampersand.
-/

namespace LazyEmbed.Html

variable {text rest out : Text} {c : Char}

/-! ### Known names -/

def isNameOctet (octet : UInt8) : Bool :=
  octet = 59 || (48 ≤ octet && octet ≤ 57) || (65 ≤ octet && octet ≤ 90) ||
    (97 ≤ octet && octet ≤ 122)

-- The names are looked at as octets, since it takes long to evaluate their characters.
theorem all_startingWith (initial : Char) :
    (EntityName.startingWith initial).all
      (fun entry => entry.1.toByteArray.data.toList.all isNameOctet) = true := by
  unfold EntityName.startingWith
  split <;> decide +kernel

theorem mem_octets {name : Text} (h : c ∈ name) {octet : UInt8}
    (hoctet : octet ∈ String.utf8EncodeChar c) :
    octet ∈ (String.ofList name).toByteArray.data.toList := by
  change octet ∈ (name.flatMap String.utf8EncodeChar).toByteArray.data.toList
  rw [List.data_toByteArray]
  exact List.mem_flatMap.2 ⟨c, h, hoctet⟩

theorem toNat_of_isNameOctet {n : Nat} (hn : n < 256) (h : isNameOctet (.ofNat n) = true) :
    n = 59 ∨ (48 ≤ n ∧ n ≤ 57) ∨ (65 ≤ n ∧ n ≤ 90) ∨ (97 ≤ n ∧ n ≤ 122) := by
  have hoctet : (UInt8.ofNat n).toNat = n := by
    rw [UInt8.toNat_ofNat']
    omega
  simp only [isNameOctet, Bool.or_eq_true, Bool.and_eq_true, decide_eq_true_eq,
    UInt8.le_iff_toNat_le, ← UInt8.toNat_inj, hoctet] at h
  simpa [or_assoc] using h

/-- Beyond ASCII the first octet is too great. -/
theorem isAlphanum_of_octets
    (h : ∀ octet ∈ String.utf8EncodeChar c, isNameOctet octet = true) :
    c = ';' ∨ c.isAlphanum = true := by
  by_cases hascii : c.toNat ≤ 127
  · have hoctet : UInt8.ofNat c.toNat ∈ String.utf8EncodeChar c := by
      rw [String.utf8EncodeChar, if_pos (show c.val.toNat ≤ 127 from hascii)]
      exact List.mem_singleton_self _
    have hcases := toNat_of_isNameOctet (by omega) (h _ hoctet)
    have hsemicolon : ';'.toNat = 59 := rfl
    rw [← Char.toNat_inj, isAlphanum_iff, hsemicolon]
    omega
  · have hfirst : ∃ n, 192 ≤ n ∧ n < 256 ∧ .ofNat n ∈ String.utf8EncodeChar c := by
      rw [String.utf8EncodeChar]
      simp only [show ¬c.val.toNat ≤ 127 from hascii, if_false]
      split
      · exact ⟨_, by omega, by omega, List.mem_cons_self⟩
      split
      · exact ⟨_, by omega, by omega, List.mem_cons_self⟩
      · exact ⟨_, by omega, by omega, List.mem_cons_self⟩
    obtain ⟨n, hlow, hhigh, hmem⟩ := hfirst
    have hcases := toNat_of_isNameOctet hhigh (h _ hmem)
    omega

theorem not_mem_of_expansion? {name characters : Text}
    (h : EntityName.expansion? name = some characters) (hc : IsBarrier c) : c ∉ name := by
  obtain ⟨-, -, hsemicolon, halphanum⟩ := hc
  cases name with
  | nil => simp
  | cons initial others =>
    obtain ⟨found, hfound, -⟩ := Option.map_eq_some_iff.1 h
    obtain ⟨before, after, hentries, -⟩ := List.lookup_eq_some_iff.1 hfound
    have hall := all_startingWith initial
    rw [hentries, List.all_append, List.all_cons, Bool.and_eq_true, Bool.and_eq_true] at hall
    intro hmem
    have hoctets : ∀ octet ∈ String.utf8EncodeChar c, isNameOctet octet = true :=
      fun octet hoctet =>
      List.all_eq_true.1 hall.2.1 octet (mem_octets hmem hoctet)
    obtain hsame | hplain := isAlphanum_of_octets hoctets
    · exact hsemicolon hsame
    · exact Bool.noConfusion (halphanum.symm.trans hplain)

/-- The longest known beginning is expanded, and the rest of the name stays behind it. -/
theorem exists_of_ofBeginning? {name found : Text} {length : Nat}
    (h : CharRef.ofBeginning? name length = some found) :
    ∃ size characters, EntityName.expansion? (name.take size) = some characters ∧
      found = characters ++ name.drop size := by
  induction length using CharRef.ofBeginning?.induct name with
  | case1 | case2 => simp [CharRef.ofBeginning?] at h
  | case3 length characters hknown =>
    rw [CharRef.ofBeginning?, hknown] at h
    exact ⟨length + 2, characters, hknown, (Option.some.inj h).symm⟩
  | case4 length hunknown ih =>
    rw [CharRef.ofBeginning?, hunknown] at h
    exact ih h

theorem mem_of_ofBeginning? {name found : Text} {length : Nat}
    (h : CharRef.ofBeginning? name length = some found) (hc : IsBarrier c) (hmem : c ∈ name) :
    c ∈ found := by
  obtain ⟨size, characters, hknown, rfl⟩ := exists_of_ofBeginning? h
  rw [← List.take_append_drop size name, List.mem_append] at hmem
  rcases hmem with hmem | hmem
  · exact absurd hmem (not_mem_of_expansion? hknown hc)
  · exact List.mem_append_right _ hmem

/-- A possible name loses nothing but letters, digits and semicolons. -/
theorem mem_ofName {name : Text} (hc : IsBarrier c) (hmem : c ∈ name) :
    c ∈ CharRef.ofName name := by
  unfold CharRef.ofName
  split
  · next characters hknown => exact absurd hmem (not_mem_of_expansion? hknown hc)
  · cases hbeginning : CharRef.ofBeginning? name (name.length - 1) with
    | none => exact List.mem_cons_of_mem _ hmem
    | some found => exact mem_of_ofBeginning? hbeginning hc hmem

theorem exists_of_run_semicolon {found : Option Unit}
    (h : (Reader.optional (.literal [';'])).run text = some (found, rest)) :
    ∃ taken, text = taken ++ rest ∧ (∀ c ∈ taken, c = ';') ∧
      ∀ name : Text, (if found.isSome then name ++ [';'] else name) = name ++ taken := by
  obtain ⟨value, rfl, hrun⟩ | ⟨rfl, rfl⟩ := Reader.run_optional_cases h
  · exact ⟨[';'], Reader.run_literal_eq_some_iff.1 hrun, by simp, by simp⟩
  · exact ⟨[], by simp, by simp, by simp⟩

/-- What a reference takes up is used up or comes out again. -/
theorem exists_taken_of_run_body {value : CharRef}
    (h : CharRef.body.run text = some (value, rest)) :
    ∃ taken, text = taken ++ rest ∧
      ∀ found, value.decode = .ok found → ∀ c ∈ taken, IsBarrier c → c ∈ found := by
  obtain ⟨reader, hreader, hrun⟩ := Reader.exists_run_of_oneOf h
  simp only [List.mem_cons, List.not_mem_nil, or_false] at hreader
  rcases hreader with rfl | rfl | rfl
  · obtain ⟨_, behind, hsharp, hrun⟩ := Reader.run_bind_eq_some_iff.1 hrun
    obtain ⟨digits, left, hdigits, hrun⟩ := Reader.run_bind_eq_some_iff.1 hrun
    obtain ⟨found, left', hsemicolon, hpure⟩ := Reader.run_bind_eq_some_iff.1 hrun
    obtain rfl : _ = ['#'] ++ behind := Reader.run_literal_eq_some_iff.1 hsharp
    obtain ⟨rfl, -, hall⟩ := Reader.eq_append_of_run_many1 hdigits
    obtain ⟨taken, rfl, htaken, -⟩ := exists_of_run_semicolon hsemicolon
    obtain ⟨-, rfl⟩ : _ ∧ left' = rest := by simpa using hpure
    refine ⟨['#'] ++ digits ++ taken, by simp, fun _ _ c hmem ⟨_, hsharp, hsemicolon, hother⟩ => ?_⟩
    simp only [List.mem_append, List.mem_singleton] at hmem
    rcases hmem with (rfl | hmem) | hmem
    · exact absurd rfl hsharp
    · simp [Char.isAlphanum, hall c hmem] at hother
    · exact absurd (htaken c hmem) hsemicolon
  · obtain ⟨_, behind, hsharp, hrun⟩ := Reader.run_bind_eq_some_iff.1 hrun
    obtain ⟨mark, _, hmark, hrun⟩ := Reader.run_bind_eq_some_iff.1 hrun
    obtain ⟨digits, left, hdigits, hrun⟩ := Reader.run_bind_eq_some_iff.1 hrun
    obtain ⟨found, left', hsemicolon, hpure⟩ := Reader.run_bind_eq_some_iff.1 hrun
    obtain rfl : _ = ['#'] ++ behind := Reader.run_literal_eq_some_iff.1 hsharp
    obtain ⟨hletter, rfl⟩ := Reader.run_char_eq_some_iff.1 hmark
    obtain ⟨rfl, -, hall⟩ := Reader.eq_append_of_run_many1 hdigits
    obtain ⟨taken, rfl, htaken, -⟩ := exists_of_run_semicolon hsemicolon
    obtain ⟨-, rfl⟩ : _ ∧ left' = rest := by simpa using hpure
    refine ⟨['#', mark] ++ digits ++ taken, by simp,
      fun _ _ c hmem ⟨_, hsharp, hsemicolon, hother⟩ => ?_⟩
    simp only [List.mem_append, List.mem_cons, List.not_mem_nil, or_false] at hmem
    rcases hmem with ((rfl | rfl) | hmem) | hmem
    · exact absurd rfl hsharp
    · simp only [Bool.or_eq_true, decide_eq_true_eq] at hletter
      rcases hletter with rfl | rfl <;> exact absurd hother (by decide)
    · simp [isAlphanum_of_isHexDigit (hall c hmem)] at hother
    · exact absurd (htaken c hmem) hsemicolon
  · obtain ⟨name, left, hname, hrun⟩ := Reader.run_bind_eq_some_iff.1 hrun
    obtain ⟨_, _, hguard, hrun⟩ := Reader.run_bind_eq_some_iff.1 hrun
    obtain ⟨found, left', hsemicolon, hpure⟩ := Reader.run_bind_eq_some_iff.1 hrun
    obtain ⟨rfl, -⟩ := Reader.eq_append_of_run_manyAtMost hname
    obtain ⟨-, rfl⟩ : _ ∧ left = _ := by simpa using hguard
    obtain ⟨taken, rfl, htaken, hwhole⟩ := exists_of_run_semicolon hsemicolon
    rw [hwhole] at hpure
    obtain ⟨rfl, rfl⟩ : CharRef.named (name ++ taken) = value ∧ left' = rest := by simpa using hpure
    refine ⟨name ++ taken, by simp, fun found hfound c hmem hc => ?_⟩
    obtain rfl := Except.ok.inj hfound
    exact mem_ofName hc hmem

/-- Decoding never loses a barrier: it can only come out of itself. -/
theorem mem_of_decodeReferences (h : decodeReferences text = .ok out) (hc : IsBarrier c)
    (hmem : c ∈ text) : c ∈ out := by
  induction text using CharRef.pattern.searchInduction generalizing out with
  | nil => simp at hmem
  | plain d text hrun ih =>
    rw [decodeReferences, Pattern.replaceM_cons_of_run_eq_none _ hrun, map_eq_ok_iff] at h
    obtain ⟨found, hfound, rfl⟩ := h
    obtain rfl | hmem := List.mem_cons.1 hmem
    · exact List.mem_cons_self
    · exact List.mem_cons_of_mem _ (ih hfound hmem)
  | hit text value rest hrun ih =>
    rw [decodeReferences, Pattern.replaceM_of_run_eq_some _ hrun, bind_append_eq_ok_iff] at h
    obtain ⟨first, others, hfirst, hothers, rfl⟩ := h
    obtain ⟨_, behind, hampersand, hbody⟩ := Reader.run_bind_eq_some_iff.1 hrun
    obtain rfl : _ = ['&'] ++ behind := Reader.run_literal_eq_some_iff.1 hampersand
    obtain ⟨taken, rfl, htaken⟩ := exists_taken_of_run_body hbody
    simp only [List.mem_append, List.mem_singleton] at hmem
    rcases hmem with rfl | hmem | hmem
    · exact absurd rfl hc.1
    · exact List.mem_append_left _ (htaken first hfirst c hmem hc)
    · exact List.mem_append_right _ (ih hothers hmem)

theorem stopsAt_blank (stop : Text) : CharRef.pattern.reader.StopsAt (' ' :: stop) := by
  have hsharp : (Reader.literal "#").StopsAt (' ' :: stop) := Reader.stopsAt_literal (by decide)
  have hsemicolon : (Reader.optional (.literal ";")).StopsAt (' ' :: stop) :=
    Reader.StopsAt.optional (Reader.stopsAt_literal (by decide))
  refine (Reader.stopsAt_literal (by decide)).bind fun _ => Reader.stopsAt_oneOf ?_
  intro reader hreader
  simp only [List.mem_cons, List.not_mem_nil, or_false] at hreader
  rcases hreader with rfl | rfl | rfl
  · exact hsharp.bind fun _ => (Reader.stopsAt_many1 rfl).bind fun _ =>
      hsemicolon.bind fun _ => Reader.stopsAt_pure _
  · exact hsharp.bind fun _ => (Reader.stopsAt_char rfl).bind fun _ =>
      (Reader.stopsAt_many1 rfl).bind fun _ => hsemicolon.bind fun _ => Reader.stopsAt_pure _
  · exact (Reader.stopsAt_manyAtMost rfl _).bind fun _ => (Reader.stopsAt_guard _).bind fun _ =>
      hsemicolon.bind fun _ => Reader.stopsAt_pure _

/-- Behind a blank everything up to the next ampersand is kept. -/
theorem infix_of_decodeReferences {kept : Text} (h : decodeReferences text = .ok out)
    (hkept : '&' ∉ kept) (hinside : ' ' :: kept <:+: text) : ' ' :: kept <:+: out := by
  obtain ⟨before, after, rfl⟩ := hinside
  have hplain : '&' ∉ ' ' :: kept := by simpa using hkept
  rw [List.append_assoc, List.cons_append, decodeReferences,
    Pattern.replaceM_append_stop (stopsAt_blank _), bind_append_eq_ok_iff] at h
  obtain ⟨first, others, -, hothers, rfl⟩ := h
  have hothers : decodeReferences (' ' :: kept ++ after) = .ok others := hothers
  rw [decodeReferences_append_of_not_mem hplain, map_eq_ok_iff] at hothers
  obtain ⟨behind, -, rfl⟩ := hothers
  exact ⟨first, behind, by simp⟩

end LazyEmbed.Html
