import LazyEmbed.Proofs.Html.Kept
import LazyEmbed.Proofs.Text.Decoding
import LazyEmbed.Proofs.Text.Yielding

/-!
# No reference stands for NUL

The number of NUL stands for the replacement character, and no name stands for a text with it. So a
text without it is decoded to one without it.
-/

namespace LazyEmbed.Html

def nul : Char := '\x00'

-- The characters are looked at as octets, as the names are.
theorem all_expansions (initial : Char) :
    (EntityName.startingWith initial).all
      (fun entry => entry.2.toByteArray.data.toList.all (· ≠ 0)) = true := by
  unfold EntityName.startingWith
  split <;> decide +kernel

/-- No named reference gives the null character. -/
theorem nul_not_mem_expansion? {name characters : Text}
    (h : EntityName.expansion? name = some characters) : nul ∉ characters := by
  cases name with
  | nil => simp [EntityName.expansion?] at h
  | cons initial others =>
    obtain ⟨found, hfound, rfl⟩ := Option.map_eq_some_iff.1 h
    obtain ⟨before, after, hentries, -⟩ := List.lookup_eq_some_iff.1 hfound
    have hall := all_expansions initial
    rw [hentries, List.all_append, List.all_cons, Bool.and_eq_true, Bool.and_eq_true] at hall
    intro hmem
    have hoctet : (0 : UInt8) ∈ String.utf8EncodeChar nul := by decide
    have hzero := List.all_eq_true.1 hall.2.1 0 (by
      rw [← String.ofList_toList (s := found)]
      exact mem_octets hmem hoctet)
    exact absurd hzero (by decide)

/-- No numeric reference gives the null character. -/
theorem nul_not_mem_ofNumber (n : Nat) : nul ∉ CharRef.ofNumber n := by
  have hcontrols : nul ∉ CharRef.upperControls := by decide
  have hreplacement : nul ∉ ['\ufffd'] := by decide
  unfold CharRef.ofNumber
  split
  · intro hmem
    exact hcontrols (List.mem_of_getElem? (Option.mem_toList.1 hmem))
  split
  · exact hreplacement
  split
  · exact List.not_mem_nil
  · next hspecial _ =>
    simp only [Bool.or_eq_true, Bool.and_eq_true, decide_eq_true_eq, not_or, not_and] at hspecial
    have hnumber : (Char.ofNat n).toNat = n := Utf8.toNat_ofNat_of_valid (by omega)
    intro hmem
    rw [← List.mem_singleton.1 hmem] at hnumber
    exact hspecial.1.1 hnumber.symm

theorem nul_not_mem_ofBeginning? {name found : Text} {length : Nat} (hname : nul ∉ name)
    (h : CharRef.ofBeginning? name length = some found) : nul ∉ found := by
  obtain ⟨size, characters, hknown, rfl⟩ := exists_of_ofBeginning? h
  intro hmem
  obtain hmem | hmem := List.mem_append.1 hmem
  · exact nul_not_mem_expansion? hknown hmem
  · exact hname (List.mem_of_mem_drop hmem)

theorem nul_not_mem_ofName {name : Text} (hname : nul ∉ name) : nul ∉ CharRef.ofName name := by
  unfold CharRef.ofName
  split
  · next characters hknown => exact nul_not_mem_expansion? hknown
  · cases hbeginning : CharRef.ofBeginning? name (name.length - 1) with
    | none =>
      have hampersand : nul ≠ '&' := by decide
      simp [hampersand, hname]
    | some found => exact nul_not_mem_ofBeginning? hname hbeginning

/-- What a reference stands for has no NUL, if its name has none. -/
theorem yields_pattern : CharRef.pattern.reader.Yields nul fun value =>
    Lands (nul ∉ ·) (fun _ => True) value.decode := by
  refine Pattern.yields_after fun text value rest htext hrun => ?_
  obtain ⟨reader, hreader, hrun⟩ := Reader.exists_run_of_oneOf hrun
  have hnumber : ∀ digits, Lands (nul ∉ ·) (fun _ => True) (CharRef.decimal digits).decode := by
    intro digits
    simp only [CharRef.decode]
    cases Text.readDecimal digits with
    | error oversized => trivial
    | ok n => exact nul_not_mem_ofNumber n
  have hyields : reader.Yields nul fun value => Lands (nul ∉ ·) (fun _ => True) value.decode := by
    simp only [List.mem_cons, List.not_mem_nil, or_false] at hreader
    obtain rfl | rfl | rfl := hreader
    · exact Reader.Yields.after fun _ => Reader.Yields.after fun digits =>
        Reader.Yields.after fun _ =>
        Reader.yields_pure (hnumber digits)
    · exact Reader.Yields.after fun _ => Reader.Yields.after fun _ =>
        Reader.Yields.after fun digits =>
        Reader.Yields.after fun _ => Reader.yields_pure (nul_not_mem_ofNumber _)
    · refine (Reader.yields_manyAtMost _ _).bind fun name hname => Reader.Yields.after fun _ =>
        Reader.Yields.after fun semicolon => Reader.yields_pure ?_
      refine nul_not_mem_ofName ?_
      have hsemicolon : nul ≠ ';' := by decide
      cases semicolon with
      | none => exact hname
      | some _ => simp [hname, hsemicolon]
  exact hyields htext hrun

theorem lands_decodeReferences {text : Text} (h : nul ∉ text) :
    Lands (nul ∉ ·) (fun _ => True) (decodeReferences text) :=
  Pattern.lands_replaceM_of_yields yields_pattern (fun _ hvalue => hvalue) h

end LazyEmbed.Html
