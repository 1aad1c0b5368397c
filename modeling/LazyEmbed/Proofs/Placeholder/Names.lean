import LazyEmbed.Placeholder.Element
import LazyEmbed.Proofs.Keyed
import LazyEmbed.Proofs.Text.Reading
import LazyEmbed.Title.Tag

/-!
# The names of a placeholder's attributes

The names are read off an element or are fixed, and so each has a character, and only characters
that names are read from.
-/

namespace LazyEmbed

def Attributes.IsName (name : Text) : Prop :=
  name ≠ [] ∧ ∀ c ∈ name, Attributes.isNameChar c = true

theorem Attributes.IsName.not_mem {name : Text} {c : Char} (h : Attributes.IsName name)
    (hc : Attributes.isNameChar c = false) : c ∉ name :=
  fun hmem => Bool.noConfusion ((h.2 c hmem).symm.trans hc)

namespace Placeholder

open Attributes (IsName)

theorem isName_attributeNames : ∀ name ∈ attributeNames, IsName name := by
  unfold IsName
  simp only [attributeNames, List.forall_mem_cons]
  dsimp only [markName, ClickToLoad.siteName, ClickToLoad.backgroundName, ClickToLoad.mediaName]
  -- The kernel takes long to decode a literal, so it is given the characters.
  repeat rw [String.toList_ofList]
  decide +kernel

theorem isName_markName : IsName markName := isName_attributeNames _ (by simp [attributeNames])

theorem isName_siteName : IsName ClickToLoad.siteName :=
  isName_attributeNames _ (by simp [attributeNames])

theorem isName_mediaName : IsName ClickToLoad.mediaName :=
  isName_attributeNames _ (by simp [attributeNames])

theorem isName_backgroundName : IsName ClickToLoad.backgroundName :=
  isName_attributeNames _ (by simp [attributeNames])

/-- The names of the mark, of the site and of the item are told apart. -/
theorem itemNames_ne : markName ≠ ClickToLoad.siteName ∧ markName ≠ ClickToLoad.mediaName ∧
    ClickToLoad.siteName ≠ ClickToLoad.mediaName := by
  unfold markName ClickToLoad.siteName ClickToLoad.mediaName
  repeat rw [String.toList_ofList]
  decide

/-- The name of the attribute with the title, which is longer than the others. -/
theorem isName_titleName : IsName Title.attributeName := by
  unfold IsName Title.attributeName
  rw [String.toList_ofList]
  decide +kernel

theorem length_titleName : Title.attributeName.length = 36 := by
  unfold Title.attributeName
  rw [String.toList_ofList]
  rfl

theorem length_attributeNames :
    ∀ name ∈ attributeNames, name.length + 2 ≤ Title.attributeName.length := by
  have hshort : ∀ name ∈ attributeNames, name.length ≤ 34 := by
    simp only [attributeNames, List.forall_mem_cons]
    dsimp only [markName, ClickToLoad.siteName, ClickToLoad.backgroundName, ClickToLoad.mediaName]
    repeat rw [String.toList_ofList]
    decide +kernel
  intro name hname
  rw [length_titleName]
  exact Nat.add_le_add_right (hshort name hname) 2

theorem isName_of_mem_ofElement (element : Text) :
    ∀ name ∈ (Attributes.ofElement element).keys, IsName name := by
  refine Keyed.forall_keys_ofPairs (Pattern.forall_mem_hits ?_ element)
  rintro text ⟨name, value⟩ rest hrun
  obtain ⟨found, left, hfound, hrun⟩ := Reader.run_bind_eq_some_iff.1 hrun
  obtain ⟨_, hne, hall⟩ := Reader.eq_append_of_run_many1 hfound
  obtain ⟨_, left, -, hrun⟩ := Reader.run_bind_eq_some_iff.1 hrun
  obtain ⟨_, left, -, hrun⟩ := Reader.run_bind_eq_some_iff.1 hrun
  obtain ⟨⟨rfl, -⟩, -⟩ : (found = name ∧ _) ∧ _ := by simpa using hrun
  exact ⟨hne, hall⟩

theorem isName_put {attributes : Attributes} (h : ∀ name ∈ attributes.keys, IsName name)
    {key value : Text} (hkey : IsName key) :
    ∀ name ∈ (attributes.put key value).keys, IsName name := by
  intro name hname
  rcases Keyed.mem_keys_put.1 hname with rfl | hname
  · exact hkey
  · exact h name hname

theorem isName_erase {attributes : Attributes} (h : ∀ name ∈ attributes.keys, IsName name)
    (key : Text) : ∀ name ∈ (attributes.erase key).keys, IsName name :=
  fun name hname => h name (Keyed.mem_keys_of_mem_keys_erase hname)

theorem isName_promoteSource {attributes : Attributes}
    (h : ∀ name ∈ attributes.keys, IsName name) :
    ∀ name ∈ (ClickToLoad.promoteSource attributes).keys, IsName name := by
  unfold ClickToLoad.promoteSource
  split
  · exact isName_put h ⟨by decide, by decide⟩
  · exact h

/-- Moving the background brings in no key that is not a name. -/
theorem isName_extractBackground {attributes : Attributes}
    (h : ∀ name ∈ attributes.keys, IsName name) :
    ∀ name ∈ (ClickToLoad.extractBackground attributes).keys, IsName name := by
  unfold ClickToLoad.extractBackground
  split
  · split
    · have hmoved : ∀ value, ∀ name ∈ (attributes.put ClickToLoad.backgroundName value).keys,
          IsName name := fun value => isName_put h isName_backgroundName
      simp only
      split
      · exact isName_erase (hmoved _) _
      · exact isName_put (hmoved _) (isName_attributeNames _ (by simp [attributeNames]))
    · exact h
  · exact h

theorem isName_of_mem_attributesOf (frame : Text) :
    ∀ name ∈ (attributesOf frame).keys, IsName name := by
  have hapart := isName_extractBackground (isName_promoteSource (isName_of_mem_ofElement frame))
  unfold attributesOf
  simp only
  split
  · exact isName_erase hapart _
  · exact hapart

end Placeholder

end LazyEmbed
