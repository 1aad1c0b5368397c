import LazyEmbed.Proofs.Files.Tree
import LazyEmbed.Proofs.Text.Decoding

/-!
# Texts in files

A file can be read just if its octets are those of a text, and what is read is that text with line
feeds for its line ends. A text without carriage returns is read as it was written.
-/

namespace LazyEmbed.Files.Tree

variable {tree : Tree} {path : Path} {place other : Place} {content : Octets} {changed time : Int}
    {text page : Text}

theorem read_of_file (hpath : tree.placeOf path = .ok place)
    (hat : tree.at? place = some (.file content changed)) : tree.read path = .ok content := by
  unfold read
  rw [entry_eq_of_placeOf hpath, hat]
  rfl

theorem readText_eq_ok_iff :
    tree.readText path = .ok page ↔ ∃ text, tree.read path = .ok (Utf8.encode text) ∧
      page = joinLineEnds text := by
  unfold readText
  simp only [bind_eq_ok_iff, mapError_eq_ok_iff, Utf8.decode_eq_ok_iff]
  constructor
  · rintro ⟨content, hread, text, rfl, hpage⟩
    exact ⟨text, hread, (Except.ok.inj hpage).symm⟩
  · rintro ⟨text, hread, rfl⟩
    exact ⟨_, hread, text, rfl, rfl⟩

theorem readText_of_file (hpath : tree.placeOf path = .ok place)
    (hat : tree.at? place = some (.file (Utf8.encode text) changed)) :
    tree.readText path = .ok (joinLineEnds text) :=
  readText_eq_ok_iff.2 ⟨text, read_of_file hpath hat, rfl⟩

/-- What cannot be read in a file is its content. -/
theorem readText_of_malformed (hpath : tree.placeOf path = .ok place)
    (hat : tree.at? place = some (.file content changed)) (h : ∀ text, content ≠ Utf8.encode text) :
    ∃ found, tree.readText path = .error (.malformed found) := by
  obtain ⟨found, hfound⟩ := Utf8.exists_malformed h
  refine ⟨found, ?_⟩
  rw [readText, read_of_file hpath hat]
  simp only [Except.mapError, bind, Except.bind, hfound]

/-! ## A file that is written again -/

def withFile (tree : Tree) (place : Place) (content : Octets) (time : Int) : Tree :=
  { tree with entries := tree.entries.put place (.file content time) }

theorem writeText_of_file (hpath : tree.placeOf path = .ok place)
    (hat : tree.at? place = some (.file content changed)) (text : Text) (time : Int) :
    tree.writeText path text time = .ok (tree.withFile place (Utf8.encode text) time) := by
  rw [writeText, write_file hpath hat]
  rfl

theorem at?_withFile_of_ne (h : other ≠ place) :
    (tree.withFile place content time).at? other = tree.at? other :=
  at?_put_of_ne h

theorem at?_withFile_self (h : place ≠ []) :
    (tree.withFile place content time).at? place = some (.file content time) := by
  rw [at?, if_neg h, withFile, Keyed.get?_put_self]

theorem ne_nil_of_file (hat : tree.at? place = some (.file content changed)) : place ≠ [] := by
  rintro rfl
  cases hat

/-- The path leads to the file as before. -/
theorem placeOf_withFile (hpath : tree.placeOf path = .ok place)
    (hat : tree.at? place = some (.file content changed)) (new : Octets) (time : Int) :
    (tree.withFile place new time).placeOf path = .ok place := by
  refine (differsAt_put fun hdirectory => ?_).placeOf hpath
  obtain ⟨_, hother⟩ := hdirectory
  rw [hat] at hother
  cases hother

end LazyEmbed.Files.Tree
