import LazyEmbed.Files.Tree

/-!
Files that hold text. The text is the decoded content with every kind of line end, which may be two
characters, as a line feed; it is written as it is.
-/

namespace LazyEmbed.Files

inductive TextFault where
  | access (fault : Fault)
  /-- The content is no text. -/
  | malformed (found : Utf8.Malformed)
  deriving Repr, DecidableEq

def TextFault.message (path : Text) : TextFault → Text
  | access fault => fault.message path
  | malformed found => found.message

/-- The text with line feeds for all its line ends. -/
def joinLineEnds : Text → Text
  | '\r' :: '\n' :: text => '\n' :: joinLineEnds text
  | '\r' :: text => '\n' :: joinLineEnds text
  | c :: text => c :: joinLineEnds text
  | [] => []

theorem joinLineEnds_of_not_mem {text : Text} (h : '\r' ∉ text) : joinLineEnds text = text := by
  induction text with
  | nil => rfl
  | cons c text ih =>
    simp only [List.mem_cons, not_or] at h
    rw [joinLineEnds, ih h.2]
    · rintro _ rfl
      exact absurd rfl h.1
    · rintro rfl
      exact absurd rfl h.1

theorem not_mem_joinLineEnds (text : Text) : '\r' ∉ joinLineEnds text := by
  fun_induction joinLineEnds text with
  | case1 text ih => simpa using ih
  | case2 text _ ih => simpa using ih
  | case3 c text _ hc ih => simpa using ⟨fun h => hc h.symm, ih⟩
  | case4 => simp

namespace Tree

def readText (tree : Tree) (path : Path) : Except TextFault Text := do
  let content ← (tree.read path).mapError .access
  let text ← (Utf8.decode content).mapError .malformed
  pure (joinLineEnds text)

def writeText (tree : Tree) (path : Path) (text : Text) (time : Int) : Except TextFault Tree :=
  (tree.write path (Utf8.encode text) time).mapError .access

end Tree

end LazyEmbed.Files
