import LazyEmbed.Text.Reader

/-!
Searching a text for a shape. A pattern is a reader that consumes, and a search cuts the text,
from left to right, into the characters that no hit covers and the hits. Everything that is done
with a pattern (replacing, counting, collecting, finding the first) is a function of those
pieces, so a law about searching is proved once, on `pieces`.
-/

namespace LazyEmbed

/-- A shape to look for: a reader whose every success takes something. -/
structure Pattern (α : Type) where
  reader : Reader α
  consumes : reader.Consumes

/-- What a search makes of a stretch of text. -/
inductive Piece (α : Type) where
  /-- A character that belongs to no hit. -/
  | plain (c : Char)
  /-- A hit, by the value read there. -/
  | hit (value : α)

namespace Piece

variable {α : Type}

def value? : Piece α → Option α
  | plain _ => none
  | hit value => some value

/-- The text that stands for a piece, once hits are written by `write`. -/
def text (write : α → Text) : Piece α → Text
  | plain c => [c]
  | hit value => write value

end Piece

namespace Pattern

variable {α ε : Type}

/-- Cuts the text into pieces, behind those already found, which are held last first. -/
def piecesFrom (pattern : Pattern α) (found : List (Piece α)) (text : Text) : List (Piece α) :=
  match text with
  | [] => found.reverse
  | c :: text =>
    match _h : pattern.reader.run (c :: text) with
    | some (value, rest) => pattern.piecesFrom (.hit value :: found) rest
    | none => pattern.piecesFrom (.plain c :: found) text
termination_by text.length
decreasing_by
  · exact pattern.consumes _h
  · simp

def pieces (pattern : Pattern α) (text : Text) : List (Piece α) := pattern.piecesFrom [] text

theorem piecesFrom_eq (pattern : Pattern α) (found : List (Piece α)) (text : Text) :
    pattern.piecesFrom found text = found.reverse ++ pattern.pieces text := by
  suffices h : ∀ n, ∀ text : Text, text.length ≤ n → ∀ found,
      pattern.piecesFrom found text = found.reverse ++ pattern.piecesFrom [] text from
    h text.length text (Nat.le_refl _) found
  intro n
  induction n with
  | zero =>
    intro text hn found
    have := List.length_eq_zero_iff.1 (Nat.le_zero.1 hn)
    subst this
    simp [piecesFrom]
  | succ n ih =>
    intro text hn found
    cases text with
    | nil => simp [piecesFrom]
    | cons c text =>
      rw [piecesFrom]
      conv => rhs; rw [piecesFrom]
      simp only [List.length_cons, Nat.add_le_add_iff_right] at hn
      split
      · next value rest hrun =>
        have hlt := pattern.consumes hrun
        simp only [List.length_cons] at hlt
        rw [ih rest (by omega), ih rest (by omega) [_]]
        simp
      · rw [ih text hn, ih text hn [_]]
        simp

@[simp]
theorem pieces_nil (pattern : Pattern α) : pattern.pieces [] = [] := by
  simp [pieces, piecesFrom]

theorem pieces_of_run_eq_some {pattern : Pattern α} {text rest : Text} {value : α}
    (h : pattern.reader.run text = some (value, rest)) :
    pattern.pieces text = .hit value :: pattern.pieces rest := by
  cases text with
  | nil => exact absurd (pattern.consumes h) (by simp)
  | cons c text =>
    rw [pieces, piecesFrom]
    split
    · next v r hrun =>
      obtain ⟨rfl, rfl⟩ := Prod.mk.inj (Option.some.inj (hrun.symm.trans h))
      simp [piecesFrom_eq]
    · next hrun => simp [hrun] at h

theorem pieces_cons_of_run_eq_none {pattern : Pattern α} {c : Char} {text : Text}
    (h : pattern.reader.run (c :: text) = none) :
    pattern.pieces (c :: text) = .plain c :: pattern.pieces text := by
  rw [pieces, piecesFrom]
  split
  · next hrun => simp [hrun] at h
  · simp [piecesFrom_eq]

def hits (pattern : Pattern α) (text : Text) : List α :=
  (pattern.pieces text).filterMap Piece.value?

def replace (pattern : Pattern α) (write : α → Text) (text : Text) : Text :=
  (pattern.pieces text).flatMap (Piece.text write)

/-- Writes every hit anew, from left to right; the first hit that cannot be written decides. -/
def replaceM (pattern : Pattern α) (write : α → Except ε Text) (text : Text) : Except ε Text := do
  let written ← (pattern.pieces text).mapM fun
    | .plain c => pure [c]
    | .hit value => write value
  pure written.flatten

def remove (pattern : Pattern α) (text : Text) : Text := pattern.replace (fun _ => []) text

def splitFirst? (pattern : Pattern α) : Text → Option (Text × α × Text)
  | [] => none
  | c :: text =>
    match pattern.reader.run (c :: text) with
    | some (value, rest) => some ([], value, rest)
    | none =>
      (pattern.splitFirst? text).map fun (before, value, rest) => (c :: before, value, rest)

@[simp]
theorem replace_nil (pattern : Pattern α) (write : α → Text) : pattern.replace write [] = [] := by
  simp [replace]

theorem replace_of_run_eq_some {pattern : Pattern α} {write : α → Text} {text rest : Text}
    {value : α} (h : pattern.reader.run text = some (value, rest)) :
    pattern.replace write text = write value ++ pattern.replace write rest := by
  simp [replace, pieces_of_run_eq_some h, Piece.text]

theorem replace_cons_of_run_eq_none {pattern : Pattern α} {write : α → Text} {c : Char}
    {text : Text} (h : pattern.reader.run (c :: text) = none) :
    pattern.replace write (c :: text) = c :: pattern.replace write text := by
  simp [replace, pieces_cons_of_run_eq_none h, Piece.text]

theorem splitFirst?_eq_some {pattern : Pattern α} {text before rest : Text} {value : α}
    (h : pattern.splitFirst? text = some (before, value, rest)) :
    ∃ tail, text = before ++ tail ∧ pattern.reader.run tail = some (value, rest) := by
  induction text generalizing before with
  | nil => simp [splitFirst?] at h
  | cons c text ih =>
    simp only [splitFirst?] at h
    split at h
    · next hrun =>
      obtain ⟨rfl, rfl, rfl⟩ : [] = before ∧ _ = value ∧ _ = rest := by simpa using h
      exact ⟨c :: text, rfl, hrun⟩
    · obtain ⟨⟨b, v, r⟩, hfound, heq⟩ := Option.map_eq_some_iff.1 h
      simp only [Prod.mk.injEq] at heq
      obtain ⟨rfl, rfl, rfl⟩ := heq
      obtain ⟨tail, rfl, hrun⟩ := ih hfound
      exact ⟨tail, rfl, hrun⟩

/-- The pattern that a reader with a fixed, non-empty beginning makes. -/
def after (start : Text) (next : Reader α) (h : start ≠ [] := by decide) : Pattern α where
  reader := do Reader.literal start; next
  consumes := (Reader.consumes_literal h).bind _

def fixed (text : Text) (h : text ≠ [] := by decide) : Pattern Unit := after text (pure ()) h

end Pattern

end LazyEmbed
