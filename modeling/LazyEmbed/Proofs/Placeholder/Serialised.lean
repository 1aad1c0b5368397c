import LazyEmbed.Page.Frame
import LazyEmbed.Proofs.Placeholder.Reading

/-!
# Attributes that are written are read

A search for attributes does not take the quote behind a value, and so it goes on right there. What
it has found ends before a quote, and from a quote no attribute begins; so it is in step again at
the blank before the next one, whatever the value looked like. A name without a value is passed over
up to the blank or the bracket behind it.
-/

namespace LazyEmbed.Attributes

open Page.Frame (elementText)

variable {rest : Text}

/-- An attribute of a start tag: a name with a value between double quotes, or a name alone. -/
inductive Item where
  | pair (name value : Text) (hname : IsName name) (hvalue : '"' ∉ value)
  | bare (name : Text) (hname : IsName name)

namespace Item

def text : Item → Text
  | pair name value _ _ => ' ' :: written name value
  | bare name _ => ' ' :: name

def pair? : Item → Option (Text × Text)
  | pair name value _ _ => some (name, value)
  | bare _ _ => none

end Item

theorem exists_cons_items (items : List Item) (rest : Text) :
    ∃ d behind, items.flatMap Item.text ++ '>' :: rest = d :: behind ∧
      isNameChar d = false ∧ d ≠ '=' := by
  cases items with
  | nil => exact ⟨'>', rest, rfl, by decide, by decide⟩
  | cons item items => cases item <;> exact ⟨' ', _, rfl, by decide, by decide⟩

theorem hits_word {name : Text} (hname : ∀ c ∈ name, isNameChar c = true)
    (h : ∃ d behind, rest = d :: behind ∧ isNameChar d = false ∧ d ≠ '=') :
    pattern.hits (name ++ rest) = pattern.hits rest := by
  obtain ⟨d, behind, rfl, hd, hequals⟩ := h
  exact Pattern.hits_append (passes_word hname hd hequals behind).left

/-- One attribute is read, whatever is written behind it. -/
theorem hits_item (item : Item)
    (h : ∃ d behind, rest = d :: behind ∧ isNameChar d = false ∧ d ≠ '=') :
    pattern.hits (item.text ++ rest) = item.pair?.toList ++ pattern.hits rest := by
  cases item with
  | pair name value hname hvalue => exact hits_written hname hvalue rest
  | bare name hname =>
    have hblank : pattern.Passes [' '] (name ++ rest) := passes_char (by decide) (by decide) _
    calc pattern.hits (' ' :: (name ++ rest)) = pattern.hits (name ++ rest) :=
      Pattern.hits_append hblank
      _ = pattern.hits rest := hits_word hname.2 h

theorem hits_items (items : List Item) (rest : Text) :
    pattern.hits (items.flatMap Item.text ++ '>' :: rest) = items.filterMap Item.pair? ++
      pattern.hits ('>' :: rest) := by
  induction items with
  | nil => rfl
  | cons item items ih =>
    rw [List.flatMap_cons, List.append_assoc, hits_item item (exists_cons_items items rest), ih,
      List.filterMap_cons]
    cases item <;> rfl

/-- The attributes of a serialised element are the pairs among its items, in order. -/
theorem hits_elementText (items : List Item) :
    pattern.hits (elementText (items.flatMap Item.text)) = items.filterMap Item.pair? := by
  have hopening : ("<iframe" : Text) = ['<'] ++ "iframe" := by decide
  have hclosing : ("></iframe>" : Text) = '>' :: "</iframe>" := by decide
  have hname : ∀ c ∈ ("iframe" : Text), isNameChar c = true := by decide
  have hnone : pattern.hits ('>' :: "</iframe>") = [] := hits_of_not_mem (by decide)
  have hbracket :
      pattern.Passes ['<'] ("iframe" ++ (items.flatMap Item.text ++ '>' :: "</iframe>")) :=
    passes_char (by decide) (by decide) _
  unfold elementText
  rw [List.append_assoc, hopening, hclosing, List.append_assoc, Pattern.hits_append hbracket,
    hits_word hname (exists_cons_items items _), hits_items, hnone, List.append_nil]

/-- The attributes of a frame are the pairs that are written in it: their names in the order in
which they first come, each with the value that comes last. -/
theorem ofElement_elementText (items : List Item) :
    (ofElement (elementText (items.flatMap Item.text))).keys =
        ((items.filterMap Item.pair?).map Prod.fst).eraseDups ∧
      ∀ name, (ofElement (elementText (items.flatMap Item.text))).get? name =
        ((items.filterMap Item.pair?).filter fun pair => pair.1 = name).getLast?.map Prod.snd := by
  rw [ofElement, hits_elementText]
  exact ⟨Keyed.keys_ofPairs _, Keyed.get?_ofPairs _⟩

end LazyEmbed.Attributes
