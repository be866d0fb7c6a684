import LineBasic.Proofs.Line.Alike

/-!
# Places in a line

Moving over tokens leads from one place in a line to another. In the tokens of a text only the
last one ends the line, so a move that does not pass it stays within the line.

## Main results

* `ofText_place_any`: every place in the tokens of a text is one.
* `Cursor.Passes.eq_place`: moving over tokens leads to a place of the same line.
* `Cursor.Passes.place_le`: a move that does not pass the end of the line stays before it.
-/

namespace LineBasic

variable {number : Int} {text : String} {d : Cursor} {ts : List Token}

/-- Every place in the tokens of a text is one, even behind all of them. -/
theorem ofText_place_any (number : Int) (text : String) (index : Nat) :
    ((Line.ofText number text).place index).OfText :=
  (Cursor.alike_place (SameShape.refl (tokenize number text)) index).left

/-- Moving over tokens leads to a place of the same line. -/
theorem Cursor.Passes.eq_place {line : Line} {index : Nat}
    (h : (line.place index).Passes ts d) : d = line.place (index + ts.length) := by
  refine h.unique ⟨?_, rfl, rfl⟩
  have split : line.tokens.drop index = ts ++ d.rest := h.rest
  change line.tokens.drop index = ts ++ line.tokens.drop (index + ts.length)
  rw [← List.drop_drop, split, List.drop_left]

/-- A move over tokens of which none ends the line does not pass the end of the line. -/
theorem Cursor.Passes.place_le {index : Nat}
    (h : ((Line.ofText number text).place index).Passes ts d)
    (within : index ≤ (contents number text).length) (inner : ∀ t ∈ ts, t.tag ≠ .endOfLine) :
    index + ts.length ≤ (contents number text).length := by
  by_contra beyond
  obtain ⟨p, same, -⟩ := exists_tokenize_eq number text
  have split : (contents number text).drop index ++ [Token.endOfLine p] = ts ++ d.rest := by
    rw [← List.drop_append_of_le_length within, ← same]
    exact h.rest
  -- all that is left of the line is passed, the token that ends it included
  have all : ts.length = ((contents number text).drop index ++ [Token.endOfLine p]).length := by
    have lengths := congrArg List.length split
    simp only [List.length_append, List.length_drop, List.length_singleton] at lengths ⊢
    omega
  obtain ⟨rfl, -⟩ := List.append_inj (split.symm.trans (List.append_nil _).symm) all
  exact inner (Token.endOfLine p) (by simp) rfl

end LineBasic
