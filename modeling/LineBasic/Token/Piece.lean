import LineBasic.Token.Vocabulary

/-!
# Cutting one token off a text

A text that begins with no blank is cut after its first word, digit run or
symbol, whichever begins there; a character that begins none of them is a piece
of its own. The cut is always as late as it can be.

## Main results

* `Piece.lexeme_append_rest`: cutting loses nothing.
* `Piece.length_rest_lt`: every cut takes at least one character away.
-/

namespace LineBasic

/-- The first token of a text: its tag, its characters, and what is left. -/
structure Piece where
  tag : Tag
  lexeme : List Char
  rest : List Char
  deriving DecidableEq

namespace Piece

/-- The longest symbol at the beginning of a text, if there is one. -/
def symbol? : List Char → Option Piece
  | [] => none
  | [c] => (Vocabulary.symbolTag? [c]).map fun tag => ⟨tag, [c], []⟩
  | c :: d :: cs =>
    -- two characters come before one, so that no symbol is cut short
    match Vocabulary.symbolTag? [c, d] with
    | some tag => some ⟨tag, [c, d], cs⟩
    | none => (Vocabulary.symbolTag? [c]).map fun tag => ⟨tag, [c], d :: cs⟩

/-- The word a letter begins: all letters and digits up to the first other
character. -/
def word (c : Char) (cs : List Char) : Piece :=
  let lexeme := c :: cs.takeWhile Char.isAlphanum
  ⟨Vocabulary.wordTag lexeme, lexeme, cs.dropWhile Char.isAlphanum⟩

/-- The number a digit begins: all digits up to the first other character. A
sign is never part of it. -/
def digits (c : Char) (cs : List Char) : Piece :=
  ⟨.number, c :: cs.takeWhile Char.isDigit, cs.dropWhile Char.isDigit⟩

/-- The first token of the text `c :: cs`, where `c` is not blank. -/
def cut (c : Char) (cs : List Char) : Piece :=
  if c.isAlpha then word c cs
  else if c.isDigit then digits c cs
  else (symbol? (c :: cs)).getD ⟨.unknown, [c], cs⟩

theorem lexeme_append_rest_of_symbol? {cs : List Char} {p : Piece} (h : symbol? cs = some p) :
    p.lexeme ++ p.rest = cs ∧ p.lexeme ≠ [] := by
  unfold symbol? at h
  split at h
  · simp at h
  · obtain ⟨tag, -, rfl⟩ := Option.map_eq_some_iff.mp h
    exact ⟨rfl, by simp⟩
  · split at h
    · obtain rfl := Option.some.inj h
      exact ⟨rfl, by simp⟩
    · obtain ⟨tag, -, rfl⟩ := Option.map_eq_some_iff.mp h
      exact ⟨rfl, by simp⟩

/-- Cutting loses nothing, and no piece is empty. -/
theorem lexeme_append_rest (c : Char) (cs : List Char) :
    (cut c cs).lexeme ++ (cut c cs).rest = c :: cs ∧ (cut c cs).lexeme ≠ [] := by
  unfold cut
  split
  · simp [word, List.takeWhile_append_dropWhile]
  · split
    · simp [digits, List.takeWhile_append_dropWhile]
    · cases h : symbol? (c :: cs) with
      | none => simp
      | some p => exact lexeme_append_rest_of_symbol? h

/-- What is left after a cut is shorter than the text. -/
theorem length_rest_lt (c : Char) (cs : List Char) : (cut c cs).rest.length < (c :: cs).length := by
  obtain ⟨whole, nonempty⟩ := lexeme_append_rest c cs
  rw [← whole, List.length_append]
  have := List.length_pos_iff.mpr nonempty
  omega

end Piece

end LineBasic
