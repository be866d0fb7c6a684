import LineBasic.Text.Blank
import LineBasic.Token.Basic
import LineBasic.Token.Piece

/-!
# The tokens of a line

A line becomes the sequence of its pieces, blanks left out, followed by one
end-of-line token at the position where the text ends. Nothing is rejected here:
a character with no meaning becomes a token of its own.
-/

namespace LineBasic

namespace Token

/-- A piece as a token at a position. -/
def ofPiece (p : Position) (piece : Piece) : Token :=
  ⟨piece.tag, String.ofList piece.lexeme, p⟩

/-- The token that ends every line. -/
def endOfLine (p : Position) : Token := ⟨.endOfLine, "", p⟩

/-- The tokens of a text that begins at a position. -/
def sequence (p : Position) : List Char → List Token
  | [] => [endOfLine p]
  | c :: cs =>
    if Text.isBlank c then sequence (p.next c) cs
    else
      let piece := Piece.cut c cs
      ofPiece p piece :: sequence (p.advance piece.lexeme) piece.rest
termination_by cs => cs.length
decreasing_by
  · simp
  · exact Piece.length_rest_lt c cs

end Token

/-- The tokens of a text whose first character stands in column one of the
given line. -/
def tokenize (line : Int) (text : String) : List Token :=
  Token.sequence (.startOf line) text.toList

end LineBasic
