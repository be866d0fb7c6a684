import LineBasic.Text.Blank
import LineBasic.Token.Basic
import LineBasic.Token.Piece

/-!
# Reading a text step by step

A stream is a text, the number of characters already read, and the position that
belongs to it. Neither the number nor the position has to fit the text: a stream
may start anywhere, even past the end, where nothing is left to read.
-/

namespace LineBasic

/-- A text that is being read. -/
structure CharStream where
  source : List Char
  offset : Nat
  position : Position
  deriving DecidableEq

/-- The refusal to read past the end of a text. -/
structure PastEnd where
  offset : Nat
  line : Int
  deriving DecidableEq, Repr

/-- The refusal in words. -/
def PastEnd.message (e : PastEnd) : String :=
  s!"CharacterStreamError: Attempted to read past end of source at position=<{e.offset}>, line=<{e.line}>"

namespace CharStream

/-- The characters not yet read. -/
def rest (s : CharStream) : List Char :=
  s.source.drop s.offset

/-- The stream after reading the next `count` characters, all of which have to
be there. -/
def skip (s : CharStream) (count : Nat) : CharStream :=
  { s with offset := s.offset + count, position := s.position.advance (s.rest.take count) }

@[simp] theorem rest_skip (s : CharStream) (count : Nat) :
    (s.skip count).rest = s.rest.drop count := by
  simp [rest, skip, List.drop_drop]

/-- Reading in two goes is reading at once. -/
theorem skip_skip (s : CharStream) (first second : Nat) :
    (s.skip first).skip second = s.skip (first + second) := by
  have position : (s.position.advance (s.rest.take first)).advance
      ((s.rest.drop first).take second) = s.position.advance (s.rest.take (first + second)) := by
    rw [← Position.advance_append, List.take_add]
  have rest : (s.skip first).rest = s.rest.drop first := s.rest_skip first
  simp only [skip, CharStream.mk.injEq, true_and]
  exact ⟨Nat.add_assoc .., by rw [← position, ← rest]; rfl⟩

/-- Read one character. -/
def next (s : CharStream) : Except PastEnd (Char × CharStream) :=
  match s.rest with
  | [] => .error ⟨s.offset, s.position.line⟩
  | c :: _ => .ok (c, s.skip 1)

/-- The character that stands `distance` after the next one, or before it if the
distance is negative, without reading it. -/
def peek (s : CharStream) (distance : Int) : Option Char :=
  let index := (s.offset : Int) + distance
  if index < 0 then none else s.source[index.toNat]?

/-- Whether everything has been read. -/
def atEnd (s : CharStream) : Bool :=
  s.rest.isEmpty

/-- The stream after the blanks that come next. -/
def skipBlanks (s : CharStream) : CharStream :=
  s.skip (s.rest.takeWhile Text.isBlank).length

/-- Read a symbol, if one comes next. -/
def symbol? (s : CharStream) : Option (Token × CharStream) :=
  (Piece.symbol? s.rest).map fun piece =>
    (⟨piece.tag, String.ofList piece.lexeme, s.position⟩, s.skip piece.lexeme.length)

/-- Read a token after skipping blanks. At the end the token is that of the end
of the line, again and again. -/
def token (s : CharStream) : Token × CharStream :=
  let s := s.skipBlanks
  match s.rest with
  | [] => (⟨.endOfLine, "", s.position⟩, s)
  | c :: cs =>
    let piece := Piece.cut c cs
    (⟨piece.tag, String.ofList piece.lexeme, s.position⟩, s.skip piece.lexeme.length)

end CharStream

end LineBasic
