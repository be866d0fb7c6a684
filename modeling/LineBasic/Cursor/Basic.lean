import LineBasic.Token.Basic
import LineBasic.Token.Lexeme

/-!
# Places in a line

A cursor is a place in the tokens of a line. It can always be read: past the end
it keeps showing the last token, which for every line of a program is the end of
the line. The index counts on past the end, so that a cursor always tells how far
it has come.
-/

namespace LineBasic

/-- A place in a line: its index, the tokens from there on, and the last token
of the line. -/
structure Cursor where
  index : Nat
  rest : List Token
  last : Token
  deriving DecidableEq

namespace Cursor

/-- The token at the cursor. -/
def token (c : Cursor) : Token :=
  c.rest.headD c.last

/-- The tag of the token at the cursor. -/
def tag (c : Cursor) : Tag :=
  c.token.tag

/-- The next place. -/
def next (c : Cursor) : Cursor :=
  ⟨c.index + 1, c.rest.tail, c.last⟩

/-- How many tokens there are from the cursor on. -/
def left (c : Cursor) : Nat :=
  c.rest.length

/-- Whether the cursor has left all tokens behind, so that it shows the last one
only because there is no other. -/
def isPastEnd (c : Cursor) : Bool :=
  c.rest.isEmpty

/-- Whether a sign stands at the cursor and the digits that it belongs to follow
it without a gap. Two tokens count as such if they touch and their lexemes make
up a number together. -/
def atSignedNumber (c : Cursor) : Bool :=
  let sign := c.token
  let digits := c.next.token
  decide (sign.position.column + sign.lexeme.length = digits.position.column) &&
    Lexeme.isNumber (sign.lexeme.toList ++ digits.lexeme.toList)

/-- A place that is not before `c`. -/
abbrev Onward (c : Cursor) := { d : Cursor // d.left ≤ c.left }

@[simp] theorem left_next (c : Cursor) : c.next.left = c.left - 1 := by
  simp [left, next]

theorem left_next_le (c : Cursor) : c.next.left ≤ c.left := by
  rw [left_next]
  exact Nat.sub_le _ _

theorem isPastEnd_iff {c : Cursor} : c.isPastEnd = true ↔ c.left = 0 := by
  simp [isPastEnd, left]

theorem left_next_lt {c : Cursor} (h : ¬ c.isPastEnd = true) : c.next.left < c.left := by
  rw [isPastEnd_iff] at h
  rw [left_next]
  omega

end Cursor

end LineBasic
