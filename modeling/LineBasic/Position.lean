/-!
# Positions in a text

A position is a line and a column. Both may start anywhere, so they are
integers; reading a line feed moves to column one of the next line, and reading
any other character moves one column on.
-/

namespace LineBasic

/-- A line number and a column number. -/
structure Position where
  line : Int
  column : Int
  deriving DecidableEq, Repr

namespace Position

/-- The position after one character. -/
def next (p : Position) (c : Char) : Position :=
  if c = '\n' then ⟨p.line + 1, 1⟩ else ⟨p.line, p.column + 1⟩

/-- The position after a run of characters. -/
def advance (p : Position) (cs : List Char) : Position :=
  cs.foldl next p

/-- The beginning of a line. -/
def startOf (line : Int) : Position := ⟨line, 1⟩

@[simp] theorem advance_nil (p : Position) : p.advance [] = p := rfl

@[simp] theorem advance_cons (p : Position) (c : Char) (cs : List Char) :
    p.advance (c :: cs) = (p.next c).advance cs := rfl

theorem advance_append (p : Position) (cs ds : List Char) :
    p.advance (cs ++ ds) = (p.advance cs).advance ds :=
  List.foldl_append

/-- Within a line only the column moves, one step for each character. -/
theorem advance_of_not_mem_newline {cs : List Char} (h : '\n' ∉ cs) (p : Position) :
    p.advance cs = ⟨p.line, p.column + cs.length⟩ := by
  induction cs generalizing p with
  | nil => simp
  | cons c cs ih =>
    rw [List.mem_cons, not_or] at h
    rw [advance_cons, ih h.2, next, if_neg (Ne.symm h.1)]
    simp only [List.length_cons, Int.natCast_add, Position.mk.injEq, true_and]
    omega

end Position

end LineBasic
