import LineBasic.Token.Basic

/-!
# Labels

A line may begin with a label, which is an identifier and a colon. A colon
anywhere else is a fault, so whether a line is labelled is settled by looking at
its colons alone.
-/

namespace LineBasic

/-- How the colons of a line stand. -/
inductive Label
  /-- There is no colon. -/
  | absent
  /-- The only colon follows an identifier at the beginning. -/
  | present
  /-- There is a colon that belongs to no label. -/
  | misplaced
  deriving DecidableEq, Repr

namespace Label

/-- Whether a token is a colon. -/
def isColon (t : Token) : Bool := t.tag = .colon

/-- The label of a sequence of tokens. -/
def ofTokens (tokens : List Token) : Label :=
  if tokens.any isColon then
    match tokens with
    | name :: colon :: rest =>
      -- one more colon spoils a label that would be one without it
      if name.tag = .identifier ∧ colon.tag = .colon ∧ ¬ rest.any isColon then present
      else misplaced
    | _ => misplaced
  else absent

/-- The index of the first token of the statements, unless a colon is
misplaced. -/
def bodyStart? : Label → Option Nat
  | absent => some 0
  | present => some 2
  | misplaced => none

end Label

end LineBasic
