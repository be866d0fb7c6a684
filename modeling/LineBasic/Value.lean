import LineBasic.Context
import LineBasic.Token.Basic
import LineBasic.Verdict

/-!
# Results as values

The results of a check can be shown to people, written in a form that names their
parts, taken as true or false, and compared. Next to them stand plain sequences
of numbers and plain texts; a context is equal to the sequence of its two
numbers.
-/

namespace LineBasic

/-- A result of a check, or a plain value to compare it with. -/
inductive Value
  | verdict (verdict : Verdict)
  | fault (fault : Fault)
  | token (token : Token)
  | context (ctx : Context)
  | numbers (numbers : List Int)
  | text (text : String)
  deriving DecidableEq

namespace Value

/-- The value written so that its kind and its parts can be told. -/
def literal : Value → String
  | verdict .accepted => "Accept()"
  | verdict (.rejected line cause) =>
    s!"SyntaxErrorResult(line={line}, message={Text.quote cause.message})"
  | fault f => s!"Failure({Text.quote f.message})"
  | token t => t.display
  | context ctx => ctx.display
  | numbers ns => displayTuple (ns.map toString)
  | text s => Text.quote s

/-- The value as shown to people: a verdict in its one line, a text as it is, and
anything else as it is written. -/
def display : Value → String
  | verdict v => v.text
  | text s => s
  | value => value.literal

/-- Whether the value counts as true. Only a rejection and what is empty do
not. -/
def isTrue : Value → Bool
  | verdict v => v.isAccepted
  | numbers ns => !ns.isEmpty
  | text s => !s.isEmpty
  | fault _ | token _ | context _ => true

/-- The value for which a value stands in a comparison. -/
def compared : Value → Value
  | context ctx => numbers [ctx.line, ctx.openLoops]
  | value => value

/-- Whether two values are equal. -/
def same (a b : Value) : Bool :=
  a.compared = b.compared

/-- How many different values there are in a list. -/
def countDistinct (values : List Value) : Nat :=
  (values.map compared).eraseDups.length

end Value

end LineBasic
