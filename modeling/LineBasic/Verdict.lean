import LineBasic.Fault

/-!
# Verdicts

A program is accepted, or it is rejected because of its first fault.
-/

namespace LineBasic

/-- The outcome of checking a program. -/
inductive Verdict
  /-- The program is valid. -/
  | accepted
  /-- The first fault and the line that it is found on. -/
  | rejected (line : Int) (fault : Fault)
  deriving DecidableEq

namespace Verdict

/-- The verdict in one line. -/
def text : Verdict → String
  | accepted => "Accept"
  | rejected line fault => s!"Syntax error on line {line}: {fault.message}"

/-- Whether the program is valid. -/
def isAccepted : Verdict → Bool
  | accepted => true
  | rejected _ _ => false

end Verdict

end LineBasic
