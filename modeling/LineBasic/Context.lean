/-!
# What one line passes on to the next

Checking goes from line to line with the number of the current line and the
number of loops that are open. Neither is bounded: a caller may start with any
two numbers.
-/

namespace LineBasic

/-- The number of the current line and of the open loops. -/
structure Context where
  line : Int
  openLoops : Int
  deriving DecidableEq, Repr

namespace Context

/-- Before the first line no loop is open. -/
def start : Context := ⟨0, 0⟩

/-- The context on the next line. -/
def nextLine (ctx : Context) : Context := { ctx with line := ctx.line + 1 }

/-- The context with one more open loop. -/
def openLoop (ctx : Context) : Context := { ctx with openLoops := ctx.openLoops + 1 }

/-- The context with one open loop fewer. -/
def closeLoop (ctx : Context) : Context := { ctx with openLoops := ctx.openLoops - 1 }

/-- The context as shown to people. -/
def display (ctx : Context) : String :=
  s!"ParseContext(line={ctx.line}, while_depth={ctx.openLoops})"

end Context

end LineBasic
