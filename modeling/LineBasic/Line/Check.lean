import LineBasic.Cursor.Statement
import LineBasic.Label
import LineBasic.Line.Basic
import LineBasic.Verdict

/-!
# Checking a line

A line is an optional label and one or more statements. A misplaced colon is
found before anything else; otherwise the statements are read from the left and
the first fault stops the reading.
-/

namespace LineBasic

namespace Line

/-- Check a line in a context. The result is the context for the next line,
still with the number of this one. -/
def check (line : Line) (ctx : Context) : Except Fault Context :=
  match (Label.ofTokens line.tokens).bodyStart? with
  | none => .error .label
  | some start => (line.place start).statements ctx

end Line

/-- Check the text of a line in a context, which also says the line's number. -/
def checkLine (text : String) (ctx : Context) : Except Fault Context :=
  (Line.ofText ctx.line text).check ctx

/-- Check the text of a line in a context. A fault rejects the program on this
line. -/
def judgeLine (text : String) (ctx : Context) : Except Verdict Context :=
  (checkLine text ctx).mapError (.rejected ctx.line)

end LineBasic
