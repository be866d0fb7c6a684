import LineBasic.Input.Environment
import LineBasic.Program

/-!
# The report of a check

A check prints one line on standard output, the verdict, and exits with 0 or 1.
On request it also prints each examined line on standard error. A program that
cannot be read is reported on standard error alone, with exit status 2.
-/

namespace LineBasic

/-- The exit status of a run and what it prints. -/
structure Report where
  status : Nat
  stdout : String
  stderr : String
  deriving DecidableEq, Repr

/-- The note of one examined line. -/
def traceLine (entry : Int × String) : String :=
  s!"[trace] line {entry.1}: {entry.2}\n"

namespace Report

/-- The report of a run. -/
def ofRun (run : Run) : Report where
  status := if run.verdict.isAccepted then 0 else 1
  stdout := run.verdict.text ++ "\n"
  stderr := String.join (run.trace.map traceLine)

/-- The report on a program that cannot be read. -/
def unreadable (name message : String) : Report where
  status := 2
  stdout := ""
  stderr := s!"[error] >>> cannot read {name}: {message}\n"

end Report

/-- Check lines and report on them. -/
def checkLines (options : CheckOptions) (lines : List String) : Report :=
  .ofRun (run options lines)

/-- Check the literal program. -/
def checkLiteral (options : CheckOptions) (program : String) : Report :=
  checkLines options (Text.literalLines program)

/-- Check the program in a file. An invalid path is not reported but handed
back. -/
def checkFile (options : CheckOptions) (env : Environment) (path : String) :
    Except ReadError Report :=
  match env.readLines path with
  | .ok lines => .ok (checkLines options lines)
  -- there is no file to report on
  | .error .invalidPath => .error .invalidPath
  | .error e => .ok (.unreadable path e.message)

/-- Check the program on standard input. -/
def checkInput (options : CheckOptions) (env : Environment) : Report :=
  match env.inputLines with
  | .ok lines => checkLines options lines
  | .error e => .unreadable "standard input" e.message

/-- Check a program that is named by a path or given literally. -/
def checkSource (options : CheckOptions) (env : Environment) (isLiteral : Bool)
    (source : String) : Except ReadError Report :=
  if isLiteral then .ok (checkLiteral options source) else checkFile options env source

end LineBasic
