import LineBasic.CommandLine.Settings
import LineBasic.Grammar.OfLines
import LineBasic.Grammar.Report
import LineBasic.Report

/-!
# Running the command line

A run prints the help text, a usage error, the report on the grammar, or the
report of a check. The report on the grammar comes before any program is read.
-/

namespace LineBasic

/-- The first line of the help text and of every usage error. -/
def usageLine : String :=
  "usage: lbasic [-h] [-s] [--strict] [--verbose] [--grammar] [source]\n"

/-- The help text. -/
def helpText : String :=
  usageLine ++ "\n" ++
    "positional arguments:\n" ++
    "  source        Filename or literal program (with -s)\n" ++
    "\n" ++
    "options:\n" ++
    "  -h, --help    show this help message and exit\n" ++
    "  -s, --string  Interpret source as literal program\n" ++
    "  --strict      Reject a while block left open at the $$ line\n" ++
    "  --verbose     Trace each examined line to stderr\n" ++
    "  --grammar     Print FIRST/FOLLOW/PREDICT sets and exit\n"

namespace Report

/-- The report when arguments settle nothing. -/
def ofInterruption : Interruption → Report
  | .help => ⟨0, helpText, ""⟩
  | .usage e => ⟨2, "", usageLine ++ s!"lbasic: error: {e.message}\n"⟩

/-- The report on the grammar of a line. -/
def ofGrammar : Report :=
  ⟨0, Grammar.ofLines.report Grammar.lineSymbol ++ "\n", ""⟩

end Report

namespace Settings

/-- How the settings ask for a program to be checked. -/
def options (s : Settings) : CheckOptions := ⟨s.strict, s.verbose⟩

/-- Do what the settings ask for. A literal program needs a source; without one,
standard input is read as it is. -/
def execute (s : Settings) (env : Environment) : Except ReadError Report :=
  if s.grammar then .ok .ofGrammar
  else
    match s.source with
    | none => .ok (checkInput s.options env)
    | some source => checkSource s.options env s.isLiteral source

/-- The path of the file that will be read, if one will. -/
def wantedFile? (s : Settings) : Option String :=
  if s.grammar || s.isLiteral then none else s.source

/-- Whether standard input will be read. -/
def wantsInput (s : Settings) : Bool :=
  !s.grammar && s.source.isNone

end Settings

/-- Run the command line with its arguments. -/
def runCommand (env : Environment) (arguments : List String) : Except ReadError Report :=
  match Settings.ofArguments arguments with
  | .ok settings => settings.execute env
  | .error interruption => .ok (.ofInterruption interruption)

/-- Whether characters stand together somewhere in a text. -/
def occursIn (part : List Char) : List Char → Bool
  | [] => part.isEmpty
  | c :: cs => part.isPrefixOf (c :: cs) || occursIn part cs

/-- Whether an argument names the test runner under which a script stays
silent. -/
def namesTestRunner (argument : String) : Bool :=
  occursIn "pytest".toList argument.toList

/-- Run the command line as a script, which does nothing at all under the test
runner. -/
def runScript (env : Environment) (arguments : List String) : Except ReadError (Option Report) :=
  if arguments.any namesTestRunner then .ok none else (runCommand env arguments).map some

end LineBasic
