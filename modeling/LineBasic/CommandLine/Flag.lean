/-!
# Flags

The five flags of the command line. None of them takes a value.
-/

namespace LineBasic

/-- A flag of the command line. -/
inductive Flag
  /-- Show the help text. -/
  | help
  /-- Take the source as a literal program. -/
  | literal
  /-- Reject a program that leaves a loop open. -/
  | strict
  /-- Print the lines that are examined. -/
  | verbose
  /-- Print the report on the grammar. -/
  | grammar
  deriving DecidableEq, Repr

namespace Flag

/-- All spellings of all flags, in the order in which they are listed. -/
def spellings : List (String × Flag) :=
  [("-h", help), ("--help", help), ("-s", literal), ("--string", literal), ("--strict", strict),
    ("--verbose", verbose), ("--grammar", grammar)]

/-- The flag with a given spelling. -/
def ofSpelling? (spelling : String) : Option Flag :=
  spellings.lookup spelling

/-- The flag of one letter. -/
def ofLetter? (c : Char) : Option Flag :=
  ofSpelling? (String.ofList ['-', c])

/-- The spellings of a flag, separated by slashes. -/
def names (flag : Flag) : String :=
  "/".intercalate ((spellings.filter fun entry => entry.2 = flag).map Prod.fst)

end Flag

end LineBasic
