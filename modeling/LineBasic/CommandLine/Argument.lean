import LineBasic.CommandLine.Flag
import LineBasic.Text.DecimalDigit
import LineBasic.Text.Quoted

/-!
# Arguments

What each argument of a command line is, told by its own text alone: a flag, an
operand, or something unknown. A long flag may be shortened as long as no other
flag begins in the same way. Flags of one letter may stand together behind one
dash, and an equals sign after the first letter adds nothing unless it comes
last. Two dashes alone make operands of all arguments after them.
-/

namespace LineBasic

/-- A mistake in the use of the command line. -/
inductive UsageError
  /-- The argument begins several flags. -/
  | ambiguous (argument : String) (spellings : List String)
  /-- A flag is given a value. -/
  | unwantedValue (flag : Flag) (value : String)
  /-- There are arguments that are neither a flag nor the source. -/
  | unrecognized (arguments : List String)
  deriving DecidableEq, Repr

namespace UsageError

/-- The mistake in words. -/
def message : UsageError → String
  | ambiguous argument spellings =>
    s!"ambiguous option: {argument} could match " ++ ", ".intercalate spellings
  | unwantedValue flag value =>
    s!"argument {flag.names}: ignored explicit argument {Text.quote value}"
  | unrecognized arguments => "unrecognized arguments: " ++ " ".intercalate arguments

end UsageError

/-- What an argument is. -/
inductive Argument
  /-- The source, or one argument too many. -/
  | operand (text : String)
  /-- A flag with the value that it is given, if any. -/
  | flag (flag : Flag) (value : Option String)
  /-- A flag of one letter with what follows it, which is to be more letters. -/
  | cluster (flag : Flag) (rest : List Char)
  /-- An argument that looks like a flag and is none. -/
  | unknown (text : String)
  /-- The two dashes that end the flags. -/
  | separator
  deriving DecidableEq, Repr

namespace Argument

/-- The parts of an argument before and after its first equals sign. -/
def splitAtEquals (cs : List Char) : List Char × Option (List Char) :=
  match cs.dropWhile (· ≠ '=') with
  | [] => (cs, none)
  | _ :: value => (cs.takeWhile (· ≠ '='), some value)

/-- Whether decimal digits, at least one, come last. A line feed may follow
them. -/
def endsInDigits (cs : List Char) : Bool :=
  let digits := cs.takeWhile Text.isDecimalDigit
  let rest := cs.dropWhile Text.isDecimalDigit
  !digits.isEmpty && (rest.isEmpty || rest = ['\n'])

/-- Whether the characters after a dash make it a negative number, whole or with
a decimal point. -/
def isUnsignedNumber (cs : List Char) : Bool :=
  endsInDigits cs ||
    match cs.dropWhile Text.isDecimalDigit with
    | '.' :: fraction => endsInDigits fraction
    | _ => false

/-- What an argument is that begins with a dash and is no flag. -/
def withoutFlag (text : String) : Argument :=
  if isUnsignedNumber (text.toList.drop 1) || text.toList.contains ' ' then operand text
  else unknown text

/-- What an argument is that begins with two dashes: the one flag that it
begins. -/
def ofLong (text : String) : Except UsageError Argument :=
  let (beginning, value) := splitAtEquals text.toList
  match Flag.spellings.filter fun entry => beginning.isPrefixOf entry.1.toList with
  | [] => .ok (withoutFlag text)
  | [entry] => .ok (flag entry.2 (value.map String.ofList))
  | entries => .error (.ambiguous text (entries.map Prod.fst))

/-- What an argument is that spells a flag out and goes on with an equals sign and
a value. After a letter the value is more letters, if it is not empty. -/
def withValue (f : Flag) (second : Char) (value : List Char) : Argument :=
  if second = '-' ∨ value = [] then flag f (some (String.ofList value)) else cluster f value

/-- What an argument is that begins with one dash and a letter. -/
def ofShort (text : String) (letter : Char) (rest : List Char) : Argument :=
  match Flag.ofLetter? letter with
  | some f => cluster f rest
  | none => withoutFlag text

/-- What an argument is. -/
def ofText (text : String) : Except UsageError Argument :=
  match Flag.ofSpelling? text with
  | some f => .ok (flag f none)
  | none =>
    match text.toList with
    | '-' :: second :: rest =>
      -- a full spelling before an equals sign needs no further search
      let (name, value) := splitAtEquals text.toList
      match value, Flag.ofSpelling? (String.ofList name) with
      | some value, some f => .ok (withValue f second value)
      | _, _ => if second = '-' then ofLong text else .ok (ofShort text second rest)
    -- neither a single dash nor an empty argument can be a flag
    | _ => .ok (operand text)

/-- What the arguments are, in their order. The first of them that can mean
several flags is an error. -/
def ofTexts : List String → Except UsageError (List Argument)
  | [] => .ok []
  | text :: texts =>
    if text = "--" then .ok (separator :: texts.map operand)
    else do
      let argument ← ofText text
      let arguments ← ofTexts texts
      return argument :: arguments

end Argument

end LineBasic
