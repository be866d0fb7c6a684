import LineBasic.CommandLine.Run

/-!
# The program

Reads what the command line asks for, runs it, and prints the report.
-/

namespace LineBasic

/-- The number of a system error, which comes as it is or negated. -/
def errorNumber (code : UInt32) : Nat :=
  min code.toNat (0 - code).toNat

/-- The cause with a number and words. -/
def causeOfNumber (number : Nat) (words : String) : SystemCause :=
  ([.notFound, .notDirectory, .isDirectory, .nameTooLong].find? fun cause : SystemCause =>
    cause.code = number).getD (.other number words)

/-- The cause that a system error stands for. -/
def causeOf : IO.Error → SystemCause
  | .noFileOrDirectory _ code words | .inappropriateType _ code words
  | .invalidArgument _ code words | .permissionDenied _ code words | .hardwareFault code words =>
    causeOfNumber (errorNumber code) words
  | e => .other 5 (toString e)

/-- Everything that is still to be read, or why the system breaks off. -/
def readToEnd (read : IO ByteArray) : IO Contents := do
  try
    return .ok (← read).toList
  catch e =>
    return .error (causeOf e)

/-- What is in the file at a path, or why it is not opened. -/
def readFileAt (path : String) : IO (Except SystemCause Contents) := do
  try
    let handle ← IO.FS.Handle.mk path .read
    match ← readToEnd handle.readBinToEnd with
    -- a directory could be opened, but there is nothing in it to be read
    | .error .isDirectory => return .error .isDirectory
    | contents => return .ok contents
  catch e =>
    return .error (causeOf e)

/-- Everything on standard input. -/
def readInput : IO Contents := do
  readToEnd (← IO.getStdin).readBinToEnd

/-- Gather what a run reads: one file at most, and standard input only if it is
needed. -/
def gather (arguments : List String) : IO Environment := do
  let settings := (Settings.ofArguments arguments).toOption
  let contents ← (settings.bind Settings.wantedFile?).mapM readFileAt
  let input ← if settings.any Settings.wantsInput then readInput else pure (.ok [])
  return ⟨fun _ => contents.getD (.error .notFound), input⟩

/-- Print a report. -/
def print (report : Report) : IO UInt32 := do
  (← IO.getStderr).putStr report.stderr
  (← IO.getStdout).putStr report.stdout
  return report.status.toUInt32

end LineBasic

open LineBasic in
/-- Run the command line. -/
def main (arguments : List String) : IO UInt32 := do
  match runCommand (← gather arguments) arguments with
  | .ok report => print report
  | .error e =>
    (← IO.getStderr).putStrLn e.message
    return 1
