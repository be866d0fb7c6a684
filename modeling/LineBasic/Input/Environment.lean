import LineBasic.Input.ReadError
import LineBasic.Text.Lines

/-!
# What a program is read from

A run of the checker finds files and standard input. The system opens a file or not, and what
is open it hands over as bytes, unless it breaks off. The lines of a program are those of the
text that the bytes encode.
-/

namespace LineBasic

/-- What comes of reading something open to its end: all of its bytes, or why the system breaks
off. -/
abbrev Contents := Except SystemCause (List UInt8)

/-- The files and the standard input that a run finds. -/
structure Environment where
  /-- What is in the file at a path, or why it is not opened. -/
  openFile : String → Except SystemCause Contents
  standardInput : Contents

/-- The lines of a stored program. -/
def decodeLines (bytes : List UInt8) : Except ReadError (List String) :=
  match Text.decode bytes with
  | .ok text => .ok (Text.storedLines text)
  | .error e => .error (.undecodable e)

/-- The lines of what is open. Nothing is decoded before all bytes are there. -/
def Contents.lines : Contents → Except ReadError (List String)
  | .ok bytes => decodeLines bytes
  | .error cause => .error (.unopened cause none)

namespace Environment

/-- The lines of the file at a path. -/
def readLines (env : Environment) (path : String) : Except ReadError (List String) :=
  if path.toList.contains '\x00' then .error .invalidPath
  else
    match env.openFile path with
    | .ok contents => contents.lines
    | .error cause => .error (.unopened cause (some path))

/-- The lines of standard input. -/
def inputLines (env : Environment) : Except ReadError (List String) :=
  env.standardInput.lines

end Environment

end LineBasic
