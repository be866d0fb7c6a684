import LineBasic.Text.Quoted
import LineBasic.Text.Utf8

/-!
# Unreadable input

Why a program cannot be read: the system does not open the file, or it breaks off while it
hands over what the file or standard input holds, or the bytes are not a text. All of this is
reported to the user. A path that holds a null character is different: it is refused before
any file is looked for, and the refusal is handed back to the caller instead of being reported.
-/

namespace LineBasic

/-- Why the system does not open a file, or does not hand over what is open. -/
inductive SystemCause
  | notFound
  | notDirectory
  | isDirectory
  | nameTooLong
  /-- Another reason, with the number and the words that the system gives it. -/
  | other (code : Nat) (words : String)
  deriving DecidableEq, Repr

namespace SystemCause

/-- The number of the cause. -/
def code : SystemCause → Nat
  | notFound => 2
  | notDirectory => 20
  | isDirectory => 21
  | nameTooLong => 36
  | other code _ => code

/-- The cause in words. -/
def words : SystemCause → String
  | notFound => "No such file or directory"
  | notDirectory => "Not a directory"
  | isDirectory => "Is a directory"
  | nameTooLong => "File name too long"
  | other _ words => words

end SystemCause

/-- Why a program cannot be read. -/
inductive ReadError
  /-- The path holds a null character. -/
  | invalidPath
  /-- The system does not open the file at a path. Without a path, it has opened the input and
  breaks off while handing it over. -/
  | unopened (cause : SystemCause) (path : Option String)
  /-- The bytes are not a text. -/
  | undecodable (error : Text.DecodeError)
  deriving DecidableEq, Repr

namespace ReadError

/-- The error in words. The path of a file is named only where it is not opened. -/
def message : ReadError → String
  | invalidPath => "embedded null byte"
  | unopened cause none => s!"[Errno {cause.code}] {cause.words}"
  | unopened cause (some path) => s!"[Errno {cause.code}] {cause.words}: {Text.quote path}"
  | undecodable error => error.message

end ReadError

end LineBasic
