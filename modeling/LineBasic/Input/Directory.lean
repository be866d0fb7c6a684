import LineBasic.Input.Environment

/-!
# A directory of files

A directory that holds files and no other directories, as the place where paths
begin. What lies outside of it is not known: it can be passed through, but no
name is found there.
-/

namespace LineBasic

/-- The files of a directory, by their names. -/
structure Directory where
  files : List (String × List UInt8)

namespace Directory

/-- Where a path has led so far. -/
inductive Place
  /-- The directory itself. -/
  | here
  /-- Some directory outside. -/
  | outside
  /-- A file with its bytes. -/
  | file (bytes : List UInt8)

/-- The longest name that a file can have, in bytes. -/
def maxName : Nat := 255

/-- The longest path that can be opened, in bytes. -/
def maxPath : Nat := 4095

/-- The names of a path. Slashes separate them, and an empty name stands for no
step at all. -/
def names (path : String) : List String :=
  (path.splitOn "/").filter (· ≠ "")

/-- One step along a path. Nothing lies below a file. -/
def step (d : Directory) (place : Place) (name : String) : Except SystemCause Place :=
  match place with
  | .file _ => .error .notDirectory
  | .here =>
    if name = "." then .ok .here
    else if name = ".." then .ok .outside
    else if name.utf8ByteSize > maxName then .error .nameTooLong
    else
      match d.files.lookup name with
      | some bytes => .ok (.file bytes)
      | none => .error .notFound
  | .outside =>
    if name = "." || name = ".." then .ok .outside
    else if name.utf8ByteSize > maxName then .error .nameTooLong
    else .error .notFound

/-- The bytes of the file at a path. A path that begins with a slash begins
outside, and one that ends with a slash leads to a directory. -/
def openFile (d : Directory) (path : String) : Except SystemCause (List UInt8) :=
  if path = "" then .error .notFound
  else if path.utf8ByteSize > maxPath then .error .nameTooLong
  else
    let start := if path.startsWith "/" then Place.outside else Place.here
    -- the system looks at the names one by one and stops at the first that fails
    match (names path).foldlM d.step start with
    | .error cause => .error cause
    | .ok (.file bytes) => if path.endsWith "/" then .error .notDirectory else .ok bytes
    | .ok .here | .ok .outside => .error .isDirectory

/-- The environment of a run in the directory, where nothing that is open fails to be read. -/
def environment (d : Directory) (standardInput : List UInt8) : Environment :=
  ⟨fun path => (d.openFile path).map .ok, .ok standardInput⟩

end Directory

end LineBasic
