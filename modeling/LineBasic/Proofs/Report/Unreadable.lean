import LineBasic.Proofs.Report.Contract
import LineBasic.Proofs.Report.Sources
import LineBasic.Proofs.Text.StrictDecoding

/-!
# Sources that cannot be read

A literal program can always be read. A file can be read if the system opens it and hands over its
bytes, and they are those of a text, from the first to the last, whatever the program in it needs of
them. A check of any other file ends with status 2, and the error tells which of these failed. Only
a path with a null character has no report at all: it is handed back to the caller.

## Main results

* `decodeLines_eq_ok_iff`: bytes have lines just when they are those of a text.
* `Contents.lines_eq_ok_iff`, `Contents.lines_eq_error_iff`: the same of what a file or standard
  input holds.
* `Environment.readLines_eq_ok_iff`, `Environment.readLines_eq_error_iff`: which files can be read,
  and why the others cannot.
* `checkSource_status_exact`: when a check returns a report, and with which status.
* `not_forall_checkSource_returns`: not every check does.
-/

namespace LineBasic

variable {env : Environment} {path : String} {bytes : List UInt8} {lines : List String}

/-- Bytes have lines just when they are those of a text. -/
theorem decodeLines_eq_ok_iff :
    decodeLines bytes = .ok lines ↔
      ∃ program, bytes = Text.encode program ∧ lines = Text.lines program := by
  constructor
  · intro read
    cases decoded : Text.decode bytes with
    | error e =>
      rw [decodeLines, decoded] at read
      cases read
    | ok program =>
      obtain rfl := Text.decode_eq_ok_iff.mp decoded
      rw [decodeLines_encode] at read
      exact ⟨program, rfl, (Except.ok.inj read).symm⟩
  · rintro ⟨program, rfl, rfl⟩
    exact decodeLines_encode program

/-- Bytes have no lines just when they are not those of a text, and the error says why. -/
theorem decodeLines_eq_error_iff {e : ReadError} :
    decodeLines bytes = .error e ↔
      ∃ reason, Text.decode bytes = .error reason ∧ e = .undecodable reason := by
  rw [decodeLines]
  cases Text.decode bytes <;> simp [eq_comm]

namespace Contents

variable {contents : Contents}

/-- What is open has lines just when it is handed over and consists of the bytes of a text. -/
theorem lines_eq_ok_iff :
    contents.lines = .ok lines ↔
      ∃ program, contents = .ok (Text.encode program) ∧ lines = Text.lines program := by
  cases contents with
  | error cause => simp [Contents.lines]
  | ok bytes => simp [Contents.lines, decodeLines_eq_ok_iff]

/-- What is open cannot be read if the system breaks off, or if the bytes are not those of a text.
Neither error names a path. -/
theorem lines_eq_error_iff {e : ReadError} :
    contents.lines = .error e ↔
      (∃ cause, contents = .error cause ∧ e = .unopened cause none) ∨
        ∃ bytes reason, contents = .ok bytes ∧ Text.decode bytes = .error reason ∧
          e = .undecodable reason := by
  cases contents with
  | error cause => simp [Contents.lines, eq_comm]
  | ok bytes => simp [Contents.lines, decodeLines_eq_error_iff]

end Contents

namespace Environment

/-- A file has lines just when the system opens it and hands over the bytes of a text, whose lines
they are. -/
theorem readLines_eq_ok_iff :
    env.readLines path = .ok lines ↔
      '\x00' ∉ path.toList ∧
        ∃ program, env.openFile path = .ok (.ok (Text.encode program)) ∧
          lines = Text.lines program := by
  by_cases null : '\x00' ∈ path.toList
  · rw [readLines, if_pos (List.contains_iff_mem.mpr null)]
    simp [null]
  · rw [readLines, if_neg (mt List.contains_iff_mem.mp null)]
    cases env.openFile path with
    | error cause => simp
    | ok contents => simp [null, Contents.lines_eq_ok_iff]

/-- Why a file cannot be read: its path holds a null character, or it is not opened, or what is in
it cannot be read. Only where it is not opened the error names the path. -/
theorem readLines_eq_error_iff {e : ReadError} :
    env.readLines path = .error e ↔
      '\x00' ∈ path.toList ∧ e = .invalidPath ∨
      '\x00' ∉ path.toList ∧
        ((∃ cause, env.openFile path = .error cause ∧ e = .unopened cause (some path)) ∨
          ∃ contents, env.openFile path = .ok contents ∧ contents.lines = .error e) := by
  by_cases null : '\x00' ∈ path.toList
  · rw [readLines, if_pos (List.contains_iff_mem.mpr null)]
    simp [null, eq_comm]
  · rw [readLines, if_neg (mt List.contains_iff_mem.mp null)]
    cases env.openFile path with
    | error cause => simp [null, eq_comm]
    | ok contents => simp [null]

/-- A path is handed back just when it holds a null character. -/
theorem readLines_eq_invalidPath_iff :
    env.readLines path = .error .invalidPath ↔ '\x00' ∈ path.toList := by
  constructor
  · intro invalid
    rcases readLines_eq_error_iff.mp invalid with ⟨null, -⟩ | ⟨-, ⟨cause, -, other⟩ | opened⟩
    · exact null
    -- no other way of failing is this one
    · cases other
    · obtain ⟨contents, -, failed⟩ := opened
      rcases Contents.lines_eq_error_iff.mp failed with ⟨cause, -, other⟩ | ⟨bytes, e, -, -, other⟩
      · cases other
      · cases other
  · intro null
    exact readLines_eq_error_iff.mpr (.inl ⟨null, rfl⟩)

/-- A file can be read just when the system opens it and hands over the bytes of a text. -/
theorem exists_readLines_iff (valid : '\x00' ∉ path.toList) :
    (∃ lines, env.readLines path = .ok lines) ↔
      ∃ program, env.openFile path = .ok (.ok (Text.encode program)) := by
  constructor
  · rintro ⟨lines, read⟩
    obtain ⟨-, program, opened, -⟩ := readLines_eq_ok_iff.mp read
    exact ⟨program, opened⟩
  · rintro ⟨program, opened⟩
    exact ⟨_, readLines_eq_ok_iff.mpr ⟨valid, program, opened, rfl⟩⟩

end Environment

/-- A check of a file whose path holds a null character returns no report. Every other check
returns one, with status 0, 1 or 2; the status is 2 just when the source is a file that the system
does not open or does not hand over, or whose bytes are not those of a text. -/
theorem checkSource_status_exact (options : CheckOptions) (env : Environment) (isLiteral : Bool)
    (source : String) :
    (isLiteral = false ∧ '\x00' ∈ source.toList →
      checkSource options env isLiteral source = .error .invalidPath) ∧
    (¬ (isLiteral = false ∧ '\x00' ∈ source.toList) →
      ∃ report, checkSource options env isLiteral source = .ok report ∧
        (report.status = 0 ∨ report.status = 1 ∨ report.status = 2) ∧
        (report.status = 2 ↔ isLiteral = false ∧
          ¬ ∃ program, env.openFile source = .ok (.ok (Text.encode program)))) := by
  constructor
  · rintro ⟨rfl, null⟩
    rw [checkSource, if_neg Bool.false_ne_true, checkFile,
      Environment.readLines_eq_invalidPath_iff.mpr null]
  · intro valid
    cases read : sourceLines env isLiteral source with
    | ok lines =>
      have status := status_checkLines options lines
      refine ⟨_, checkSource_eq_ok_iff.mpr (.inl ⟨lines, read, rfl⟩),
        status.imp_right .inl, iff_of_false (by omega) ?_⟩
      rintro ⟨rfl, unreadable⟩
      have valid : '\x00' ∉ source.toList := fun null => valid ⟨rfl, null⟩
      exact unreadable ((Environment.exists_readLines_iff valid).mp ⟨lines, read⟩)
    | error e =>
      obtain ⟨rfl, failed⟩ := sourceLines_eq_error_iff.mp read
      have valid : '\x00' ∉ source.toList := fun null => valid ⟨rfl, null⟩
      -- every other way of failing is reported
      have reported : e ≠ .invalidPath := by
        rintro rfl
        exact valid (Environment.readLines_eq_invalidPath_iff.mp failed)
      refine ⟨_, checkSource_eq_ok_iff.mpr (.inr ⟨e, reported, read, rfl⟩), .inr (.inr rfl),
        iff_of_true rfl ⟨rfl, ?_⟩⟩
      intro readable
      obtain ⟨lines, read'⟩ := (Environment.exists_readLines_iff valid).mpr readable
      rw [failed] at read'
      cases read'

/-- Not every check returns a report: a path with a null character has none. -/
theorem not_forall_checkSource_returns :
    ¬ ∀ options env isLiteral source, ∃ report,
      checkSource options env isLiteral source = .ok report ∧
        (report.status = 0 ∨ report.status = 1 ∨ report.status = 2) ∧
        (isLiteral = false → (¬ ∃ program, env.openFile source = .ok (.ok (Text.encode program))) →
          report.status = 2) := by
  intro returns
  obtain ⟨report, returned, -⟩ :=
    returns ⟨false, false⟩ ⟨fun _ => .error .notFound, .ok []⟩ false "loop\x00.lb"
  have refused : checkSource ⟨false, false⟩ ⟨fun _ => .error .notFound, .ok []⟩ false
      "loop\x00.lb" = .error .invalidPath := by
    decide +kernel
  rw [refused] at returned
  cases returned

end LineBasic
