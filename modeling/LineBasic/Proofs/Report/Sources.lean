import LineBasic.CommandLine.Run
import LineBasic.Text.Utf8RoundTrip

/-!
# Where a program comes from

A program may be read from a file, from standard input, or be given literally. The first
two are decoded and have their carriage returns unified before they are cut into lines; a
literal program is neither, but its escapes are read as line breaks. Without an escape in
it, a program has the same lines on all three ways, and so the same report.

## Main definitions

* `Environment.Holds`: whether a file holds a program.
* `CheckOptions.flags`: the flags that ask for the options of a check.

## Main results

* `decodeLines_encode`: the lines of a program that is stored are those of its text.
* `report_eq_of_same_program`: a file, standard input and a literal agree.
-/

namespace LineBasic

/-- Whether the file at a path can be read to its end and holds a program. -/
structure Environment.Holds (env : Environment) (path program : String) : Prop where
  valid : '\x00' ∉ path.toList
  bytes : env.openFile path = .ok (.ok (Text.encode program))

/-- The flags that ask for the options of a check. -/
def CheckOptions.flags (options : CheckOptions) : List String :=
  (if options.strict then ["--strict"] else []) ++ if options.traced then ["--verbose"] else []

variable {options : CheckOptions} {env : Environment} {path program : String}
  {arguments : List String} {settings : Settings}

/-- Flags ask for standard input to be checked with their options. -/
theorem CheckOptions.ofArguments_flags (options : CheckOptions) :
    Settings.ofArguments options.flags =
      .ok ⟨none, false, options.strict, options.traced, false⟩ := by
  obtain ⟨strict, traced⟩ := options
  cases strict <;> cases traced <;> rfl

/-- The lines of a program that is stored are those of its text. -/
theorem decodeLines_encode (program : String) :
    decodeLines (Text.encode program) = .ok (Text.lines program) := by
  rw [decodeLines, Text.decode_encode]
  exact congrArg Except.ok (Text.storedLines_eq_lines program)

theorem Environment.Holds.readLines (h : env.Holds path program) :
    env.readLines path = .ok (Text.lines program) := by
  rw [Environment.readLines, if_neg (mt List.contains_iff_mem.mp h.valid), h.bytes]
  exact decodeLines_encode program

theorem Environment.Holds.checkFile (h : env.Holds path program) (options : CheckOptions) :
    checkFile options env path = .ok (checkLines options (Text.lines program)) := by
  rw [LineBasic.checkFile, h.readLines]

theorem checkInput_of_encode (input : env.standardInput = .ok (Text.encode program))
    (options : CheckOptions) :
    checkInput options env = checkLines options (Text.lines program) := by
  rw [checkInput, Environment.inputLines, input, Contents.lines, decodeLines_encode]

/-- Without a source the command line checks standard input. -/
theorem runCommand_of_noSource (asked : Settings.ofArguments arguments = .ok settings)
    (noSource : settings.source = none) (noReport : settings.grammar = false)
    (env : Environment) :
    runCommand env arguments = .ok (checkInput settings.options env) := by
  rw [runCommand, asked]
  change settings.execute env = _
  rw [Settings.execute, if_neg (by simp [noReport]), noSource]

/-- A program without an escape has one report: from a file that holds it, from standard
input if the arguments name no source, and as a literal. -/
theorem report_eq_of_same_program (options : CheckOptions) (program : String)
    (noEscape : ¬ ['\\', 'n'] <:+: program.toList) :
    ∃ report,
      (∀ env path, Environment.Holds env path program →
        checkSource options env false path = .ok report) ∧
      (∀ env arguments settings, Settings.ofArguments arguments = .ok settings →
        settings.source = none → settings.grammar = false → settings.options = options →
        env.standardInput = .ok (Text.encode program) → runCommand env arguments = .ok report) ∧
      ∀ env, checkSource options env true program = .ok report := by
  refine ⟨checkLines options (Text.lines program), fun env path holds => ?_, ?_, fun env => ?_⟩
  · exact holds.checkFile options
  · rintro env arguments settings asked noSource noReport rfl input
    rw [runCommand_of_noSource asked noSource noReport, checkInput_of_encode input]
  · rw [checkSource, if_pos rfl, checkLiteral, Text.literalLines_eq_lines noEscape]

/-- A program whose breaks are written in five ways, with one of them at its end. -/
def mixedBreaks : String := "x = 1\r\n\rwrite x\x0c\u2028$$\n"

theorem report_eq_of_same_program_mixedBreaks :
    ∃ env report, ¬ ['\\', 'n'] <:+: mixedBreaks.toList ∧
      Environment.Holds env "loop.lb" mixedBreaks ∧
      env.standardInput = .ok (Text.encode mixedBreaks) ∧
      checkSource ⟨true, true⟩ env false "loop.lb" = .ok report ∧
      runCommand env ["--strict", "--verbose"] = .ok report ∧
      checkSource ⟨true, true⟩ env true mixedBreaks = .ok report := by
  have noEscape : ¬ ['\\', 'n'] <:+: mixedBreaks.toList := by
    simp [mixedBreaks, List.infix_cons_iff, List.cons_prefix_cons]
  obtain ⟨report, file, input, literal⟩ :=
    report_eq_of_same_program ⟨true, true⟩ mixedBreaks noEscape
  have holds : Environment.Holds
      ⟨fun _ => .ok (.ok (Text.encode mixedBreaks)), .ok (Text.encode mixedBreaks)⟩
      "loop.lb" mixedBreaks :=
    ⟨by simp, rfl⟩
  exact ⟨_, report, noEscape, holds, rfl, file _ _ holds,
    input _ _ _ (CheckOptions.ofArguments_flags ⟨true, true⟩) rfl rfl rfl rfl, literal _⟩

end LineBasic
