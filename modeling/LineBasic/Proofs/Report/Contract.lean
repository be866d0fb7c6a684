import LineBasic.Proofs.Report.Rendering
import LineBasic.Report

/-!
# What a check prints

A check either cannot read its program or reports the verdict on the lines it has read. In
the first case it prints a note on standard error alone. In the second case standard output
is the one line that shows the verdict, and standard error is empty or, on request, names
each line that was examined. Asking for these lines changes nothing else.

## Main definitions

* `sourceLines`: the lines that a check reads, or why it cannot read them.
* `Report.Tells`: whether a report tells the outcome of checking lines.

## Main results

* `checkSource_eq_ok_iff`: the two kinds of reports.
* `tells_checkLines`: what is reported on lines.
* `checkSource_report_exact`: all of it, for the check of any source.
-/

namespace LineBasic

/-- The lines of a program that is named by a path or given literally. -/
def sourceLines (env : Environment) (isLiteral : Bool) (source : String) :
    Except ReadError (List String) :=
  if isLiteral then .ok (Text.literalLines source) else env.readLines source

/-- Whether a report tells the outcome of checking lines. -/
structure Report.Tells (report : Report) (options : CheckOptions) (lines : List String) :
    Prop where
  status : report.status = if (run options lines).verdict = .accepted then 0 else 1
  stdout : report.stdout = (run options lines).verdict.text ++ "\n"
  /-- The verdict takes up no more than the one line. -/
  oneLine : ∀ c ∈ (run options lines).verdict.text.toList, Text.isLineBreak c = false
  /-- No other verdict is shown in this line. -/
  unique : ∀ verdict : Verdict, verdict.text ++ "\n" = report.stdout →
    verdict = (run options lines).verdict
  rejected : ∀ number fault, (run options lines).verdict = .rejected number fault →
    1 ≤ number ∧ fault.message ∈ knownMessages
  /-- The lines up to the one that decides are named in order, if they are asked for. -/
  stderr : report.stderr = if options.traced then
    String.join ((lines.take (linesTaken options lines)).mapIdx fun i text =>
      traceLine (i + 1, text)) else ""
  takes : (run options lines).Takes options .start lines (linesTaken options lines)

variable {options : CheckOptions} {env : Environment} {isLiteral : Bool} {source : String}
  {lines : List String} {report : Report}

/-! ### Reading -/

theorem sourceLines_eq_error_iff {e : ReadError} :
    sourceLines env isLiteral source = .error e ↔
      isLiteral = false ∧ env.readLines source = .error e := by
  cases isLiteral <;> simp [sourceLines]

/-- A check reports on the lines that it reads, or that it cannot read them. Only an
invalid path is not reported. -/
theorem checkSource_eq_ok_iff :
    checkSource options env isLiteral source = .ok report ↔
      (∃ lines, sourceLines env isLiteral source = .ok lines ∧
        report = checkLines options lines) ∨
      ∃ e, e ≠ .invalidPath ∧ sourceLines env isLiteral source = .error e ∧
        report = .unreadable source e.message := by
  cases isLiteral with
  | true => simp [checkSource, sourceLines, checkLiteral, eq_comm]
  | false =>
    rw [checkSource, if_neg Bool.false_ne_true, checkFile, sourceLines,
      if_neg Bool.false_ne_true]
    cases read : env.readLines source with
    | ok lines => simp [eq_comm]
    | error e => cases e <;> simp [eq_comm]

/-! ### Reporting -/

theorem stderr_ofRun (options : CheckOptions) (lines : List String) :
    (Report.ofRun (run options lines)).stderr = if options.traced then
      String.join ((lines.take (linesTaken options lines)).mapIdx fun i text =>
        traceLine (i + 1, text)) else "" := by
  change String.join ((run options lines).trace.map traceLine) = _
  rw [(takes_linesTaken options lines).trace]
  by_cases traced : options.traced = true
  · rw [if_pos traced, if_pos traced, List.mapIdx_eq_zipIdx_map, List.mapIdx_eq_zipIdx_map,
      List.map_map]
    simp only [Function.comp_def, Context.start, Int.zero_add]
  · rw [if_neg traced, if_neg traced]
    rfl

theorem tells_checkLines (options : CheckOptions) (lines : List String) :
    (checkLines options lines).Tells options lines where
  status := by
    rw [checkLines, Report.ofRun]
    cases (run options lines).verdict <;> rfl
  stdout := rfl
  oneLine := Verdict.not_isLineBreak_of_mem_text fun _ _ rejected => mem_known_of_run rejected
  unique verdict same := Verdict.text_injective ((String.append_left_inj _).mp same)
  rejected number fault rejected := by
    have behind : Context.start.line < number := line_lt_of_rejected rejected
    refine ⟨behind, ?_⟩
    rw [← Fault.map_message_known]
    exact List.mem_map_of_mem (mem_known_of_run rejected)
  stderr := stderr_ofRun options lines
  takes := takes_linesTaken options lines

theorem status_checkLines (options : CheckOptions) (lines : List String) :
    (checkLines options lines).status = 0 ∨ (checkLines options lines).status = 1 := by
  rw [(tells_checkLines options lines).status]
  split
  · exact .inl rfl
  · exact .inr rfl

/-- Keeping a record changes neither what is printed on standard output nor the status. -/
theorem checkLines_traced (options : CheckOptions) (traced : Bool) (lines : List String) :
    (checkLines { options with traced } lines).status = (checkLines options lines).status ∧
      (checkLines { options with traced } lines).stdout = (checkLines options lines).stdout := by
  have same := (runFrom_traced options traced .start lines).1
  rw [checkLines, checkLines, Report.ofRun, Report.ofRun, run, run, same]
  exact ⟨rfl, rfl⟩

/-- The status is 2 just when a file cannot be read, and nothing but a note of this is
printed then. Otherwise the report tells the outcome of checking the lines that were read.
Whether a record is kept changes neither standard output nor the status. -/
theorem checkSource_report_exact (returned : checkSource options env isLiteral source = .ok report) :
    (report.status = 2 → isLiteral = false ∧ ∃ e, env.readLines source = .error e ∧
      report.stdout = "" ∧
      report.stderr = s!"[error] >>> cannot read {source}: {e.message}\n") ∧
    (report.status ≠ 2 → ∃ lines, sourceLines env isLiteral source = .ok lines ∧
      report.Tells options lines) ∧
    ∀ traced, ∃ other, checkSource { options with traced } env isLiteral source = .ok other ∧
      other.stdout = report.stdout ∧ other.status = report.status := by
  rcases checkSource_eq_ok_iff.mp returned with ⟨lines, read, rfl⟩ | ⟨e, valid, failed, rfl⟩
  · refine ⟨fun unreadable => ?_, fun _ => ⟨lines, read, tells_checkLines options lines⟩,
      fun traced => ?_⟩
    · rcases status_checkLines options lines with status | status <;>
        exact absurd (unreadable.symm.trans status) (by decide)
    · obtain ⟨status, stdout⟩ := checkLines_traced options traced lines
      exact ⟨_, checkSource_eq_ok_iff.mpr (.inl ⟨lines, read, rfl⟩), stdout, status⟩
  · refine ⟨fun _ => ?_, fun readable => absurd rfl readable, fun traced => ?_⟩
    · obtain ⟨isFile, failed⟩ := sourceLines_eq_error_iff.mp failed
      exact ⟨isFile, e, failed, rfl, rfl⟩
    · exact ⟨_, checkSource_eq_ok_iff.mpr (.inr ⟨e, valid, failed, rfl⟩), rfl, rfl⟩

/-- The second of three lines is faulty, and both lines before the third are named. -/
theorem checkSource_report_exact_traced :
    ∃ env report, checkSource ⟨false, true⟩ env true "while true\\nwrite 1+\\n$$" = .ok report ∧
      report = ⟨1, "Syntax error on line 2: invalid expression\n",
        "[trace] line 1: while true\n[trace] line 2: write 1+\n"⟩ ∧
      (∃ lines, sourceLines env true "while true\\nwrite 1+\\n$$" = .ok lines ∧
        report.Tells ⟨false, true⟩ lines) ∧
      ∃ other, checkSource ⟨false, false⟩ env true "while true\\nwrite 1+\\n$$" = .ok other ∧
        other.stdout = report.stdout ∧ other.status = report.status := by
  have returned : checkSource ⟨false, true⟩ ⟨fun _ => .error .notFound, .ok []⟩ true
      "while true\\nwrite 1+\\n$$" = .ok ⟨1, "Syntax error on line 2: invalid expression\n",
        "[trace] line 1: while true\n[trace] line 2: write 1+\n"⟩ := by
    decide +kernel
  obtain ⟨-, readable, silent⟩ := checkSource_report_exact returned
  exact ⟨_, _, returned, rfl, readable (by decide), silent false⟩

end LineBasic
