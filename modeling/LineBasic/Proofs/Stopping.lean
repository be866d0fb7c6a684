import LineBasic.Program
import LineBasic.Proofs.Line.Alike

/-!
# Where a check stops

A check takes lines one by one up to the one that decides, and no line behind it. Until
then it has recorded just the lines that it has taken, in order. The verdict names the
last of them, unless it says that the end marker is missing; only then can more lines
change anything, and the check goes on with them where it has stopped.

## Main definitions

* `linesTaken`: how many lines a check takes.
* `Run.Takes`: how a run fits the number of lines it takes.

## Main results

* `runFrom_append_of_decided`: lines behind the one that decides are left unread.
* `exists_runFrom_append_of_undecided`: a check that misses the end marker goes on.
* `exists_takes_runFrom`: every run takes the lines that it records and no others.
* `run_stops_exact`: these facts about the check of a program.
-/

namespace LineBasic

/-- How many of the lines a check takes. -/
def linesTaken (options : CheckOptions) (lines : List String) : Nat :=
  lines.length - (run options lines).unread.length

/-- How a run over the lines behind a context fits the number of lines that it takes. -/
structure Run.Takes (run : Run) (options : CheckOptions) (ctx : Context) (lines : List String)
    (count : Nat) : Prop where
  within : count ≤ lines.length
  /-- The other lines are left unread. -/
  unread : run.unread = lines.drop count
  /-- The lines taken are recorded with their numbers, if a record is kept. -/
  trace : run.trace = if options.traced then
    (lines.take count).mapIdx fun i text => (ctx.line + i + 1, text) else []
  /-- An accepted program is read up to its first end marker. -/
  accepted : run.verdict = .accepted →
    ∃ i, lines.findIdx? isSentinel = some i ∧ count = i + 1
  /-- A fault is reported on the last line taken. -/
  rejected : ∀ number fault, run.verdict = .rejected number fault → fault ≠ .sentinel →
    0 < count ∧ number = ctx.line + count
  /-- The end marker is reported missing behind the last line of all. -/
  undecided : ∀ number, run.verdict = .rejected number .sentinel →
    count = lines.length ∧ number = ctx.line + count + 1

variable {options : CheckOptions} {ctx after : Context} {text : String}
  {texts xs : List String}

/-! ### One line -/

/-- The record of a line, if one is kept. -/
def recordOf (options : CheckOptions) (number : Int) (text : String) : List (Int × String) :=
  if options.traced then [(number, text)] else []

theorem runFrom_cons_of_isSentinel (marker : isSentinel text = true) :
    runFrom options ctx (text :: texts) =
      ⟨verdictAtEnd options.strict ctx.nextLine, recordOf options (ctx.line + 1) text, texts⟩ := by
  rw [runFrom, if_pos marker]
  rfl

theorem runFrom_cons_of_error {verdict : Verdict} (noMarker : ¬ isSentinel text = true)
    (judged : judgeLine text ctx.nextLine = .error verdict) :
    runFrom options ctx (text :: texts) =
      ⟨verdict, recordOf options (ctx.line + 1) text, texts⟩ := by
  rw [runFrom, if_neg noMarker, judged]
  rfl

theorem runFrom_cons_of_ok (noMarker : ¬ isSentinel text = true)
    (judged : judgeLine text ctx.nextLine = .ok after) :
    runFrom options ctx (text :: texts) =
      { runFrom options after texts with
        trace := recordOf options (ctx.line + 1) text ++ (runFrom options after texts).trace } := by
  rw [runFrom, if_neg noMarker, judged]
  rfl

theorem verdictAtEnd_eq_rejected {strict : Bool} {number : Int} {fault : Fault}
    (h : verdictAtEnd strict ctx = .rejected number fault) :
    number = ctx.line ∧ fault = .unclosedLoop := by
  unfold verdictAtEnd at h
  split at h
  · obtain ⟨rfl, rfl⟩ := Verdict.rejected.inj h
    exact ⟨rfl, rfl⟩
  · exact nomatch h

/-- A run that ends at its first line takes this line alone. -/
theorem Run.Takes.stop {verdict : Verdict}
    (accepted : verdict = .accepted → isSentinel text = true)
    (rejected : ∀ number fault, verdict = .rejected number fault →
      number = ctx.line + 1 ∧ fault ≠ .sentinel) :
    Run.Takes ⟨verdict, recordOf options (ctx.line + 1) text, texts⟩ options ctx (text :: texts) 1 where
  within := Nat.le_add_left 1 texts.length
  unread := rfl
  trace := by
    rw [recordOf]
    split <;> simp
  accepted h := ⟨0, by rw [List.findIdx?_cons, if_pos (accepted h)], rfl⟩
  rejected number fault h _ := ⟨Nat.one_pos, (rejected number fault h).1⟩
  undecided number h := absurd rfl (rejected number .sentinel h).2

/-- A run that goes on behind its first line takes one line more. -/
theorem Run.Takes.cons {run : Run} {count : Nat} (h : run.Takes options after texts count)
    (line : after.line = ctx.line + 1) (noMarker : ¬ isSentinel text = true) :
    Run.Takes { run with trace := recordOf options (ctx.line + 1) text ++ run.trace } options ctx
      (text :: texts) (count + 1) where
  within := Nat.succ_le_succ h.within
  unread := h.unread
  trace := by
    rw [h.trace, recordOf]
    split
    · have number (i : Nat) : after.line + i + 1 = ctx.line + (i + 1 : Nat) + 1 := by omega
      simp only [number, List.take_succ_cons, List.mapIdx_cons, List.singleton_append]
      rw [Int.natCast_zero, Int.add_zero]
    · rfl
  accepted accepts := by
    obtain ⟨i, found, rfl⟩ := h.accepted accepts
    exact ⟨i + 1, by rw [List.findIdx?_cons, if_neg noMarker, found]; rfl, rfl⟩
  rejected number fault rejects other := by
    obtain ⟨some, same⟩ := h.rejected number fault rejects other
    exact ⟨Nat.succ_pos count, by omega⟩
  undecided number missing := by
    obtain ⟨all, same⟩ := h.undecided number missing
    exact ⟨congrArg (· + 1) all, by omega⟩

/-! ### All lines -/

/-- Every run takes the lines that it records and no others. -/
theorem exists_takes_runFrom (options : CheckOptions) (ctx : Context) (texts : List String) :
    ∃ count, (runFrom options ctx texts).Takes options ctx texts count := by
  induction texts generalizing ctx with
  | nil =>
    refine ⟨0, Nat.le_refl 0, rfl, by simp [runFrom], nofun, ?_, ?_⟩
    · rintro number fault ⟨⟩ other
      exact absurd rfl other
    · rintro number ⟨⟩
      exact ⟨rfl, by simp⟩
  | cons text texts ih =>
    by_cases marker : isSentinel text = true
    · rw [runFrom_cons_of_isSentinel marker]
      refine ⟨1, .stop (fun _ => marker) fun number fault h => ?_⟩
      obtain ⟨same, rfl⟩ := verdictAtEnd_eq_rejected h
      exact ⟨same, nofun⟩
    · cases judged : judgeLine text ctx.nextLine with
      | error verdict =>
        rw [runFrom_cons_of_error marker judged]
        obtain ⟨fault, ofLine, rfl⟩ := judgeLine_eq_error judged
        refine ⟨1, .stop nofun ?_⟩
        rintro number fault ⟨⟩
        refine ⟨rfl, ?_⟩
        rintro rfl
        exact nomatch ofLine
      | ok after =>
        rw [runFrom_cons_of_ok marker judged]
        obtain ⟨count, takes⟩ := ih after
        exact ⟨count + 1, takes.cons (judgeLine_eq_ok_iff.mp judged).2.2 marker⟩

/-- If a check does not miss the end marker, lines behind those it has are left unread. -/
theorem runFrom_append_of_decided
    (decided : ∀ number, (runFrom options ctx xs).verdict ≠ .rejected number .sentinel)
    (ys : List String) :
    runFrom options ctx (xs ++ ys) =
      { runFrom options ctx xs with unread := (runFrom options ctx xs).unread ++ ys } := by
  induction xs generalizing ctx with
  | nil => exact absurd rfl (decided _)
  | cons text texts ih =>
    rw [List.cons_append]
    by_cases marker : isSentinel text = true
    · rw [runFrom_cons_of_isSentinel marker, runFrom_cons_of_isSentinel marker]
    · cases judged : judgeLine text ctx.nextLine with
      | error verdict => rw [runFrom_cons_of_error marker judged, runFrom_cons_of_error marker judged]
      | ok after =>
        rw [runFrom_cons_of_ok marker judged] at decided
        rw [runFrom_cons_of_ok marker judged, runFrom_cons_of_ok marker judged, ih decided]

/-- If a check misses the end marker, it goes on with more lines where it has stopped. -/
theorem exists_runFrom_append_of_undecided {number : Int}
    (undecided : (runFrom options ctx xs).verdict = .rejected number .sentinel)
    (ys : List String) :
    ∃ after, after.line = ctx.line + xs.length ∧
      runFrom options ctx (xs ++ ys) =
        { runFrom options after ys with
          trace := (runFrom options ctx xs).trace ++ (runFrom options after ys).trace } := by
  induction xs generalizing ctx with
  | nil => exact ⟨ctx, (Int.add_zero _).symm, rfl⟩
  | cons text texts ih =>
    rw [List.cons_append]
    by_cases marker : isSentinel text = true
    · rw [runFrom_cons_of_isSentinel marker] at undecided
      exact nomatch (verdictAtEnd_eq_rejected undecided).2
    · cases judged : judgeLine text ctx.nextLine with
      | error verdict =>
        obtain ⟨fault, ofLine, rfl⟩ := judgeLine_eq_error judged
        rw [runFrom_cons_of_error marker judged] at undecided
        obtain ⟨-, rfl⟩ := Verdict.rejected.inj undecided
        exact nomatch ofLine
      | ok middle =>
        rw [runFrom_cons_of_ok marker judged] at undecided
        obtain ⟨after, line, same⟩ := ih undecided
        have here : middle.line = ctx.line + 1 := (judgeLine_eq_ok_iff.mp judged).2.2
        refine ⟨after, ?_, ?_⟩
        · rw [line, here, List.length_cons]
          omega
        · rw [runFrom_cons_of_ok marker judged, runFrom_cons_of_ok marker judged, same,
            List.append_assoc]

/-- Keeping a record changes nothing else. -/
theorem runFrom_traced (options : CheckOptions) (traced : Bool) (ctx : Context)
    (texts : List String) :
    (runFrom { options with traced } ctx texts).verdict = (runFrom options ctx texts).verdict ∧
      (runFrom { options with traced } ctx texts).unread = (runFrom options ctx texts).unread := by
  induction texts generalizing ctx with
  | nil => exact ⟨rfl, rfl⟩
  | cons text texts ih =>
    by_cases marker : isSentinel text = true
    · rw [runFrom_cons_of_isSentinel marker, runFrom_cons_of_isSentinel marker]
      exact ⟨rfl, rfl⟩
    · cases judged : judgeLine text ctx.nextLine with
      | error verdict =>
        rw [runFrom_cons_of_error marker judged, runFrom_cons_of_error marker judged]
        exact ⟨rfl, rfl⟩
      | ok after =>
        rw [runFrom_cons_of_ok marker judged, runFrom_cons_of_ok marker judged]
        exact ih after

/-- The lines that a run takes are all lines less those left unread. -/
theorem takes_linesTaken (options : CheckOptions) (lines : List String) :
    (run options lines).Takes options .start lines (linesTaken options lines) := by
  obtain ⟨count, takes⟩ := exists_takes_runFrom options .start lines
  have within := takes.within
  have same : linesTaken options lines = count := by
    rw [linesTaken, run, takes.unread, List.length_drop]
    omega
  rw [same]
  exact takes

/-- A fault is reported behind the context that a check starts from. -/
theorem line_lt_of_rejected {number : Int} {fault : Fault}
    (h : (runFrom options ctx texts).verdict = .rejected number fault) : ctx.line < number := by
  obtain ⟨count, takes⟩ := exists_takes_runFrom options ctx texts
  by_cases missing : fault = .sentinel
  · subst missing
    have := (takes.undecided number h).2
    omega
  · obtain ⟨some, same⟩ := takes.rejected number fault h missing
    omega

/-- More lines do not change a check that does not miss the end marker: verdict, record
and the number of lines taken stay the same. Every run takes and records the lines up to
the one that it reports, or to the first end marker if it accepts, and all lines if it
misses the end marker; whether it keeps a record changes nothing else. If a check misses
the end marker, a check with more lines reports nothing on the lines it has seen. -/
theorem run_stops_exact (options : CheckOptions) (xs ys : List String) :
    ((∀ number, (run options xs).verdict ≠ .rejected number .sentinel) →
      (run options (xs ++ ys)).verdict = (run options xs).verdict ∧
      (run options (xs ++ ys)).trace = (run options xs).trace ∧
      linesTaken options (xs ++ ys) = linesTaken options xs) ∧
    (run options xs).Takes options .start xs (linesTaken options xs) ∧
    (∀ traced, (run { options with traced } xs).verdict = (run options xs).verdict ∧
      linesTaken { options with traced } xs = linesTaken options xs) ∧
    (∀ number, (run options xs).verdict = .rejected number .sentinel →
      ∀ line fault, (run options (xs ++ ys)).verdict = .rejected line fault →
        xs.length < line) := by
  refine ⟨fun decided => ?_, takes_linesTaken options xs, fun traced => ?_, ?_⟩
  · have same := runFrom_append_of_decided decided ys
    refine ⟨by rw [run, same]; rfl, by rw [run, same]; rfl, ?_⟩
    have unread : (run options (xs ++ ys)).unread = (run options xs).unread ++ ys := by
      rw [run, same]
      rfl
    rw [linesTaken, linesTaken, unread, List.length_append, List.length_append]
    omega
  · obtain ⟨verdict, unread⟩ := runFrom_traced options traced .start xs
    refine ⟨verdict, ?_⟩
    rw [linesTaken, linesTaken, run, run, unread]
  · intro number undecided line fault rejected
    obtain ⟨after, start, same⟩ := exists_runFrom_append_of_undecided undecided ys
    rw [run, same] at rejected
    have := line_lt_of_rejected rejected
    rw [start] at this
    simpa [Context.start] using this

end LineBasic
