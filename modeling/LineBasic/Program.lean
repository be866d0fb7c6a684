import LineBasic.Line.Check

/-!
# Checking a program

A program is checked line by line up to the line that holds the end marker and
nothing else but blanks. The first fault ends the check, and no line after the
one that ends it is looked at.

## Main definitions

* `Run`: the verdict, the lines that were examined, and the lines left unread.
* `runFrom`, `run`: check the lines of a program.

## Main results

* `isSentinel_iff`: which lines end a program.
-/

namespace LineBasic

/-- How a program is checked. -/
structure CheckOptions where
  /-- Reject a program whose end finds a loop still open. -/
  strict : Bool
  /-- Keep a record of the lines examined. -/
  traced : Bool
  deriving DecidableEq, Repr

/-- The course of a check: its verdict, the examined lines with their numbers if
they are recorded, and the lines that were never looked at. -/
structure Run where
  verdict : Verdict
  trace : List (Int × String)
  unread : List String
  deriving DecidableEq

/-- Whether a line holds the end marker and nothing else but blanks. -/
def isSentinel (text : String) : Bool :=
  Text.trim text = Vocabulary.sentinel

/-- A line ends the program if it holds the end marker, with blanks alone before and behind
it. -/
theorem isSentinel_iff {text : String} :
    isSentinel text = true ↔
      ∃ before after, (∀ c ∈ before, Text.isBlank c = true) ∧
        (∀ c ∈ after, Text.isBlank c = true) ∧
        text.toList = before ++ Vocabulary.sentinel.toList ++ after := by
  have plain : Text.isBlank '$' = false := by decide
  have marker : Vocabulary.sentinel.toList = ['$', '$'] := by decide
  rw [isSentinel, decide_eq_true_eq, ← String.toList_inj, Text.trim, String.toList_ofList,
    Text.trimBlanks_eq_iff, marker]
  apply and_iff_left
  constructor
  · rintro c ⟨⟩
    exact plain
  · rintro c ⟨⟩
    exact plain

example : isSentinel " \t$$\u3000" = true ∧ isSentinel "$ $" = false := by decide

/-- The verdict at the end marker. -/
def verdictAtEnd (strict : Bool) (ctx : Context) : Verdict :=
  if strict ∧ ctx.openLoops > 0 then .rejected ctx.line .unclosedLoop else .accepted

/-- Check the lines that follow a context. -/
def runFrom (options : CheckOptions) (ctx : Context) : List String → Run
  | [] => ⟨.rejected (ctx.line + 1) .sentinel, [], []⟩
  | text :: texts =>
    let here := ctx.nextLine
    -- a line is recorded before it is known what becomes of it
    let record := if options.traced then [(here.line, text)] else []
    if isSentinel text then ⟨verdictAtEnd options.strict here, record, texts⟩
    else
      match judgeLine text here with
      | .error verdict => ⟨verdict, record, texts⟩
      | .ok after =>
        let run := runFrom options after texts
        { run with trace := record ++ run.trace }

/-- Check the lines of a program. -/
def run (options : CheckOptions) (lines : List String) : Run :=
  runFrom options .start lines

end LineBasic
