import LineBasic.Line.Basic
import LineBasic.Proofs.Cursor.Expression
import Mathlib.Logic.Function.Iterate

/-!
# Expressions are read in one pass with a counter

Reading an expression calls itself for every operator and every opening parenthesis. None
of these calls has to be remembered but those for parentheses, and of them only their
number: an expression can be read from the left in one loop that counts the parentheses
that are open.

## Main definitions

* `Scan`, `Scan.next`: the loop and one round of it.
* `Scan.Ends`: what the loop comes to.
* `Cursor.unwind`: what is left to do after an expression inside open parentheses.

## Main results

* `Scan.ends_operandDue`, `Scan.ends_operandRead`: the loop does what the calls do, together with
  those that wait.
* `expression_eq_iff_scan`: the loop comes to the same result as reading the expression.
-/

namespace LineBasic

/-- A reading of an expression from the left that knows the number of open parentheses. -/
inductive Scan
  /-- An operand has to come next. -/
  | operandDue (depth : Nat) (c : Cursor)
  /-- An operand has just been read. -/
  | operandRead (depth : Nat) (c : Cursor)
  /-- The reading is over. -/
  | ended (result : Except Fault Cursor)

namespace Scan

/-- One round of the loop. -/
def next : Scan → Scan
  | operandDue depth c =>
    if c.tag = .identifier ∨ c.tag = .number then operandRead depth c.next
    else if c.atSignedNumber then operandRead depth c.next.next
    else if c.tag = .leftParen then operandDue (depth + 1) c.next
    else ended (.error .operand)
  | operandRead depth c =>
    if c.tag.isArithmetic then operandDue depth c.next
    else if depth = 0 then ended (.ok c)
    else if c.tag = .rightParen then operandRead (depth - 1) c.next
    else if c.tag = .endOfLine then ended (.error .parenthesis)
    else ended (.error .tail)
  | ended result => ended result

/-- Whether the loop comes to a result after some number of rounds. -/
def Ends (s : Scan) (result : Except Fault Cursor) : Prop :=
  ∃ rounds, next^[rounds] s = ended result

variable {s : Scan} {result result' : Except Fault Cursor}

theorem ends_ended (result : Except Fault Cursor) : (ended result).Ends result :=
  ⟨0, rfl⟩

/-- The loop comes to what it comes to after one more round. -/
theorem Ends.of_next (h : s.next.Ends result) : s.Ends result := by
  obtain ⟨rounds, ends⟩ := h
  exact ⟨rounds + 1, ends⟩

theorem iterate_next_ended (rounds : Nat) (result : Except Fault Cursor) :
    next^[rounds] (ended result) = ended result :=
  Function.iterate_fixed rfl rounds

/-- The loop comes to one result only. -/
theorem Ends.unique (h : s.Ends result) (h' : s.Ends result') : result = result' := by
  obtain ⟨m, ends⟩ := h
  obtain ⟨n, ends'⟩ := h'
  have later (m n : Nat) : next^[m + n] s = next^[m] (next^[n] s) :=
    Function.iterate_add_apply next m n s
  have same : ended result = ended result' := by
    rw [← iterate_next_ended n result, ← ends, ← later, Nat.add_comm, later, ends',
      iterate_next_ended]
  exact Scan.ended.inj same

end Scan

namespace Cursor

variable {c : Cursor}

/-- What is left to do after an expression inside open parentheses: to close the
innermost one, to read what follows it, and so on outwards. -/
def unwind : Nat → Cursor → Except Fault Cursor
  | 0, c => .ok c
  | depth + 1, c => (c.closeParen.bind expressionTail).bind (unwind depth)

theorem tag_of_isPastEnd (h : c.isPastEnd = true) : c.tag = c.last.tag := by
  rw [isPastEnd, List.isEmpty_iff] at h
  rw [tag, token, h]
  rfl

/-- Before the end of a line that ends as lines do there are tokens left. -/
theorem not_isPastEnd (ends : c.last.tag = .endOfLine) (more : c.tag ≠ .endOfLine) :
    ¬ c.isPastEnd = true :=
  fun past => more ((tag_of_isPastEnd past).trans ends)

/-- Behind all tokens no signed number is found, whatever the last token is: it would
touch itself only if it had no characters. -/
theorem atSignedNumber_of_isPastEnd (h : c.isPastEnd = true) : c.atSignedNumber = false := by
  rw [isPastEnd, List.isEmpty_iff] at h
  have here : c.token = c.last := by rw [token, h]; rfl
  have there : c.next.token = c.last := by rw [token, next, h]; rfl
  rw [atSignedNumber, here, there, Bool.and_eq_false_iff, decide_eq_false_iff_not]
  by_cases empty : c.last.lexeme = ""
  · rw [empty]
    exact .inr rfl
  · have : c.last.lexeme.length ≠ 0 := by simpa using empty
    exact .inl (by omega)

end Cursor

open Cursor

namespace Scan

mutual

/-- Where an operand is due the loop does what reading an expression does, together with the calls
that wait for a parenthesis to be closed. -/
theorem ends_operandDue (c : Cursor) (ends : c.last.tag = .endOfLine) (depth : Nat) :
    (operandDue depth c).Ends (c.expression.bind (unwind depth)) := by
  rw [expression_eq, operand_eq_tag]
  apply Ends.of_next
  rw [next]
  split
  case isTrue atom =>
    have more := not_isPastEnd ends (by rcases atom with same | same <;> simp [same])
    have shorter := left_next_lt more
    exact ends_operandRead c.next ends depth
  case isFalse =>
  split
  case isTrue signed =>
    have more : ¬ c.isPastEnd = true := fun past => by
      simp [atSignedNumber_of_isPastEnd past] at signed
    have shorter := left_next_lt more
    have onward := c.next.left_next_le
    exact ends_operandRead c.next.next ends depth
  case isFalse =>
  split
  case isTrue opening =>
    have more := not_isPastEnd ends (by simp [opening])
    have shorter := left_next_lt more
    rw [if_neg more]
    have inside := ends_operandDue c.next ends (depth + 1)
    cases read : c.next.expression <;> rw [read] at inside <;> exact inside
  case isFalse => exact ends_ended _
termination_by 2 * c.left + 1
decreasing_by all_goals omega

/-- Behind an operand the loop does what reading the rest of an expression does, together with the
calls that wait. -/
theorem ends_operandRead (c : Cursor) (ends : c.last.tag = .endOfLine) (depth : Nat) :
    (operandRead depth c).Ends (c.expressionTail.bind (unwind depth)) := by
  rw [expressionTail_eq]
  apply Ends.of_next
  rw [next]
  split
  case isTrue operator =>
    have more := not_isPastEnd ends fun same => by simp [same, Tag.isArithmetic] at operator
    have shorter := left_next_lt more
    rw [if_neg more]
    exact ends_operandDue c.next ends depth
  case isFalse =>
  cases depth with
  | zero => exact ends_ended _
  | succ depth =>
    change Ends _ ((c.closeParen.bind expressionTail).bind (unwind depth))
    rw [if_neg (Nat.succ_ne_zero depth), closeParen_eq]
    split
    case isTrue close =>
      have more := not_isPastEnd ends (by simp [close])
      have shorter := left_next_lt more
      rw [close]
      exact ends_operandRead c.next ends depth
    case isFalse noClose =>
      split
      case isTrue stop =>
        rw [stop]
        exact ends_ended _
      case isFalse noStop =>
        split
        · exact absurd ‹_› noClose
        · exact absurd ‹_› noStop
        · exact ends_ended _
termination_by 2 * c.left
decreasing_by all_goals omega

end

end Scan

/-- In a line that ends as lines do, an expression is read at any place by a loop that
counts the open parentheses: the loop comes to an end, and it comes to the same cursor or
the same fault. -/
theorem expression_eq_iff_scan (line : Line)
    (ends : (line.tokens.getLast line.nonempty).tag = .endOfLine) (index : Nat)
    (result : Except Fault Cursor) :
    (Scan.operandDue 0 (line.place index)).Ends result ↔
      result = (line.place index).expression := by
  have loop := Scan.ends_operandDue (line.place index) ends 0
  have all : (line.place index).expression.bind (unwind 0) = (line.place index).expression := by
    cases (line.place index).expression <;> rfl
  rw [all] at loop
  exact ⟨fun h => h.unique loop, fun h => h ▸ loop⟩

/-- Of two parentheses only one is closed when the line ends. -/
theorem expression_eq_iff_scan_unclosed :
    ((Line.ofText 1 "((a+1)*-2").tokens.getLast (Line.ofText 1 "((a+1)*-2").nonempty).tag =
        .endOfLine ∧
      (Scan.operandDue 0 ((Line.ofText 1 "((a+1)*-2").place 0)).Ends (.error .parenthesis) := by
  have ends : ((Line.ofText 1 "((a+1)*-2").tokens.getLast
      (Line.ofText 1 "((a+1)*-2").nonempty).tag = .endOfLine := by
    decide +kernel
  have read : ((Line.ofText 1 "((a+1)*-2").place 0).expression = .error .parenthesis := by
    decide +kernel
  exact ⟨ends, (expression_eq_iff_scan _ ends 0 _).mpr read.symm⟩

end LineBasic
