import LineBasic.Context
import LineBasic.Cursor.Condition

/-!
# Statements

There are eleven statements: the assignment and one for each keyword. A
statement is over at a semicolon or at the end of the line. Besides moving the
cursor, `while` opens a loop and `endwhile` closes one.

## Main results

* `left_le_of_statement`: reading never moves back.
-/

namespace LineBasic.Cursor

/-- Check that a statement is over. -/
def endOfStatement (c : Cursor) (ctx : Context) : Except Fault (Cursor × Context) :=
  if c.tag.endsStatement then .ok (c, ctx) else .error .statement

/-- Check that a statement is over after the expression or condition it ends
with. A closing parenthesis left over is a fault of the parentheses. -/
def endOfExpression (reading : Except Fault Cursor) (ctx : Context) :
    Except Fault (Cursor × Context) := do
  let c ← reading
  if c.tag.endsStatement then .ok (c, ctx)
  else if c.tag = .rightParen then .error .parenthesis
  else .error .tail

/-- Read a statement. No loop can be closed while none is open. -/
def statement (c : Cursor) (ctx : Context) : Except Fault (Cursor × Context) :=
  match c.tag with
  | .identifier =>
    if c.next.tag = .equals then endOfExpression c.next.next.expression ctx
    else .error .statement
  | .ifWord => endOfExpression c.next.condition ctx
  -- the loop counts as open from here on; nothing in its condition can tell
  | .whileWord => endOfExpression c.next.condition ctx.openLoop
  | .endwhileWord =>
    if ctx.openLoops = 0 then .error .unopenedLoop else c.next.endOfStatement ctx.closeLoop
  | .readWord | .gotoWord | .gosubWord =>
    if c.next.tag = .identifier then c.next.next.endOfStatement ctx else .error .statement
  | .writeWord => endOfExpression c.next.expression ctx
  | .returnWord | .breakWord | .endWord => c.next.endOfStatement ctx
  | _ => .error .statement

theorem endOfStatement_eq_ok_iff {c : Cursor} {ctx : Context} {step : Cursor × Context} :
    c.endOfStatement ctx = .ok step ↔ c.tag.endsStatement = true ∧ step = (c, ctx) := by
  unfold endOfStatement
  split
  case isTrue stop => simp [stop, eq_comm]
  case isFalse more => simp [more]

theorem endOfExpression_ok (c : Cursor) (ctx : Context) :
    endOfExpression (.ok c) ctx =
      if c.tag.endsStatement then .ok (c, ctx)
      else if c.tag = .rightParen then .error .parenthesis
      else .error .tail := rfl

theorem endOfExpression_eq_ok_iff {reading : Except Fault Cursor} {ctx : Context}
    {step : Cursor × Context} :
    endOfExpression reading ctx = .ok step ↔
      reading = .ok step.1 ∧ step.1.tag.endsStatement = true ∧ step.2 = ctx := by
  cases reading with
  | error fault => exact ⟨(nomatch ·), fun h => nomatch h.1⟩
  | ok e =>
    rw [endOfExpression_ok]
    constructor
    · intro h
      split at h
      case isTrue stop =>
        obtain rfl := Except.ok.inj h
        exact ⟨rfl, stop, rfl⟩
      case isFalse => split at h <;> exact nomatch h
    · rintro ⟨reached, stop, rfl⟩
      obtain rfl := Except.ok.inj reached
      rw [if_pos stop]

theorem left_le_of_statement {c : Cursor} {ctx : Context} {step : Cursor × Context}
    (h : c.statement ctx = .ok step) : step.1.left ≤ c.left := by
  have next₁ := c.left_next_le
  have next₂ := c.next.left_next_le
  unfold statement at h
  split at h
  · split at h
    · have := left_le_of_expression (endOfExpression_eq_ok_iff.mp h).1
      omega
    · exact nomatch h
  · have := left_le_of_condition (endOfExpression_eq_ok_iff.mp h).1
    omega
  · have := left_le_of_condition (endOfExpression_eq_ok_iff.mp h).1
    omega
  · split at h
    · exact nomatch h
    · obtain ⟨-, rfl⟩ := endOfStatement_eq_ok_iff.mp h
      exact next₁
  iterate 3
    · split at h
      · obtain ⟨-, rfl⟩ := endOfStatement_eq_ok_iff.mp h
        exact Nat.le_trans next₂ next₁
      · exact nomatch h
  · have := left_le_of_expression (endOfExpression_eq_ok_iff.mp h).1
    omega
  iterate 3
    · obtain ⟨-, rfl⟩ := endOfStatement_eq_ok_iff.mp h
      exact next₁
  · exact nomatch h

/-- Read the statements of a line, separated by semicolons, each in the context
that the one before it leaves. -/
def statements (c : Cursor) (ctx : Context) : Except Fault Context :=
  match _ : c.statement ctx with
  | .error fault => .error fault
  | .ok step =>
    if step.1.tag = .semicolon then
      if _ : step.1.isPastEnd then .error .statement else statements step.1.next step.2
    else .ok step.2
termination_by c.left
decreasing_by exact Nat.lt_of_lt_of_le (left_next_lt ‹_›) (left_le_of_statement ‹_›)

theorem statements_eq (c : Cursor) (ctx : Context) :
    c.statements ctx =
      (c.statement ctx).bind fun step =>
        if step.1.tag = .semicolon then
          if step.1.isPastEnd then .error .statement else step.1.next.statements step.2
        else .ok step.2 := by
  rw [statements]
  split <;> rename_i h <;> rw [h] <;> rfl

end LineBasic.Cursor
