import LineBasic.Cursor.Expression

/-!
# Conditions

A condition is a truth value, a comparison of two expressions, or such a
comparison in parentheses. An opening parenthesis may therefore open either the
whole comparison or its first operand; which of the two it is shows only after
the first expression, by what follows it.

## Main results

* `left_le_of_condition`: reading never moves back.
-/

namespace LineBasic.Cursor

/-- Read a comparison from its operator on. -/
def comparison (c : Cursor) : Except Fault Cursor :=
  if c.tag.isRelational then c.next.expression else .error .comparison

/-- Read a condition after its opening parenthesis: a comparison and the closing
parenthesis, or the rest of the first operand and then the comparison. -/
def parenCondition (c : Cursor) : Except Fault Cursor := do
  let first ← c.expression
  if first.tag.isRelational then
    -- the parenthesis holds the whole comparison
    let second ← first.next.expression
    second.closeParen
  else
    -- the parenthesis holds the first operand only
    let closed ← first.closeParen
    let left ← closed.expressionTail
    left.comparison

/-- Read a condition. -/
def condition (c : Cursor) : Except Fault Cursor :=
  if c.tag = .literal then .ok c.next
  else if c.tag = .leftParen then c.next.parenCondition
  else if c.tag.startsExpression then c.expression.bind comparison
  else .error .condition

/-- Two readings in a row do not move back if neither does. -/
private theorem left_le_of_bind {c d : Cursor} {first : Except Fault Cursor}
    {second : Cursor → Except Fault Cursor} (h : first.bind second = .ok d)
    (hfirst : ∀ e, first = .ok e → e.left ≤ c.left)
    (hsecond : ∀ e, second e = .ok d → d.left ≤ e.left) : d.left ≤ c.left := by
  cases first with
  | error fault => exact nomatch h
  | ok e => exact Nat.le_trans (hsecond e h) (hfirst e rfl)

theorem left_le_of_comparison {c d : Cursor} (h : c.comparison = .ok d) : d.left ≤ c.left := by
  unfold comparison at h
  split at h
  · exact Nat.le_trans (left_le_of_expression h) c.left_next_le
  · exact nomatch h

theorem left_le_of_parenCondition {c d : Cursor} (h : c.parenCondition = .ok d) :
    d.left ≤ c.left := by
  refine left_le_of_bind h (fun _ => left_le_of_expression) fun first h => ?_
  split at h
  · refine Nat.le_trans ?_ first.left_next_le
    exact left_le_of_bind h (fun _ => left_le_of_expression) fun _ => left_le_of_closeParen
  · exact left_le_of_bind h (fun _ => left_le_of_closeParen) fun _ h =>
      left_le_of_bind h (fun _ => left_le_of_expressionTail) fun _ => left_le_of_comparison

theorem left_le_of_condition {c d : Cursor} (h : c.condition = .ok d) : d.left ≤ c.left := by
  unfold condition at h
  split at h
  · obtain rfl := Except.ok.inj h
    exact c.left_next_le
  split at h
  · exact Nat.le_trans (left_le_of_parenCondition h) c.left_next_le
  split at h
  · exact left_le_of_bind h (fun _ => left_le_of_expression) fun _ => left_le_of_comparison
  · exact nomatch h

end LineBasic.Cursor
