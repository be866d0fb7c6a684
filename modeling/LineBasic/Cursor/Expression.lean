import LineBasic.Cursor.Basic
import LineBasic.Fault

/-!
# Expressions

An expression is a chain of operands with arithmetic operators between them; all
operators bind alike. An operand is an identifier, a number, a sign that touches
the digits after it, or an expression in parentheses.

Reading an expression moves a cursor to the first token that no longer belongs to
it, or names the fault that stops it. The recursion ends because every operator
and every opening parenthesis leaves fewer tokens to read.

## Main results

* `expression_eq`, `operand_eq`, `expressionTail_eq`: how the three readings are
  made of each other.
* `left_le_of_expression`: reading never moves back.
* `reading_induction`: induction along the three readings.
-/

namespace LineBasic.Cursor

/-- Step over a closing parenthesis, with the proof that the cursor does not move
back. -/
def readCloseParen (c : Cursor) : Except Fault (Onward c) :=
  match c.tag with
  | .rightParen => .ok ⟨c.next, c.left_next_le⟩
  | .endOfLine => .error .parenthesis
  | _ => .error .tail

mutual

/-- Read an expression, with the proof that the cursor does not move back. -/
def readExpression (c : Cursor) : Except Fault (Onward c) :=
  match readOperand c with
  | .error fault => .error fault
  | .ok ⟨d, hd⟩ =>
    match readTail d with
    | .error fault => .error fault
    | .ok ⟨e, he⟩ => .ok ⟨e, Nat.le_trans he hd⟩
-- at one and the same cursor an expression comes before an operand, this before a tail
termination_by 3 * c.left + 2
decreasing_by all_goals omega

/-- Read an operand, with the proof that the cursor does not move back. -/
def readOperand (c : Cursor) : Except Fault (Onward c) :=
  if c.token.kind = .identifier ∨ c.token.kind = .number then .ok ⟨c.next, c.left_next_le⟩
  else if c.atSignedNumber then
    .ok ⟨c.next.next, Nat.le_trans c.next.left_next_le c.left_next_le⟩
  else if c.tag = .leftParen then
    -- past the end a step leaves the cursor where it is, and the recursion would not end
    if _ : c.isPastEnd then .error .operand
    else
      match readExpression c.next with
      | .error fault => .error fault
      | .ok ⟨d, hd⟩ =>
        match readCloseParen d with
        | .error fault => .error fault
        | .ok ⟨e, he⟩ => .ok ⟨e, Nat.le_trans he (Nat.le_trans hd c.left_next_le)⟩
  else .error .operand
termination_by 3 * c.left + 1
decreasing_by
  have := left_next_lt ‹_›
  omega

/-- Read what may follow an operand, with the proof that the cursor does not
move back. -/
def readTail (c : Cursor) : Except Fault (Onward c) :=
  if c.tag.isArithmetic then
    if _ : c.isPastEnd then .error .operand
    else
      match readExpression c.next with
      | .error fault => .error fault
      | .ok ⟨d, hd⟩ => .ok ⟨d, Nat.le_trans hd c.left_next_le⟩
  else .ok ⟨c, Nat.le_refl _⟩
termination_by 3 * c.left
decreasing_by
  have := left_next_lt ‹_›
  omega

end

/-- Step over a closing parenthesis. At the end of the line its absence is a
fault of the parentheses, before it a fault of the expression that they hold. -/
def closeParen (c : Cursor) : Except Fault Cursor :=
  (readCloseParen c).map Subtype.val

/-- Read an expression. -/
def expression (c : Cursor) : Except Fault Cursor :=
  (readExpression c).map Subtype.val

/-- Read an operand. -/
def operand (c : Cursor) : Except Fault Cursor :=
  (readOperand c).map Subtype.val

/-- Read what may follow an operand: an operator and another expression, or
nothing. -/
def expressionTail (c : Cursor) : Except Fault Cursor :=
  (readTail c).map Subtype.val

/-- A reading that comes with the proof that it does not move back does not move
back. -/
private theorem left_le_of_map_val {c d : Cursor} {read : Except Fault (Onward c)}
    (h : read.map Subtype.val = .ok d) : d.left ≤ c.left := by
  cases read with
  | error fault => exact nomatch h
  | ok e => exact Except.ok.inj h ▸ e.property

theorem left_le_of_closeParen {c d : Cursor} (h : c.closeParen = .ok d) : d.left ≤ c.left :=
  left_le_of_map_val h

theorem left_le_of_expression {c d : Cursor} (h : c.expression = .ok d) : d.left ≤ c.left :=
  left_le_of_map_val h

theorem left_le_of_operand {c d : Cursor} (h : c.operand = .ok d) : d.left ≤ c.left :=
  left_le_of_map_val h

theorem left_le_of_expressionTail {c d : Cursor} (h : c.expressionTail = .ok d) :
    d.left ≤ c.left :=
  left_le_of_map_val h

theorem closeParen_eq (c : Cursor) :
    c.closeParen =
      match c.tag with
      | .rightParen => .ok c.next
      | .endOfLine => .error .parenthesis
      | _ => .error .tail := by
  unfold closeParen readCloseParen
  split <;> rfl

/-- An expression is an operand and what may follow it. -/
theorem expression_eq (c : Cursor) :
    c.expression = c.operand.bind expressionTail := by
  unfold expression operand
  rw [readExpression]
  cases readOperand c with
  | error fault => rfl
  | ok d =>
    simp only [Except.map, Except.bind, expressionTail]
    cases readTail d.val <;> rfl

/-- An operand is a name, a number, a signed number, or an expression between
parentheses. Where nothing is left to read, an opening parenthesis begins
nothing. -/
theorem operand_eq (c : Cursor) :
    c.operand =
      if c.token.kind = .identifier ∨ c.token.kind = .number then .ok c.next
      else if c.atSignedNumber then .ok c.next.next
      else if c.tag = .leftParen then
        if c.isPastEnd then .error .operand else c.next.expression.bind closeParen
      else .error .operand := by
  unfold operand expression
  rw [readOperand]
  split
  · rfl
  split
  · rfl
  split
  · split
    · rfl
    · cases readExpression c.next with
      | error fault => rfl
      | ok d =>
        simp only [Except.map, Except.bind, closeParen]
        cases readCloseParen d.val <;> rfl
  · rfl

/-- After an operand, an operator asks for another expression; anything else
ends the expression. -/
theorem expressionTail_eq (c : Cursor) :
    c.expressionTail =
      if c.tag.isArithmetic then if c.isPastEnd then .error .operand else c.next.expression
      else .ok c := by
  unfold expressionTail expression
  rw [readTail]
  split
  · split
    · rfl
    · cases readExpression c.next <;> rfl
  · rfl

/-- What follows for an expression from its operand and what is read behind that, and for
the other two from the expression behind the cursor, holds of the readings at every
cursor. -/
theorem reading_induction (p q r : Cursor → Prop)
    (onExpression : ∀ c, q c → (∀ d, c.operand = .ok d → r d) → p c)
    (onOperand : ∀ c, (¬ c.isPastEnd = true → p c.next) → q c)
    (onTail : ∀ c, (¬ c.isPastEnd = true → p c.next) → r c) (c : Cursor) : p c ∧ q c ∧ r c := by
  -- the expressions behind a cursor settle the operand and the tail at the cursor
  have onLater (d : Cursor) (later : ∀ e, e.left < d.left → p e) : q d ∧ r d :=
    ⟨onOperand d fun more => later _ (left_next_lt more),
      onTail d fun more => later _ (left_next_lt more)⟩
  have all (n : Nat) : ∀ d, d.left = n → p d := by
    induction n using Nat.strongRecOn with
    | ind n ih =>
      rintro d rfl
      refine onExpression d (onLater d fun e less => ih _ less e rfl).1 fun e read => ?_
      have onward := left_le_of_operand read
      exact (onLater e fun f less => ih _ (Nat.lt_of_lt_of_le less onward) f rfl).2
  exact ⟨all _ c rfl, onLater c fun d _ => all _ d rfl⟩

end LineBasic.Cursor
