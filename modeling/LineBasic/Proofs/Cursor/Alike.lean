import LineBasic.Cursor.Statement
import LineBasic.Proofs.Cursor.Expression
import LineBasic.Proofs.Token.Shape

/-!
# Lines of one shape are read alike

Reading looks at nothing but the shape of what is left of a line. Two cursors in the
tokens of two texts, with the same shape before them, are therefore moved in step: a
reading fails at both with the same fault, or it leaves them with the same shape before
them again. The fault is one that can be seen in a line alone, whatever program the line
stands in.

## Main definitions

* `Fault.isOfLine`: whether a line can have a fault.
* `Agree`: whether two readings fail with the same fault or come to related results.
* `Cursor.Alike`: whether two cursors have the same shape before them.

## Main results

* `Cursor.Alike.atSignedNumber_eq`: signed numbers are part of the shape.
* `Cursor.Alike.reading`, `Cursor.Alike.condition`, `Cursor.Alike.statement`,
  `Cursor.Alike.statements`: each reading moves cursors alike in step.
-/

namespace LineBasic

/-- Whether a line can have the fault. Whether the end marker is missing, and whether a
loop is still open when it comes, is not known before the whole program has been read. -/
def Fault.isOfLine : Fault → Bool
  | sentinel | unclosedLoop | described _ _ => false
  | _ => true

/-- Whether two readings fail with the same fault of a line or come to related results. -/
inductive Agree {α : Type} (related : α → α → Prop) : Except Fault α → Except Fault α → Prop
  | ok {a b : α} (h : related a b) : Agree related (.ok a) (.ok b)
  | error {fault : Fault} (h : fault.isOfLine = true) : Agree related (.error fault) (.error fault)

namespace Agree

variable {α β : Type} {related : α → α → Prop} {related' : β → β → Prop}
  {x y : Except Fault α} {f g : α → Except Fault β}

/-- Two readings in a row agree if the second ones do after related results. -/
theorem bind (h : Agree related x y)
    (later : ∀ a b, x = .ok a → related a b → Agree related' (f a) (g b)) :
    Agree related' (x.bind f) (y.bind g) := by
  cases h with
  | ok h => exact later _ _ rfl h
  | error ofLine => exact .error ofLine

theorem eq (h : Agree Eq x y) : x = y := by
  cases h with
  | ok h => rw [h]
  | error => rfl

theorem isOfLine {fault : Fault} (h : Agree related (.error fault) y) : fault.isOfLine = true := by
  cases h with
  | error ofLine => exact ofLine

end Agree

namespace Cursor

/-- Whether two cursors in the tokens of texts have the same shape before them. -/
structure Alike (c d : Cursor) : Prop where
  left : c.OfText
  right : d.OfText
  tags : c.rest.map Token.tag = d.rest.map Token.tag
  signed : ∀ i, isSignedAt c.rest i = isSignedAt d.rest i

/-- A signed number at a cursor begins in the first place before it. -/
theorem OfText.atSignedNumber_eq {c : Cursor} (h : c.OfText) (notNumber : c.tag ≠ .number) :
    c.atSignedNumber = isSignedAt c.rest 0 := by
  rw [Bool.eq_iff_iff, h.atSignedNumber_iff notNumber]
  obtain ⟨p, last⟩ := h.last
  cases rest : c.rest with
  | nil => simp [tag, token, isSignedAt, rest, last, Token.endOfLine]
  | cons t ts =>
    cases ts with
    | nil => simp [tag, token, Cursor.next, isSignedAt, rest, last, Token.endOfLine]
    | cons u ts => simp [tag, token, Cursor.next, isSignedAt, rest]

namespace Alike

variable {c d : Cursor} {ctx : Context}

theorem next (h : c.Alike d) : c.next.Alike d.next where
  left := h.left.next
  right := h.right.next
  tags := by
    rw [Cursor.next, Cursor.next, List.map_tail, List.map_tail, h.tags]
  signed i := by
    rw [Cursor.next, Cursor.next, isSignedAt_tail, isSignedAt_tail, h.signed]

theorem tag_eq (h : c.Alike d) : c.tag = d.tag := by
  obtain ⟨p, last⟩ := h.left.last
  obtain ⟨q, last'⟩ := h.right.last
  have tags := h.tags
  cases rest : c.rest <;> cases rest' : d.rest <;> simp_all [tag, token, Token.endOfLine]

theorem isPastEnd_eq (h : c.Alike d) : c.isPastEnd = d.isPastEnd := by
  rw [isPastEnd, isPastEnd, ← List.isEmpty_map, h.tags, List.isEmpty_map]

theorem atSignedNumber_eq (h : c.Alike d) (notNumber : c.tag ≠ .number) :
    c.atSignedNumber = d.atSignedNumber := by
  rw [h.left.atSignedNumber_eq notNumber, h.right.atSignedNumber_eq (h.tag_eq ▸ notNumber),
    h.signed]

theorem closeParen (h : c.Alike d) : Agree Alike c.closeParen d.closeParen := by
  rw [closeParen_eq, closeParen_eq, ← h.tag_eq]
  split
  · exact .ok h.next
  · exact .error rfl
  · exact .error rfl

/-- Expressions, operands and what may follow them are read alike. -/
theorem reading (h : c.Alike d) : Agree Alike c.expression d.expression ∧
    Agree Alike c.operand d.operand ∧ Agree Alike c.expressionTail d.expressionTail := by
  have all := reading_induction
    (fun c => ∀ d, c.Alike d → Agree Alike c.expression d.expression)
    (fun c => ∀ d, c.Alike d → Agree Alike c.operand d.operand)
    (fun c => ∀ d, c.Alike d → Agree Alike c.expressionTail d.expressionTail)
    (fun c first later d h => ?_) (fun c inside d h => ?_) (fun c later d h => ?_) c
  · exact ⟨all.1 d h, all.2.1 d h, all.2.2 d h⟩
  · rw [expression_eq, expression_eq]
    exact (first d h).bind fun a b read alike => later a read b alike
  · rw [operand_eq_tag, operand_eq_tag, ← h.tag_eq, ← h.isPastEnd_eq]
    split
    · exact .ok h.next
    case isFalse noAtom =>
      rw [← h.atSignedNumber_eq (noAtom ∘ .inr)]
      split
      · exact .ok h.next.next
      split
      · split
        · exact .error rfl
        case isFalse more => exact (inside more _ h.next).bind fun a b _ alike => alike.closeParen
      · exact .error rfl
  · rw [expressionTail_eq, expressionTail_eq, ← h.tag_eq, ← h.isPastEnd_eq]
    split
    · split
      · exact .error rfl
      case isFalse more => exact later more _ h.next
    · exact .ok h

theorem expression (h : c.Alike d) : Agree Alike c.expression d.expression :=
  h.reading.1

theorem comparison (h : c.Alike d) : Agree Alike c.comparison d.comparison := by
  rw [Cursor.comparison, Cursor.comparison, ← h.tag_eq]
  split
  · exact h.next.expression
  · exact .error rfl

theorem parenCondition (h : c.Alike d) : Agree Alike c.parenCondition d.parenCondition := by
  refine h.expression.bind fun a b _ alike => ?_
  rw [← alike.tag_eq]
  split
  · exact alike.next.expression.bind fun _ _ _ alike => alike.closeParen
  · exact alike.closeParen.bind fun _ _ _ alike =>
      alike.reading.2.2.bind fun _ _ _ alike => alike.comparison

theorem condition (h : c.Alike d) : Agree Alike c.condition d.condition := by
  rw [Cursor.condition, Cursor.condition, ← h.tag_eq]
  split
  · exact .ok h.next
  split
  · exact h.next.parenCondition
  split
  · exact h.expression.bind fun _ _ _ alike => alike.comparison
  · exact .error rfl

/-- Whether two statements have been read up to places that are alike, and leave the same
context. -/
def Together (step step' : Cursor × Context) : Prop :=
  step.1.Alike step'.1 ∧ step.2 = step'.2

theorem endOfStatement (h : c.Alike d) :
    Agree Together (c.endOfStatement ctx) (d.endOfStatement ctx) := by
  rw [Cursor.endOfStatement, Cursor.endOfStatement, ← h.tag_eq]
  split
  · exact .ok ⟨h, rfl⟩
  · exact .error rfl

theorem endOfExpression {x y : Except Fault Cursor} (h : Agree Alike x y) :
    Agree Together (Cursor.endOfExpression x ctx) (Cursor.endOfExpression y ctx) := by
  refine h.bind fun a b _ alike => ?_
  rw [← alike.tag_eq]
  split
  · exact .ok ⟨alike, rfl⟩
  split
  · exact .error rfl
  · exact .error rfl

theorem statement (h : c.Alike d) : Agree Together (c.statement ctx) (d.statement ctx) := by
  rw [Cursor.statement, Cursor.statement, ← h.tag_eq, ← h.next.tag_eq]
  split
  · split
    · exact endOfExpression h.next.next.expression
    · exact .error rfl
  · exact endOfExpression h.next.condition
  · exact endOfExpression h.next.condition
  · split
    · exact .error rfl
    · exact h.next.endOfStatement
  -- the words before a name
  iterate 3
    · split
      · exact h.next.next.endOfStatement
      · exact .error rfl
  · exact endOfExpression h.next.expression
  -- the words that stand alone
  iterate 3
    · exact h.next.endOfStatement
  · exact .error rfl

/-- The statements of a line are read alike to its end. -/
theorem statements {c d : Cursor} {ctx : Context} (h : c.Alike d) :
    Agree Eq (c.statements ctx) (d.statements ctx) := by
  rw [Cursor.statements_eq, Cursor.statements_eq]
  refine h.statement.bind fun step step' read => ?_
  rintro ⟨alike, same⟩
  rw [← same, ← alike.tag_eq, ← alike.isPastEnd_eq]
  split
  · split
    · exact .error rfl
    case isFalse more =>
      have shorter := left_next_lt more
      have onward := left_le_of_statement read
      exact alike.next.statements
  · exact .ok rfl
termination_by c.left

end Alike

end Cursor

end LineBasic
