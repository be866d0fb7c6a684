import LineBasic.Cursor.Condition
import LineBasic.Proofs.Cursor.Expression

/-!
# Conditions are read as they are formed

A condition that begins with a parenthesis is read without knowing whether the
parenthesis encloses the whole comparison or only its first operand. What follows
the first expression tells the two apart: an operator in the first case, the
closing parenthesis in the second.

## Main results

* `OfText.exists_isCondition`: what has been read is a condition.
* `OfText.condition_eq_ok`: a condition is read to its end.
-/

namespace LineBasic.Cursor.OfText

variable {c d : Cursor} {t : Token} {ts us : List Token}

theorem tag_ne_endOfLine_of_isRelational (h : c.tag.isRelational = true) :
    c.tag ≠ .endOfLine := by
  intro same
  rw [same] at h
  exact nomatch h

theorem exists_comparison (h : c.OfText) (read : c.comparison = .ok d) :
    ∃ ts, c.tag.isRelational = true ∧ IsExpression Token.tag Token.Touches ts ∧
      c.Passes (c.token :: ts) d := by
  unfold comparison at read
  split at read
  case isTrue operator =>
    obtain ⟨ts, expression, passes, -⟩ := h.next.exists_isExpression read
    have first := h.passes_next (tag_ne_endOfLine_of_isRelational operator)
    exact ⟨ts, operator, expression, first.cons passes⟩
  case isFalse => exact nomatch read

/-- What has been read after an opening parenthesis completes a condition. -/
theorem exists_parenCondition (h : c.OfText) (read : c.parenCondition = .ok d) :
    ∃ ts, c.Passes ts d ∧
      ∀ t, t.tag = .leftParen → IsCondition Token.tag Token.Touches (t :: ts) := by
  obtain ⟨e, first, read⟩ := bind_eq_ok_iff.mp read
  obtain ⟨ts, left, before, -⟩ := h.exists_isExpression first
  have he := h.of_passes before
  split at read
  case isTrue operator =>
    -- the parenthesis encloses the comparison
    obtain ⟨f, second, close⟩ := bind_eq_ok_iff.mp read
    obtain ⟨us, right, between, -⟩ := he.next.exists_isExpression second
    obtain ⟨closing, rfl⟩ := closeParen_eq_ok_iff.mp close
    have atOperator := he.passes_next (tag_ne_endOfLine_of_isRelational operator)
    have atClosing := (he.next.of_passes between).passes_next (by simp [closing])
    refine ⟨ts ++ (e.token :: us ++ [f.token]), ?_, fun t opening => ?_⟩
    · exact before.trans ((atOperator.cons between).trans atClosing)
    · have whole := IsCondition.group opening left operator right closing
      simpa only [List.cons_append, List.append_assoc] using whole
  case isFalse =>
    -- the parenthesis encloses an operand
    obtain ⟨f, close, read⟩ := bind_eq_ok_iff.mp read
    obtain ⟨closing, rfl⟩ := closeParen_eq_ok_iff.mp close
    obtain ⟨g, tail, read⟩ := bind_eq_ok_iff.mp read
    obtain ⟨us, tail, after, -⟩ := he.next.exists_isTail tail
    obtain ⟨vs, operator, right, last⟩ := (he.next.of_passes after).exists_comparison read
    have atClosing := he.passes_next (by simp [closing])
    refine ⟨ts ++ (e.token :: (us ++ g.token :: vs)), ?_, fun t opening => ?_⟩
    · exact before.trans (atClosing.cons (after.trans last))
    · have operand := IsOperand.group opening left closing
      have whole := IsCondition.comparison (operand.append_tail tail) operator right
      simpa only [List.cons_append, List.nil_append, List.append_assoc] using whole

/-- What has been read as a condition is one. -/
theorem exists_isCondition (h : c.OfText) (read : c.condition = .ok d) :
    ∃ ts, IsCondition Token.tag Token.Touches ts ∧ c.Passes ts d := by
  unfold condition at read
  split at read
  case isTrue literal =>
    obtain rfl := Except.ok.inj read
    exact ⟨[c.token], .literal literal, h.passes_next (by simp [literal])⟩
  case isFalse =>
  split at read
  case isTrue left =>
    obtain ⟨ts, passes, condition⟩ := h.next.exists_parenCondition read
    have opening := h.passes_next (by simp [left])
    exact ⟨c.token :: ts, condition c.token left, opening.cons passes⟩
  case isFalse =>
  split at read
  case isTrue =>
    obtain ⟨e, first, read⟩ := bind_eq_ok_iff.mp read
    obtain ⟨ts, left, before, -⟩ := h.exists_isExpression first
    obtain ⟨us, operator, right, after⟩ := (h.of_passes before).exists_comparison read
    exact ⟨ts ++ e.token :: us, .comparison left operator right, before.trans after⟩
  case isFalse => exact nomatch read

theorem isArithmetic_eq_false_of_isRelational {t : Tag} (h : t.isRelational = true) :
    t.isArithmetic = false := by
  cases t <;> first | rfl | exact nomatch h

/-- A condition that begins with an expression but not with a parenthesis is a
comparison. -/
theorem condition_eq_bind_comparison (starts : c.tag.startsExpression = true)
    (noParen : c.tag ≠ .leftParen) : c.condition = c.expression.bind comparison := by
  have noLiteral : c.tag ≠ .literal := by
    intro same
    rw [same] at starts
    exact nomatch starts
  rw [condition, if_neg noLiteral, if_neg noParen, if_pos starts]

theorem comparison_eq_ok (h : c.OfText) (passes : c.Passes (t :: ts) d)
    (operator : t.tag.isRelational = true) (stop : d.tag.isArithmetic = false)
    (right : IsExpression Token.tag Token.Touches ts) : c.comparison = .ok d := by
  rw [← passes.tag_eq] at operator
  rw [comparison, if_pos operator]
  exact h.next.expression_eq_ok passes.tail stop right

/-- An expression before a comparison operator is read up to the operator. -/
theorem expression_eq_ok_of_isRelational (h : c.OfText) (passes : c.Passes ts d)
    (operator : d.tag.isRelational = true) (left : IsExpression Token.tag Token.Touches ts) :
    c.expression = .ok d :=
  h.expression_eq_ok passes (isArithmetic_eq_false_of_isRelational operator) left

theorem parenCondition_eq {e : Cursor} (first : c.expression = .ok e) :
    c.parenCondition =
      if e.tag.isRelational then e.next.expression.bind closeParen
      else e.closeParen.bind fun f => f.expressionTail.bind comparison := by
  rw [parenCondition, first]
  rfl

/-- A comparison up to a closing parenthesis is read after the opening one. -/
theorem parenCondition_eq_ok_of_comparison {closing : Token} (h : c.OfText)
    (passes : c.Passes (ts ++ t :: (us ++ [closing])) d)
    (left : IsExpression Token.tag Token.Touches ts) (operator : t.tag.isRelational = true)
    (right : IsExpression Token.tag Token.Touches us) (hclosing : closing.tag = .rightParen) :
    c.parenCondition = .ok d := by
  obtain ⟨e, before, after⟩ := passes.exists_between
  obtain ⟨f, between, close⟩ := after.tail.exists_between
  rw [← after.tag_eq] at operator
  rw [← close.tag_eq] at hclosing
  have stop : f.tag.isArithmetic = false := by rw [hclosing]; rfl
  rw [parenCondition_eq (h.expression_eq_ok_of_isRelational before operator left),
    if_pos operator, (h.of_passes before).next.expression_eq_ok between stop right]
  exact closeParen_eq_ok_iff.mpr ⟨hclosing, close.tail.eq_of_nil.symm⟩

/-- The rest of a first operand and then a comparison are read after the opening
parenthesis of the operand. -/
theorem parenCondition_eq_ok_of_operand {closing : Token} {vs : List Token} (h : c.OfText)
    (passes : c.Passes (ts ++ closing :: (us ++ t :: vs)) d)
    (inside : IsExpression Token.tag Token.Touches ts) (hclosing : closing.tag = .rightParen)
    (tail : IsTail Token.tag Token.Touches us) (operator : t.tag.isRelational = true)
    (right : IsExpression Token.tag Token.Touches vs) (stop : d.tag.isArithmetic = false) :
    c.parenCondition = .ok d := by
  obtain ⟨e, before, close⟩ := passes.exists_between
  obtain ⟨f, between, after⟩ := close.tail.exists_between
  rw [← close.tag_eq] at hclosing
  have he := (h.of_passes before).next
  have stopInside : e.tag.isArithmetic = false := by rw [hclosing]; rfl
  have stopLeft : f.tag.isArithmetic = false :=
    isArithmetic_eq_false_of_isRelational (after.tag_eq ▸ operator)
  have noOperator : ¬ e.tag.isRelational = true := by rw [hclosing]; exact Bool.false_ne_true
  rw [parenCondition_eq (h.expression_eq_ok before stopInside inside), if_neg noOperator,
    closeParen_eq_ok_iff.mpr ⟨hclosing, rfl⟩]
  change e.next.expressionTail.bind comparison = .ok d
  rw [he.expressionTail_eq_ok between stopLeft tail]
  exact (he.of_passes between).comparison_eq_ok after operator stop right

theorem condition_eq_parenCondition (opening : c.tag = .leftParen) :
    c.condition = c.next.parenCondition := by
  have noLiteral : c.tag ≠ .literal := by simp [opening]
  rw [condition, if_neg noLiteral, if_pos opening]

/-- A condition that stands at a cursor is read, unless its last expression can be
made longer. -/
theorem condition_eq_ok (h : c.OfText) (passes : c.Passes ts d)
    (stop : d.tag.isArithmetic = false) (condition : IsCondition Token.tag Token.Touches ts) :
    c.condition = .ok d := by
  cases condition with
  | literal literal =>
    rw [← passes.tag_eq] at literal
    rw [Cursor.condition, if_pos literal, passes.tail.eq_of_nil]
  | @comparison t ls rs left operator right =>
    obtain ⟨os, vs, rfl, operand, tail⟩ := isExpression_iff.mp left
    obtain ⟨e, before, after⟩ := passes.exists_between
    -- the first token of the condition tells how it goes on
    cases operand with
    | identifier same | number same | signed same =>
      have starts : c.tag.startsExpression = true ∧ c.tag ≠ .leftParen := by
        rw [before.tag_eq]
        first
          | rw [same]; exact ⟨rfl, nofun⟩
          | rcases same with same | same <;> rw [same] <;> exact ⟨rfl, nofun⟩
      have reached := h.expression_eq_ok_of_isRelational before (after.tag_eq ▸ operator) left
      rw [condition_eq_bind_comparison starts.1 starts.2, reached]
      exact (h.of_passes before).comparison_eq_ok after operator stop right
    | group opening inside closing =>
      simp only [List.cons_append, List.append_assoc, List.nil_append] at passes
      rw [condition_eq_parenCondition (passes.tag_eq.trans opening)]
      exact h.next.parenCondition_eq_ok_of_operand passes.tail inside closing tail operator right
        stop
  | group opening left operator right closing =>
    simp only [List.cons_append, List.append_assoc] at passes
    rw [condition_eq_parenCondition (passes.tag_eq.trans opening)]
    exact h.next.parenCondition_eq_ok_of_comparison passes.tail left operator right closing

end LineBasic.Cursor.OfText
