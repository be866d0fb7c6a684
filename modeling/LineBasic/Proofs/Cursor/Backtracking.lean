import LineBasic.Proofs.Line.Place

/-!
# Conditions are read without trying

A condition that begins with a parenthesis could be read by trying: as a comparison whose left
side begins with a group, or else as a comparison that stands in parentheses. The reading of
conditions never goes back. It reads what the parenthesis holds once, and the token behind it
decides between the two ways, of which at most one leads to an end.

## Main definitions

* `Cursor.ReadsComparison`, `Cursor.ReadsGroup`: the two ways.

## Main results

* `OfText.condition_eq_ok_iff`: reading a condition leads to where one of the ways does.
* `OfText.not_readsGroup_of_readsComparison`: the ways exclude each other.
* `condition_reads_one_alternative`: both at every place in the tokens of a text.
-/

namespace LineBasic

namespace Cursor

/-- Whether a comparison of two expressions is read from one cursor to another. -/
def ReadsComparison (c d : Cursor) : Prop :=
  ∃ operator, c.expression = .ok operator ∧ operator.tag.isRelational = true ∧
    operator.next.expression = .ok d

/-- Whether a comparison in parentheses is read from one cursor to another. -/
def ReadsGroup (c d : Cursor) : Prop :=
  c.tag = .leftParen ∧
    ∃ closing, c.next.ReadsComparison closing ∧ closing.tag = .rightParen ∧ d = closing.next

variable {c d d' : Cursor}

theorem comparison_eq_ok_iff :
    c.comparison = .ok d ↔ c.tag.isRelational = true ∧ c.next.expression = .ok d := by
  unfold comparison
  split
  case isTrue operator => exact (and_iff_right operator).symm
  case isFalse noOperator => exact ⟨(nomatch ·), fun h => absurd h.1 noOperator⟩

/-- A comparison is an expression and what is read from the operator on. -/
theorem readsComparison_iff : c.ReadsComparison d ↔ c.expression.bind comparison = .ok d := by
  simp only [ReadsComparison, bind_eq_ok_iff, comparison_eq_ok_iff]

/-- What a comparison in parentheses depends on is what follows its first expression. -/
theorem readsGroup_iff : c.ReadsGroup d ↔ c.tag = .leftParen ∧
    ∃ e, c.next.expression = .ok e ∧ e.tag.isRelational = true ∧
      e.next.expression.bind closeParen = .ok d := by
  simp only [ReadsGroup, ReadsComparison, bind_eq_ok_iff, closeParen_eq_ok_iff]
  refine and_congr_right fun opening => ?_
  constructor
  · rintro ⟨closing, ⟨e, first, operator, second⟩, close⟩
    exact ⟨e, first, operator, closing, second, close⟩
  · rintro ⟨e, first, operator, closing, second, close⟩
    exact ⟨closing, ⟨e, first, operator, second⟩, close⟩

theorem parenCondition_eq_ok_iff : c.parenCondition = .ok d ↔
    ∃ e, c.expression = .ok e ∧
      (if e.tag.isRelational then e.next.expression.bind closeParen
        else e.closeParen.bind fun f => f.expressionTail.bind comparison) = .ok d :=
  bind_eq_ok_iff

/-- A closing parenthesis is no operator. -/
theorem not_isRelational_of_closeParen (h : c.closeParen = .ok d) :
    ¬ c.tag.isRelational = true := by
  rw [(closeParen_eq_ok_iff.mp h).1]
  exact Bool.false_ne_true

namespace OfText

/-- An operand that begins with a parenthesis is read up to the closing one. -/
theorem operand_eq_of_leftParen (h : c.OfText) (opening : c.tag = .leftParen) :
    c.operand = c.next.expression.bind closeParen := by
  have noAtom : ¬ (c.tag = .identifier ∨ c.tag = .number) := by simp [opening]
  have unsigned : ¬ c.atSignedNumber = true := by
    rw [h.atSignedNumber_iff (noAtom ∘ .inr)]
    simp [opening]
  have more := (h.passes_next (by simp [opening])).not_isPastEnd
  rw [operand_eq_tag, if_neg noAtom, if_neg unsigned, if_pos opening, if_neg more]

/-- A comparison whose left side begins with a group depends on what follows the expression
in the group. -/
theorem readsComparison_iff_of_leftParen (h : c.OfText) (opening : c.tag = .leftParen) :
    c.ReadsComparison d ↔ ∃ e, c.next.expression = .ok e ∧
      (e.closeParen.bind fun f => f.expressionTail.bind comparison) = .ok d := by
  rw [readsComparison_iff, expression_eq, h.operand_eq_of_leftParen opening, ← bind_eq_ok_iff]
  cases c.next.expression with
  | error fault => rfl
  | ok e =>
    change (e.closeParen.bind expressionTail).bind comparison = _ ↔
      (e.closeParen.bind fun f => f.expressionTail.bind comparison) = _
    cases e.closeParen <;> rfl

/-- An expression that can be read begins with a token that can begin one. -/
theorem startsExpression_of_expression (h : c.OfText) (read : c.expression = .ok d) :
    c.tag.startsExpression = true := by
  rw [expression_eq, bind_eq_ok_iff] at read
  obtain ⟨e, operand, -⟩ := read
  rw [operand_eq_tag] at operand
  split at operand
  case isTrue atom => rcases atom with same | same <;> rw [same] <;> rfl
  case isFalse noAtom =>
  split at operand
  case isTrue signed =>
    obtain ⟨sign, -⟩ := (h.atSignedNumber_iff (noAtom ∘ .inr)).mp signed
    rcases sign with same | same <;> rw [same] <;> rfl
  case isFalse =>
  split at operand
  case isTrue opening => rw [opening]; rfl
  case isFalse => cases operand

/-- The two ways exclude each other. -/
theorem not_readsGroup_of_readsComparison (h : c.OfText) (comparison : c.ReadsComparison d) :
    ¬ c.ReadsGroup d' := by
  intro group
  obtain ⟨opening, e, first, operator, -⟩ := readsGroup_iff.mp group
  obtain ⟨e', first', later⟩ := (h.readsComparison_iff_of_leftParen opening).mp comparison
  obtain rfl := Except.ok.inj (first.symm.trans first')
  obtain ⟨f, close, -⟩ := bind_eq_ok_iff.mp later
  exact not_isRelational_of_closeParen close operator

/-- Reading a condition that is no truth value leads to where one of the ways does. -/
theorem condition_eq_ok_iff (h : c.OfText) (noLiteral : c.tag ≠ .literal) :
    c.condition = .ok d ↔ c.ReadsComparison d ∨ c.ReadsGroup d := by
  by_cases opening : c.tag = .leftParen
  · rw [condition_eq_parenCondition opening, parenCondition_eq_ok_iff,
      h.readsComparison_iff_of_leftParen opening, readsGroup_iff, and_iff_right opening]
    -- both ways read the same first expression, and what follows it decides
    constructor
    · rintro ⟨e, first, later⟩
      split at later
      case isTrue operator => exact .inr ⟨e, first, operator, later⟩
      case isFalse => exact .inl ⟨e, first, later⟩
    · rintro (⟨e, first, later⟩ | ⟨e, first, operator, later⟩)
      · obtain ⟨f, close, -⟩ := bind_eq_ok_iff.mp later
        exact ⟨e, first, by rwa [if_neg (not_isRelational_of_closeParen close)]⟩
      · exact ⟨e, first, by rwa [if_pos operator]⟩
  · have noGroup : ¬ c.ReadsGroup d := fun group => opening group.1
    rw [or_iff_left noGroup, readsComparison_iff, condition, if_neg noLiteral, if_neg opening]
    split
    case isTrue => exact Iff.rfl
    case isFalse noStart =>
      constructor
      · intro read
        cases read
      · intro read
        obtain ⟨e, first, -⟩ := bind_eq_ok_iff.mp read
        exact absurd (h.startsExpression_of_expression first) noStart

end OfText

end Cursor

/-- At every place in the tokens of a text, a truth value is a condition. Any other condition is
read just as one of the two ways reads it, at most one of them succeeds, and the reading fails
just when both do. -/
theorem condition_reads_one_alternative (number : Int) (text : String) (index : Nat) :
    let c := (Line.ofText number text).place index
    (c.tag = .literal → c.condition = .ok c.next) ∧
    (c.tag ≠ .literal →
      ¬ ((∃ d, c.ReadsComparison d) ∧ ∃ d, c.ReadsGroup d) ∧
      (∀ d, c.condition = .ok d ↔ c.ReadsComparison d ∨ c.ReadsGroup d) ∧
      ((∃ fault, c.condition = .error fault) ↔
        ¬ ((∃ d, c.ReadsComparison d) ∨ ∃ d, c.ReadsGroup d))) := by
  intro c
  have h : c.OfText := ofText_place_any number text index
  refine ⟨fun literal => ?_, fun noLiteral => ⟨?_, fun d => h.condition_eq_ok_iff noLiteral, ?_⟩⟩
  · rw [Cursor.condition, if_pos literal]
  · rintro ⟨⟨d, comparison⟩, d', group⟩
    exact h.not_readsGroup_of_readsComparison comparison group
  · have succeeds : (∃ d, c.condition = .ok d) ↔
        (∃ d, c.ReadsComparison d) ∨ ∃ d, c.ReadsGroup d := by
      rw [← exists_or]
      exact exists_congr fun d => h.condition_eq_ok_iff noLiteral
    rw [← succeeds]
    cases c.condition with
    | error fault => simp
    | ok d => simp

end LineBasic
