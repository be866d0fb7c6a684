import LineBasic.Cursor.Expression
import LineBasic.Proofs.Cursor.Basic
import LineBasic.Proofs.Phrase.Basic

/-!
# Expressions are read as they are formed

Reading an expression in the tokens of a text succeeds just when an expression
stands there that cannot be made longer. The reading decides by the next token
alone, and the forms of expressions leave it no other choice.

## Main results

* `OfText.exists_isExpression`: what has been read is an expression.
* `expression_eq_ok`: an expression is read to its end.
-/

namespace LineBasic

/-- Two steps in a row succeed just when each of them does. -/
theorem bind_eq_ok_iff {ε α β : Type} {x : Except ε α} {f : α → Except ε β} {b : β} :
    x.bind f = .ok b ↔ ∃ a, x = .ok a ∧ f a = .ok b := by
  cases x with
  | error e => exact ⟨(nomatch ·), fun ⟨_, same, _⟩ => nomatch same⟩
  | ok a => exact ⟨fun h => ⟨a, rfl, h⟩, fun ⟨_, same, h⟩ => Except.ok.inj same ▸ h⟩

theorem map_eq_ok_iff {ε α β : Type} {x : Except ε α} {f : α → β} {b : β} :
    x.map f = .ok b ↔ ∃ a, x = .ok a ∧ f a = b := by
  cases x with
  | error e => exact ⟨(nomatch ·), fun ⟨_, same, _⟩ => nomatch same⟩
  | ok a => exact ⟨fun h => ⟨a, rfl, Except.ok.inj h⟩,
      fun ⟨_, same, h⟩ => congrArg _ (Except.ok.inj same ▸ h)⟩

theorem map_eq_error_iff {ε α β : Type} {x : Except ε α} {f : α → β} {e : ε} :
    x.map f = .error e ↔ x = .error e := by
  cases x with
  | error e' =>
    constructor
    all_goals exact fun h => congrArg Except.error (Except.error.inj h)
  | ok a => exact ⟨(nomatch ·), (nomatch ·)⟩

theorem Tag.kind_eq_identifier_iff {t : Tag} : t.kind = .identifier ↔ t = .identifier := by
  cases t <;> simp [kind]

theorem Tag.kind_eq_number_iff {t : Tag} : t.kind = .number ↔ t = .number := by
  cases t <;> simp [kind]

namespace Cursor

variable {c d : Cursor} {ts : List Token}

theorem closeParen_eq_ok_iff : c.closeParen = .ok d ↔ c.tag = .rightParen ∧ d = c.next := by
  rw [closeParen_eq]
  split
  case h_1 same => simp [same, eq_comm]
  case h_2 same => simp [same]
  case h_3 other _ => exact ⟨(nomatch ·), fun h => absurd h.1 other⟩

/-- An operand is told by the tag of its first token. -/
theorem operand_eq_tag (c : Cursor) :
    c.operand =
      if c.tag = .identifier ∨ c.tag = .number then .ok c.next
      else if c.atSignedNumber then .ok c.next.next
      else if c.tag = .leftParen then
        if c.isPastEnd then .error .operand else c.next.expression.bind closeParen
      else .error .operand := by
  rw [operand_eq]
  simp only [Token.kind, Tag.kind_eq_identifier_iff, Tag.kind_eq_number_iff]
  rfl

namespace OfText

mutual

/-- What has been read as an expression is one, and it cannot be made longer. -/
theorem exists_isExpression {c d : Cursor} (h : c.OfText) (read : c.expression = .ok d) :
    ∃ ts, IsExpression Token.tag Token.Touches ts ∧ c.Passes ts d ∧
      d.tag.isArithmetic = false := by
  rw [expression_eq, bind_eq_ok_iff] at read
  obtain ⟨e, first, later⟩ := read
  have shorter := left_le_of_operand first
  obtain ⟨ts, operand, passes⟩ := h.exists_isOperand first
  obtain ⟨us, tail, passes', stop⟩ := (h.of_passes passes).exists_isTail later
  exact ⟨ts ++ us, operand.append_tail tail, passes.trans passes', stop⟩
termination_by 3 * c.left + 2
decreasing_by all_goals omega

/-- What has been read as an operand is one. -/
theorem exists_isOperand {c d : Cursor} (h : c.OfText) (read : c.operand = .ok d) :
    ∃ ts, IsOperand Token.tag Token.Touches ts ∧ c.Passes ts d := by
  rw [operand_eq_tag] at read
  split at read
  case isTrue atom =>
    obtain rfl := Except.ok.inj read
    have more : c.tag ≠ .endOfLine := by rcases atom with same | same <;> simp [same]
    refine ⟨[c.token], ?_, h.passes_next more⟩
    rcases atom with same | same
    · exact .identifier same
    · exact .number same
  case isFalse noAtom =>
  split at read
  case isTrue signed =>
    obtain rfl := Except.ok.inj read
    obtain ⟨sign, number, touch⟩ := (h.atSignedNumber_iff fun same => noAtom (.inr same)).mp signed
    have more : c.tag ≠ .endOfLine := by rcases sign with same | same <;> simp [same]
    have more' : c.next.tag ≠ .endOfLine := by simp [number]
    exact ⟨[c.token, c.next.token], .signed sign number touch,
      (h.passes_next more).cons (h.next.passes_next more')⟩
  case isFalse =>
  split at read
  case isTrue left =>
    split at read
    case isTrue => exact nomatch read
    case isFalse notPastEnd =>
      have shorter := left_next_lt notPastEnd
      obtain ⟨e, inside, close⟩ := bind_eq_ok_iff.mp read
      obtain ⟨right, rfl⟩ := closeParen_eq_ok_iff.mp close
      obtain ⟨ts, expression, passes, -⟩ := h.next.exists_isExpression inside
      have opening := h.passes_next (by simp [left])
      have closing := (h.next.of_passes passes).passes_next (by simp [right])
      exact ⟨c.token :: ts ++ [e.token], .group left expression right,
        (opening.cons passes).trans closing⟩
  case isFalse => exact nomatch read
termination_by 3 * c.left + 1
decreasing_by omega

/-- What has been read after an operand may follow it, and nothing else may follow. -/
theorem exists_isTail {c d : Cursor} (h : c.OfText) (read : c.expressionTail = .ok d) :
    ∃ ts, IsTail Token.tag Token.Touches ts ∧ c.Passes ts d ∧ d.tag.isArithmetic = false := by
  rw [expressionTail_eq] at read
  split at read
  case isTrue operator =>
    split at read
    case isTrue => exact nomatch read
    case isFalse notPastEnd =>
      have shorter := left_next_lt notPastEnd
      obtain ⟨ts, expression, passes, stop⟩ := h.next.exists_isExpression read
      have more : c.tag ≠ .endOfLine := fun same => by simp [same, Tag.isArithmetic] at operator
      exact ⟨c.token :: ts, .cons operator expression, (h.passes_next more).cons passes, stop⟩
  case isFalse stop =>
    obtain rfl := Except.ok.inj read
    exact ⟨[], .nil, .refl c, Bool.eq_false_iff.mpr stop⟩
termination_by 3 * c.left
decreasing_by omega

end

mutual

/-- An operand that stands at a cursor is read. -/
theorem operand_eq_ok {c d : Cursor} {ts : List Token} (h : c.OfText) (passes : c.Passes ts d) :
    IsOperand Token.tag Token.Touches ts → c.operand = .ok d
  | .identifier same => by
    rw [operand_eq_tag, if_pos (.inl (passes.tag_eq.trans same)), passes.tail.eq_of_nil]
  | .number same => by
    rw [operand_eq_tag, if_pos (.inr (passes.tag_eq.trans same)), passes.tail.eq_of_nil]
  | .signed sign number touch => by
    rw [← passes.tag_eq] at sign
    rw [← passes.tail.tag_eq] at number
    rw [← passes.token_eq, ← passes.tail.token_eq] at touch
    have noAtom : ¬ (c.tag = .identifier ∨ c.tag = .number) := by
      rcases sign with same | same <;> simp [same]
    -- a sign is an operand only together with the number that it touches
    have signed := (h.atSignedNumber_iff (noAtom ∘ .inr)).mpr ⟨sign, number, touch⟩
    rw [operand_eq_tag, if_neg noAtom, if_pos signed, passes.tail.tail.eq_of_nil]
  | .group left inside right => by
    rw [List.cons_append] at passes
    have left := passes.tag_eq.trans left
    have noAtom : ¬ (c.tag = .identifier ∨ c.tag = .number) := by simp [left]
    have unsigned : ¬ c.atSignedNumber = true := by
      rw [h.atSignedNumber_iff (noAtom ∘ .inr)]
      simp [left]
    obtain ⟨e, before, close⟩ := passes.tail.exists_between
    have right := close.tag_eq.trans right
    -- the expression inside ends at the closing parenthesis
    have stop : e.tag.isArithmetic = false := by rw [right]; rfl
    rw [operand_eq_tag, if_neg noAtom, if_neg unsigned, if_pos left, if_neg passes.not_isPastEnd,
      h.next.expression_eq_ok before stop inside]
    exact closeParen_eq_ok_iff.mpr ⟨right, close.tail.eq_of_nil.symm⟩

/-- An expression that stands at a cursor and cannot be made longer is read. -/
theorem expression_eq_ok {c d : Cursor} {ts : List Token} (h : c.OfText) (passes : c.Passes ts d)
    (stop : d.tag.isArithmetic = false) :
    IsExpression Token.tag Token.Touches ts → c.expression = .ok d
  | .single operand => by
    rw [expression_eq, h.operand_eq_ok passes operand]
    change d.expressionTail = .ok d
    rw [expressionTail_eq, if_neg (Bool.eq_false_iff.mp stop)]
  | .chain operand operator later => by
    obtain ⟨e, before, passes⟩ := passes.exists_between
    rw [expression_eq, h.operand_eq_ok before operand]
    change e.expressionTail = .ok d
    rw [← passes.tag_eq] at operator
    rw [expressionTail_eq, if_pos operator, if_neg passes.not_isPastEnd]
    exact (h.of_passes before).next.expression_eq_ok passes.tail stop later

end

/-- What stands after an operand and cannot be made longer is read. -/
theorem expressionTail_eq_ok (h : c.OfText) (passes : c.Passes ts d)
    (stop : d.tag.isArithmetic = false) (tail : IsTail Token.tag Token.Touches ts) :
    c.expressionTail = .ok d := by
  rw [expressionTail_eq]
  cases tail with
  | nil =>
    obtain rfl := passes.eq_of_nil
    rw [if_neg (Bool.eq_false_iff.mp stop)]
  | cons operator later =>
    rw [← passes.tag_eq] at operator
    rw [if_pos operator, if_neg passes.not_isPastEnd]
    exact h.next.expression_eq_ok passes.tail stop later

end OfText

end Cursor

end LineBasic
