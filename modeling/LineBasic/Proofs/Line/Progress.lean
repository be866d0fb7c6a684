import LineBasic.Proofs.Cursor.Descent
import LineBasic.Proofs.Line.Place

/-!
# Readings come back, and move on

In every line that ends as lines do, whatever its tokens are otherwise, every reading comes
back from every place. In the tokens of a text a reading that succeeds has moved on, and has
not passed the end of the line.

## Main definitions

* `Line.IsFurther`: whether a cursor is at a later place within a line.

## Main results

* `Cursor.Passes.isFurther`: moving over tokens that do not end the line leads further.
* `readings_return_and_advance`: readings come back, and move on within their line.
-/

namespace LineBasic

section Forms

variable {τ : Type} {tag : τ → Tag} {touches : τ → τ → Prop} {ts : List τ}

theorem IsOperand.ne_nil (h : IsOperand tag touches ts) : ts ≠ [] := by
  cases h <;> simp

theorem IsExpression.ne_nil (h : IsExpression tag touches ts) : ts ≠ [] := by
  cases h with
  | single operand => exact operand.ne_nil
  | chain => simp

theorem IsCondition.ne_nil (h : IsCondition tag touches ts) : ts ≠ [] := by
  cases h <;> simp

end Forms

/-- Whether a cursor is at a place of a line behind a given one, and not behind the last token. -/
def Line.IsFurther (line : Line) (index : Nat) (d : Cursor) : Prop :=
  ∃ index', d = line.place index' ∧ index < index' ∧ index' < line.tokens.length

variable {number : Int} {text : String} {index : Nat} {d : Cursor} {ts : List Token}

theorem length_tokens (number : Int) (text : String) :
    (Line.ofText number text).tokens.length = (contents number text).length + 1 := by
  obtain ⟨p, same, -⟩ := exists_tokenize_eq number text
  rw [Line.ofText_tokens, same, List.length_append, List.length_singleton]

/-- Moving over tokens of which none ends the line leads to a later place within the line. -/
theorem Cursor.Passes.isFurther (h : ((Line.ofText number text).place index).Passes ts d)
    (within : index < (Line.ofText number text).tokens.length) (some : ts ≠ [])
    (inner : ∀ t ∈ ts, t.tag ≠ .endOfLine) : (Line.ofText number text).IsFurther index d := by
  have moved := List.length_pos_iff.mpr some
  rw [length_tokens] at within
  have within' := h.place_le (Nat.le_of_lt_succ within) inner
  refine ⟨index + ts.length, h.eq_place, Nat.lt_add_of_pos_right moved, ?_⟩
  rw [length_tokens]
  exact Nat.lt_succ_of_le within'

theorem tag_ne_endOfLine_of_isInner {t : Tag} (h : t.isInner = true) : t ≠ .endOfLine := by
  rintro rfl
  cases h

theorem tag_ne_endOfLine_of_isPlain {t : Tag} (h : t.isPlain = true) : t ≠ .endOfLine :=
  tag_ne_endOfLine_of_isInner (Tag.isInner_of_isPlain h)

/-- In a line that ends as lines do, whatever else it consists of, every reading comes back
from every place, and from any context, with a result or a fault. In the tokens of a text, a
reading that succeeds leads to a later place that is not behind the token that ends the line;
no arithmetic operator follows an expression, and a statement is followed by a semicolon or by
the end of the line. -/
theorem readings_return_and_advance :
    (∀ line : Line, (line.tokens.getLast line.nonempty).tag = .endOfLine →
      ∀ (index : Nat) (ctx : Context) (depth : Nat), 2 * line.tokens.length + 4 < depth →
        let c := line.place index
        ((Call.expression c).run depth).ComesTo c.expression ∧
        ((Call.operand c).run depth).ComesTo c.operand ∧
        ((Call.expressionTail c).run depth).ComesTo c.expressionTail ∧
        ((Call.closeParen c).run depth).ComesTo c.closeParen ∧
        ((Call.condition c).run depth).ComesTo c.condition ∧
        ((Call.parenCondition c).run depth).ComesTo c.parenCondition ∧
        ((Call.comparison c).run depth).ComesTo c.comparison ∧
        ((Call.statement c ctx).run depth).ComesTo (c.statement ctx) ∧
        ((Call.line line ctx).run depth).ComesTo (line.check ctx)) ∧
    ∀ (number : Int) (text : String) (index : Nat),
      index < (Line.ofText number text).tokens.length →
        let line := Line.ofText number text
        let c := line.place index
        (∀ d, c.expression = .ok d → line.IsFurther index d ∧ d.tag.isArithmetic = false) ∧
        (∀ d, c.operand = .ok d → line.IsFurther index d) ∧
        (∀ d, c.condition = .ok d → line.IsFurther index d) ∧
        ∀ ctx step, c.statement ctx = .ok step → line.IsFurther index step.1 ∧
          (step.1.tag = .semicolon ∨ step.1.tag = .endOfLine) := by
  constructor
  · intro line ends index ctx depth deep c
    have within : c.left ≤ line.tokens.length := by
      simp only [c, Line.place, Cursor.left, List.length_drop]
      omega
    have returns {α : Type} (call : Call α) (ends : call.last.tag = .endOfLine)
        (shallow : call.depth ≤ 2 * line.tokens.length + 4) :
        (call.run depth).ComesTo call.result :=
      Call.run_comesTo call ends (Nat.lt_of_le_of_lt shallow deep)
    refine ⟨returns (.expression c) ends ?_, returns (.operand c) ends ?_,
      returns (.expressionTail c) ends ?_, returns (.closeParen c) ends ?_,
      returns (.condition c) ends ?_, returns (.parenCondition c) ends ?_,
      returns (.comparison c) ends ?_, returns (.statement c ctx) ends ?_,
      returns (.line line ctx) ends ?_⟩ <;> simp only [Call.depth] <;> omega
  · intro number text index within line c
    have h : c.OfText := ofText_place_any number text index
    refine ⟨fun d read => ?_, fun d read => ?_, fun d read => ?_, fun ctx step read => ?_⟩
    · obtain ⟨ts, form, passes, stop⟩ := h.exists_isExpression read
      refine ⟨passes.isFurther within form.ne_nil fun t member => ?_, stop⟩
      exact tag_ne_endOfLine_of_isPlain (form.isPlain t member)
    · obtain ⟨ts, form, passes⟩ := h.exists_isOperand read
      refine passes.isFurther within form.ne_nil fun t member => ?_
      exact tag_ne_endOfLine_of_isPlain (form.isPlain t member)
    · obtain ⟨ts, form, passes⟩ := h.exists_isCondition read
      refine passes.isFurther within form.ne_nil fun t member => ?_
      exact tag_ne_endOfLine_of_isPlain (form.isPlain t member)
    · obtain ⟨ts, form, passes, stop, -⟩ := h.exists_isStatement read
      refine ⟨passes.isFurther within (List.cons_ne_nil _ _) fun t member => ?_, ?_⟩
      · exact tag_ne_endOfLine_of_isInner (form.isInner t member)
      · exact Cursor.OfText.endsStatement_cases stop

/-- Where the last token looks like digits that a sign touches, the expression is read past the
end, and comes back. In a text no token looks like this. -/
theorem readings_return_and_advance_signedEnd :
    let line : Line := ⟨[⟨.plus, "+", ⟨0, 0⟩⟩, ⟨.endOfLine, "5", ⟨0, 1⟩⟩], List.cons_ne_nil _ _⟩
    let line' : Line := .ofText 1 "x = +5"
    (line.tokens.getLast line.nonempty).tag = .endOfLine ∧ 2 * line.tokens.length + 4 < 9 ∧
    ((Call.expression (line.place 0)).run 9).ComesTo (.ok (line.place 2)) ∧
    2 < line'.tokens.length ∧ (line'.place 2).expression = .ok (line'.place 4) ∧
    line'.IsFurther 2 (line'.place 4) := by
  intro line line'
  have ends : (line.tokens.getLast line.nonempty).tag = .endOfLine := rfl
  have deep : 2 * line.tokens.length + 4 < 9 := by decide
  have pastEnd : (line.place 0).expression = .ok (line.place 2) := by decide +kernel
  have within : 2 < line'.tokens.length := by decide +kernel
  have read : (line'.place 2).expression = .ok (line'.place 4) := by decide +kernel
  refine ⟨ends, deep, ?_, within, read, ?_⟩
  · rw [← pastEnd]
    exact (readings_return_and_advance.1 line ends 0 ⟨1, 0⟩ 9 deep).1
  · exact ((readings_return_and_advance.2 1 "x = +5" 2 within).1 _ read).1

end LineBasic
