import LineBasic.Proofs.Cursor.Counter
import LineBasic.Proofs.Cursor.Statement
import LineBasic.Proofs.Diagnosis.Stage

/-!
# Reading the statements of a line is running through its tokens

At every stage of a line it is settled what is left to read of it. Reading this takes one token
at a time: it moves on to what is left at the next stage, or it fails with the fault of the
token. Nothing of the calls that the reading is made of shows but the stage.

## Main definitions

* `Stage.readRest`: what is left to read of a line.

## Main results

* `OfText.readRest_eq`: one token of what is left.
* `OfText.readRest_eq_run`: all of what is left, token by token.
-/

namespace LineBasic

open Cursor

namespace Cursor

/-- Read what follows a statement. -/
def readFurther (reading : Except Fault (Cursor × Context)) : Except Fault Context :=
  reading.bind fun step =>
    if step.1.tag = .semicolon then
      if step.1.isPastEnd then .error .statement else step.1.next.statements step.2
    else .ok step.2

/-- Read what follows an expression or a condition with which a statement ends. -/
def readBehind (reading : Except Fault Cursor) (ctx : Context) : Except Fault Context :=
  readFurther (endOfExpression reading ctx)

end Cursor

/-- Read what is left of a condition behind one of its expressions, of which some parentheses are
open. -/
def Site.readRest (site : Site) (depth : Nat) (c : Cursor) : Except Fault Cursor :=
  (c.unwind depth).bind fun d =>
    match site with
    | .final => .ok d
    | .left => d.comparison
    | .group =>
      if d.tag.isRelational then d.next.expression.bind closeParen
      else d.closeParen.bind fun e => e.expressionTail.bind comparison
    | .groupRight => d.closeParen

/-- Read what is left of a line at a stage. -/
def Stage.readRest (stage : Stage) (ctx : Context) (c : Cursor) : Except Fault Context :=
  match stage with
  | statementDue => c.statements ctx
  | equalsDue => if c.tag = .equals then readBehind c.next.expression ctx else .error .statement
  | nameDue =>
    if c.tag = .identifier then readFurther (c.next.endOfStatement ctx) else .error .statement
  | statementRead => readFurther (c.endOfStatement ctx)
  | conditionDue => readBehind c.condition ctx
  | operandDue site depth => readBehind (c.expression.bind (site.readRest depth)) ctx
  | numberDue site depth signColumn =>
    if c.tag = .number ∧ c.token.position.column = signColumn + 1 then
      readBehind (c.next.expressionTail.bind (site.readRest depth)) ctx
    else .error .operand
  | operandRead site depth => readBehind (c.expressionTail.bind (site.readRest depth)) ctx
  | conditionRead => readBehind (.ok c) ctx
  | lineRead => if c.isPastEnd then .ok ctx else .error .statement

variable {c : Cursor} {ctx : Context} {site : Site} {depth : Nat} {stage : Stage} {fault : Fault}

namespace Cursor

/-- Read what is left of a line behind the token at a cursor. -/
def readOn (c : Cursor) (ctx : Context) (stage : Except Fault Stage) : Except Fault Context :=
  stage.bind fun stage => stage.readRest ctx c.next

theorem closeParen_eq_ite (c : Cursor) :
    c.closeParen = if c.tag = .rightParen then .ok c.next else .error c.tag.unclosedFault := by
  rw [closeParen_eq]
  cases c.tag <;> rfl

theorem endOfExpression_ok_eq_ite (c : Cursor) (ctx : Context) :
    endOfExpression (.ok c) ctx =
      if c.tag.endsStatement then .ok (c, ctx) else .error c.tag.strayFault := by
  rw [endOfExpression_ok]
  cases c.tag <;> rfl

theorem bind_readRest_final (reading : Except Fault Cursor) :
    reading.bind (Site.final.readRest 0) = reading := by
  cases reading <;> rfl

/-- Inside a parenthesis it is left to close it and to go on as at a place outside. -/
theorem readRest_succ (site : Site) (depth : Nat) (c : Cursor) :
    site.readRest (depth + 1) c =
      (c.closeParen.bind expressionTail).bind (site.readRest depth) := by
  change ((c.closeParen.bind expressionTail).bind (unwind depth)).bind _ = _
  cases c.closeParen.bind expressionTail <;> rfl

namespace OfText

/-- Behind the token that ends the line nothing is left, and behind any other something is. -/
theorem isPastEnd_next_iff (h : c.OfText) (more : ¬ c.isPastEnd = true) :
    c.next.isPastEnd = true ↔ c.tag = .endOfLine := by
  have nonempty : c.rest ≠ [] := fun same => more (by rw [isPastEnd, same]; rfl)
  constructor
  · intro past
    obtain ⟨p, last⟩ := h.last
    obtain ⟨ts, same, -⟩ := h.rest.resolve_left nonempty
    rw [isPastEnd, Cursor.next, same, List.isEmpty_iff] at past
    cases ts with
    | nil =>
      rw [tag, token, same, last]
      rfl
    | cons t ts => exact absurd past (by simp)
  · intro stop
    rw [isPastEnd, Cursor.next, (h.rest_of_endOfLine stop).resolve_left nonempty]
    rfl

/-- A statement is followed by another one or by nothing. -/
theorem readFurther_eq (h : c.OfText) (more : ¬ c.isPastEnd = true) :
    readFurther (if c.tag.endsStatement then .ok (c, ctx) else .error fault) =
      c.readOn ctx (Stage.ending fault c.tag) := by
  by_cases separator : c.tag = .semicolon
  · rw [Stage.ending, if_pos separator, if_pos (by rw [separator]; rfl)]
    change (if c.tag = .semicolon then _ else _) = _
    rw [if_pos separator, if_neg more]
    rfl
  by_cases stop : c.tag = .endOfLine
  · have last := (h.isPastEnd_next_iff more).mpr stop
    rw [Stage.ending, if_neg separator, if_pos stop, if_pos (by rw [stop]; rfl)]
    change (if c.tag = .semicolon then _ else _) = if c.next.isPastEnd then _ else _
    rw [if_neg separator, if_pos last]
  · have goesOn : ¬ c.tag.endsStatement = true := fun ends =>
      (endsStatement_cases ends).elim separator stop
    rw [Stage.ending, if_neg separator, if_neg stop, if_neg goesOn]
    rfl

theorem readBehind_ok (h : c.OfText) (more : ¬ c.isPastEnd = true) :
    readBehind (.ok c) ctx = c.readOn ctx (Stage.ending c.tag.strayFault c.tag) := by
  rw [readBehind, endOfExpression_ok_eq_ite, h.readFurther_eq more]

theorem readBehind_readRest (h : c.OfText) (more : ¬ c.isPastEnd = true) :
    readBehind (site.readRest 0 c) ctx = c.readOn ctx (Stage.behindExpression site c.tag) := by
  cases site with
  | final => exact h.readBehind_ok more
  | left =>
    change readBehind c.comparison ctx = _
    rw [comparison, Stage.behindExpression]
    split
    · rw [← bind_readRest_final c.next.expression]
      rfl
    · rfl
  | group =>
    change readBehind (if c.tag.isRelational then _ else _) ctx = _
    rw [Stage.behindExpression, closeParen_eq_ite]
    split
    · rfl
    · split <;> rfl
  | groupRight =>
    change readBehind c.closeParen ctx = _
    rw [Stage.behindExpression, closeParen_eq_ite]
    split <;> rfl

theorem readBehind_expressionTail (h : c.OfText) (more : ¬ c.isPastEnd = true) :
    readBehind (c.expressionTail.bind (site.readRest depth)) ctx =
      c.readOn ctx (Stage.behindOperand site depth c.tag) := by
  unfold Stage.behindOperand
  by_cases operator : c.tag.isArithmetic = true
  · rw [expressionTail_eq, if_pos operator, if_neg more, if_pos operator]
    rfl
  rw [expressionTail_eq, if_neg operator, if_neg operator]
  cases depth with
  | zero => exact h.readBehind_readRest more
  | succ depth =>
    change readBehind (site.readRest (depth + 1) c) ctx = _
    rw [readRest_succ, closeParen_eq_ite]
    dsimp only
    split <;> rfl

theorem readBehind_expression_of_atom (atom : c.tag = .identifier ∨ c.tag = .number) :
    readBehind (c.expression.bind (site.readRest depth)) ctx =
      c.readOn ctx (.ok (.operandRead site depth)) := by
  rw [expression_eq, operand_eq_tag, if_pos atom]
  rfl

/-- Behind a sign the digits are due in the next column. -/
theorem readBehind_expression_of_sign (h : c.OfText) (sign : c.tag = .plus ∨ c.tag = .minus) :
    readBehind (c.expression.bind (site.readRest depth)) ctx =
      c.readOn ctx (.ok (.numberDue site depth c.token.position.column)) := by
  have noAtom : ¬ (c.tag = .identifier ∨ c.tag = .number) := by
    rcases sign with same | same <;> simp [same]
  have noParen : c.tag ≠ .leftParen := by rcases sign with same | same <;> simp [same]
  have touches : c.atSignedNumber = true ↔ c.next.tag = .number ∧
      c.next.token.position.column = c.token.position.column + 1 :=
    (h.atSignedNumber_iff (noAtom ∘ .inr)).trans (and_iff_right sign)
  rw [expression_eq, operand_eq_tag, if_neg noAtom, if_neg noParen]
  change _ = if c.next.tag = .number ∧ _ then _ else _
  by_cases found : c.atSignedNumber = true
  · rw [if_pos found, if_pos (touches.mp found)]
    rfl
  · rw [if_neg found, if_neg (touches.not.mp found)]
    rfl

theorem readBehind_expression_of_leftParen (h : c.OfText) (more : ¬ c.isPastEnd = true)
    (opens : c.tag = .leftParen) :
    readBehind (c.expression.bind (site.readRest depth)) ctx =
      c.readOn ctx (.ok (.operandDue site (depth + 1))) := by
  have unsigned : ¬ c.atSignedNumber = true := by
    rw [h.atSignedNumber_iff (by simp [opens])]
    simp [opens]
  rw [expression_eq, operand_eq_tag, if_neg (by simp [opens]), if_neg unsigned, if_pos opens,
    if_neg more]
  change _ = readBehind (c.next.expression.bind (site.readRest (depth + 1))) ctx
  cases c.next.expression with
  | error fault => rfl
  | ok d => exact congrArg (readBehind · ctx) (readRest_succ site depth d).symm

theorem readBehind_expression (h : c.OfText) (more : ¬ c.isPastEnd = true) (site : Site)
    (depth : Nat) :
    readBehind (c.expression.bind (site.readRest depth)) ctx =
      c.readOn ctx (Stage.inOperand site depth c.token) := by
  unfold Stage.inOperand
  split
  case h_1 same => exact readBehind_expression_of_atom (.inl same)
  case h_2 same => exact readBehind_expression_of_atom (.inr same)
  case h_3 same => exact h.readBehind_expression_of_sign (.inl same)
  case h_4 same => exact h.readBehind_expression_of_sign (.inr same)
  case h_5 same => exact h.readBehind_expression_of_leftParen more same
  case h_6 noName noNumber noPlus noMinus noParen =>
    have unsigned : ¬ c.atSignedNumber = true := by
      rw [h.atSignedNumber_iff noNumber]
      exact fun found => found.1.elim noPlus noMinus
    have noAtom : ¬ (c.tag = .identifier ∨ c.tag = .number) := fun atom =>
      atom.elim noName noNumber
    have noParen : ¬ c.tag = .leftParen := noParen
    rw [expression_eq, operand_eq_tag, if_neg noAtom, if_neg unsigned, if_neg noParen]
    rfl

theorem readBehind_condition (h : c.OfText) (more : ¬ c.isPastEnd = true) :
    readBehind c.condition ctx = c.readOn ctx (Stage.inCondition c.token) := by
  change _ = c.readOn ctx (if c.tag = .literal then _ else if c.tag = .leftParen then _ else
    if c.tag.startsExpression then _ else _)
  rw [condition]
  split
  · rfl
  split
  · rfl
  split
  · exact h.readBehind_expression more .left 0
  · rfl

theorem statements_eq_advance :
    c.statements ctx = (Stage.advance (.statementDue, ctx) c.token).bind fun s =>
      s.1.readRest s.2 c.next := by
  have whole : c.statements ctx = readFurther (c.statement ctx) := statements_eq c ctx
  rw [whole, statement, Stage.advance]
  change _ = ((Stage.inStatement c.tag).bind fun stage =>
    (Stage.statementDue.contextBehind ctx c.tag).map fun ctx => (stage, ctx)).bind _
  cases c.tag with
  | identifier =>
    change _ = if c.next.tag = .equals then _ else _
    dsimp only
    split <;> rfl
  | endwhileWord =>
    dsimp only [Stage.contextBehind]
    split <;> rfl
  | readWord | gotoWord | gosubWord =>
    change _ = if c.next.tag = .identifier then _ else _
    dsimp only
    split <;> rfl
  | writeWord =>
    change readBehind c.next.expression ctx = _
    rw [← bind_readRest_final c.next.expression]
    rfl
  | _ => rfl

/-- One token of what is left of a line. -/
theorem readRest_eq (h : c.OfText) (more : ¬ c.isPastEnd = true) (stage : Stage)
    (ctx : Context) :
    stage.readRest ctx c = (Stage.advance (stage, ctx) c.token).bind fun s =>
      s.1.readRest s.2 c.next := by
  by_cases first : stage = .statementDue
  · rw [first]
    exact statements_eq_advance
  -- behind the first token of a statement the context stays as it is
  have same : (Stage.advance (stage, ctx) c.token).bind (fun s => s.1.readRest s.2 c.next) =
      c.readOn ctx (stage.next c.token) := by
    rw [Stage.advance_of_ne first, readOn]
    cases stage.next c.token <;> rfl
  rw [same]
  cases stage with
  | statementDue => exact absurd rfl first
  | equalsDue =>
    change (if c.tag = .equals then _ else _) = c.readOn ctx (if c.tag = .equals then _ else _)
    split
    · rw [← bind_readRest_final c.next.expression]
      rfl
    · rfl
  | nameDue =>
    change (if c.tag = .identifier then _ else _) =
      c.readOn ctx (if c.tag = .identifier then _ else _)
    split <;> rfl
  | statementRead => exact h.readFurther_eq more
  | conditionDue => exact h.readBehind_condition more
  | operandDue site depth => exact h.readBehind_expression more site depth
  | numberDue site depth signColumn =>
    by_cases digits : c.tag = .number ∧ c.token.position.column = signColumn + 1
    · have step : (Stage.numberDue site depth signColumn).next c.token =
          .ok (.operandRead site depth) := if_pos digits
      rw [step]
      exact if_pos digits
    · have step : (Stage.numberDue site depth signColumn).next c.token = .error .operand :=
        if_neg digits
      rw [step]
      exact if_neg digits
  | operandRead site depth => exact h.readBehind_expressionTail more
  | conditionRead => exact h.readBehind_ok more
  | lineRead => exact if_neg more

/-- What is left of a line is read token by token. -/
theorem readRest_eq_run {c : Cursor} (h : c.OfText) (more : ¬ c.isPastEnd = true) (stage : Stage)
    (ctx : Context) : stage.readRest ctx c = (Stage.run (stage, ctx) c.rest).map Prod.snd := by
  have rest : c.rest = c.token :: c.next.rest := by
    rw [isPastEnd, List.isEmpty_iff] at more
    rw [token, Cursor.next]
    cases same : c.rest with
    | nil => exact absurd same more
    | cons t ts => rfl
  have shorter := left_next_lt more
  rw [h.readRest_eq more, rest, Stage.run_cons]
  cases here : Stage.advance (stage, ctx) c.token with
  | error fault => rfl
  | ok s =>
    change s.1.readRest s.2 c.next = (Stage.run s c.next.rest).map Prod.snd
    by_cases stop : c.tag = .endOfLine
    · have past := (h.isPastEnd_next_iff more).mpr stop
      have finished := Stage.eq_of_next_of_ends (Stage.next_of_advance here) (.inr stop)
      rw [if_neg (by simp [show c.token.tag = .endOfLine from stop])] at finished
      rw [finished, List.isEmpty_iff.mp past]
      exact if_pos past
    · exact h.next.readRest_eq_run ((h.isPastEnd_next_iff more).not.mpr stop) s.1 s.2
termination_by c.left

end OfText

end Cursor

end LineBasic
