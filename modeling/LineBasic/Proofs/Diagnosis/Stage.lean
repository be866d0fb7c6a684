import LineBasic.Context
import LineBasic.Fault
import LineBasic.Token.Basic

/-!
# Reading a line token by token

How the statements of a line can go on depends on little of what has been read of them: on
what has to come next, on the number of parentheses that are open, and on the number of open
loops. A stage holds the first two. Token by token a line moves from stage to stage, until it
ends or a token comes that cannot stand there.

## Main definitions

* `Stage`: what the tokens of a line can stop at.
* `Stage.next`: the stage behind a token, or the fault of a token that cannot come next.
* `Stage.run`: the stage and the context behind a sequence of tokens.

## Main results

* `Stage.inOperand_eq_ok_iff`, `Stage.behindOperand_eq_ok_iff`: what can come where an operand is
  due, and behind one.
* `Stage.run_append`: running goes on where it has stopped.
* `Stage.run_eq_error_iff`: a run fails at the first token that cannot come next.
-/

namespace LineBasic

/-- What an expression is read for. -/
inductive Site
  /-- The statement ends with the expression. -/
  | final
  /-- The expression is the left side of a comparison. -/
  | left
  /-- The expression follows the parenthesis with which a condition begins. This encloses
  either a comparison or its first operand. -/
  | group
  /-- The expression is the right side of a comparison in parentheses. -/
  | groupRight
  deriving DecidableEq

/-- What the tokens of a line can stop at. The depth of an expression is the number of its own
parentheses that are open. -/
inductive Stage
  | statementDue
  /-- The name with which an assignment begins has been read. -/
  | equalsDue
  | nameDue
  /-- A statement without an expression or condition has been read. -/
  | statementRead
  | conditionDue
  | operandDue (site : Site) (depth : Nat)
  /-- A sign has been read, and a number has to touch it. -/
  | numberDue (site : Site) (depth : Nat) (signColumn : Int)
  | operandRead (site : Site) (depth : Nat)
  /-- A truth value or a comparison in parentheses has been read. -/
  | conditionRead
  | lineRead
  deriving DecidableEq

/-- The fault of a token that stands where a closing parenthesis has to. -/
def Tag.unclosedFault : Tag → Fault
  | endOfLine => .parenthesis
  | _ => .tail

/-- The fault of a token that stands where a statement has to end. -/
def Tag.strayFault : Tag → Fault
  | rightParen => .parenthesis
  | _ => .tail

namespace Stage

/-- The stage behind a token that ends a statement. -/
def ending (fault : Fault) (t : Tag) : Except Fault Stage :=
  if t = .semicolon then .ok statementDue
  else if t = .endOfLine then .ok lineRead
  else .error fault

/-- The stage behind a token that follows an expression. -/
def behindExpression (site : Site) (t : Tag) : Except Fault Stage :=
  match site with
  | .final => ending t.strayFault t
  | .left => if t.isRelational then .ok (operandDue .final 0) else .error .comparison
  | .group =>
    if t.isRelational then .ok (operandDue .groupRight 0)
    else if t = .rightParen then .ok (operandRead .left 0)
    else .error t.unclosedFault
  | .groupRight => if t = .rightParen then .ok conditionRead else .error t.unclosedFault

/-- The stage behind a token that begins an operand. -/
def inOperand (site : Site) (depth : Nat) (t : Token) : Except Fault Stage :=
  match t.tag with
  | .identifier | .number => .ok (operandRead site depth)
  | .plus | .minus => .ok (numberDue site depth t.position.column)
  | .leftParen => .ok (operandDue site (depth + 1))
  | _ => .error .operand

/-- The stage behind a token that begins a statement. -/
def inStatement : Tag → Except Fault Stage
  | .identifier => .ok equalsDue
  | .ifWord | .whileWord => .ok conditionDue
  | .readWord | .gotoWord | .gosubWord => .ok nameDue
  | .writeWord => .ok (operandDue .final 0)
  | .endwhileWord | .returnWord | .breakWord | .endWord => .ok statementRead
  | _ => .error .statement

/-- The stage behind a token that begins a condition. -/
def inCondition (t : Token) : Except Fault Stage :=
  if t.tag = .literal then .ok conditionRead
  else if t.tag = .leftParen then .ok (operandDue .group 0)
  else if t.tag.startsExpression then inOperand .left 0 t
  else .error .condition

/-- The stage behind a token that follows an operand. -/
def behindOperand (site : Site) (depth : Nat) (t : Tag) : Except Fault Stage :=
  if t.isArithmetic then .ok (operandDue site depth)
  else
    match depth with
    | 0 => behindExpression site t
    | depth + 1 => if t = .rightParen then .ok (operandRead site depth) else .error t.unclosedFault

/-- The stage behind a token, or the fault of a token that cannot come next. -/
def next (stage : Stage) (t : Token) : Except Fault Stage :=
  match stage with
  | statementDue => inStatement t.tag
  | equalsDue => if t.tag = .equals then .ok (operandDue .final 0) else .error .statement
  | nameDue => if t.tag = .identifier then .ok statementRead else .error .statement
  | statementRead => ending .statement t.tag
  | conditionDue => inCondition t
  | operandDue site depth => inOperand site depth t
  | numberDue site depth signColumn =>
    if t.tag = .number ∧ t.position.column = signColumn + 1 then .ok (operandRead site depth)
    else .error .operand
  | operandRead site depth => behindOperand site depth t.tag
  | conditionRead => ending t.tag.strayFault t.tag
  | lineRead => .error .statement

/-- Whether a statement may be over at a stage. -/
def mayEnd : Stage → Bool
  | statementRead | conditionRead | operandRead .final 0 => true
  | _ => false

/-- The context behind a token. Only the first token of a statement can open or close a loop, and
no loop can be closed while none is open. -/
def contextBehind (stage : Stage) (ctx : Context) (t : Tag) : Except Fault Context :=
  match stage, t with
  | statementDue, .whileWord => .ok ctx.openLoop
  | statementDue, .endwhileWord =>
    if ctx.openLoops = 0 then .error .unopenedLoop else .ok ctx.closeLoop
  | _, _ => .ok ctx

/-- The stage and the context behind one more token. -/
def advance (s : Stage × Context) (t : Token) : Except Fault (Stage × Context) :=
  (s.1.next t).bind fun stage => (s.1.contextBehind s.2 t.tag).map fun ctx => (stage, ctx)

/-- The stage and the context behind a sequence of tokens. -/
def run (s : Stage × Context) (ts : List Token) : Except Fault (Stage × Context) :=
  ts.foldlM advance s

variable {s s' : Stage × Context} {stage stage' : Stage} {ctx : Context} {t u : Token}
  {ts us : List Token} {fault : Fault}

theorem run_cons (s : Stage × Context) (t : Token) (ts : List Token) :
    run s (t :: ts) = (advance s t).bind fun s' => run s' ts := by
  rw [run, List.foldlM_cons]
  rfl

/-- Running goes on where it has stopped. -/
theorem run_append (s : Stage × Context) (ts us : List Token) :
    run s (ts ++ us) = (run s ts).bind fun s' => run s' us := by
  rw [run, List.foldlM_append]
  rfl

theorem run_concat (s : Stage × Context) (ts : List Token) (t : Token) :
    run s (ts ++ [t]) = (run s ts).bind fun s' => advance s' t := by
  rw [run_append]
  cases run s ts with
  | error fault => rfl
  | ok s' =>
    change run s' [t] = advance s' t
    rw [run_cons]
    cases advance s' t <;> rfl

/-- A run fails at the first token that cannot come next. -/
theorem run_eq_error_iff :
    run s ts = .error fault ↔
      ∃ us t vs s', ts = us ++ t :: vs ∧ run s us = .ok s' ∧ advance s' t = .error fault := by
  constructor
  · intro failed
    induction ts generalizing s with
    | nil => cases failed
    | cons t ts ih =>
      rw [run_cons] at failed
      cases here : advance s t with
      | error fault' =>
        rw [here] at failed
        exact ⟨[], t, ts, s, rfl, rfl, here.trans failed⟩
      | ok s' =>
        rw [here] at failed
        obtain ⟨us, u, vs, s'', rfl, before, later⟩ := ih failed
        exact ⟨t :: us, u, vs, s'', rfl, by rw [run_cons, here]; exact before, later⟩
  · rintro ⟨us, t, vs, s', rfl, before, failed⟩
    rw [run_append, before, Except.bind, run_cons, failed]
    rfl

theorem next_of_advance (h : advance s t = .ok s') : s.1.next t = .ok s'.1 := by
  rw [advance] at h
  cases here : s.1.next t with
  | error fault =>
    rw [here] at h
    cases h
  | ok stage =>
    rw [here] at h
    change (s.1.contextBehind s.2 t.tag).map _ = _ at h
    cases behind : s.1.contextBehind s.2 t.tag with
    | error fault =>
      rw [behind] at h
      cases h
    | ok ctx =>
      rw [behind] at h
      exact Except.ok.inj h ▸ rfl

/-- A token that cannot come next has no stage behind it, or it closes a loop while none is
open. -/
theorem error_of_advance (h : advance s t = .error fault) :
    s.1.next t = .error fault ∨
      s.1 = statementDue ∧ t.tag = .endwhileWord ∧ fault = .unopenedLoop := by
  rw [advance] at h
  cases here : s.1.next t with
  | error fault' =>
    rw [here] at h
    exact .inl (congrArg Except.error (Except.error.inj h))
  | ok stage =>
    rw [here] at h
    change (s.1.contextBehind s.2 t.tag).map _ = _ at h
    unfold contextBehind at h
    split at h
    · cases h
    case h_2 first word =>
      split at h
      · exact .inr ⟨first, word, (Except.error.inj h).symm⟩
      · cases h
    · cases h

theorem ending_eq_ok_iff {tag : Tag} : ending fault tag = .ok stage ↔
    tag = .semicolon ∧ stage = statementDue ∨ tag = .endOfLine ∧ stage = lineRead := by
  unfold ending
  split
  case isTrue separates => simp [separates, eq_comm]
  case isFalse separates =>
  split
  case isTrue stops => simp [stops, eq_comm]
  case isFalse stops => simp [separates, stops]

/-- An operand begins with a name, a number, a sign or a parenthesis. -/
theorem inOperand_eq_ok_iff {site : Site} {depth : Nat} : inOperand site depth t = .ok stage ↔
    (t.tag = .identifier ∨ t.tag = .number) ∧ stage = operandRead site depth ∨
    (t.tag = .plus ∨ t.tag = .minus) ∧ stage = numberDue site depth t.position.column ∨
    t.tag = .leftParen ∧ stage = operandDue site (depth + 1) := by
  unfold inOperand
  split
  case h_1 same | h_2 same | h_3 same | h_4 same | h_5 same => simp [same, eq_comm]
  case h_6 =>
    constructor
    · intro step
      cases step
    · rintro (⟨same | same, -⟩ | ⟨same | same, -⟩ | ⟨same, -⟩) <;> contradiction

/-- Behind an operand comes an operator, what follows the expression, or a parenthesis that closes
one of its own. -/
theorem behindOperand_eq_ok_iff {site : Site} {depth : Nat} {tag : Tag} :
    behindOperand site depth tag = .ok stage ↔
      tag.isArithmetic = true ∧ stage = operandDue site depth ∨
      tag.isArithmetic = false ∧ depth = 0 ∧ behindExpression site tag = .ok stage ∨
      ∃ depth', depth = depth' + 1 ∧ tag = .rightParen ∧ stage = operandRead site depth' := by
  unfold behindOperand
  split
  case isTrue operator =>
    have other : tag ≠ .rightParen := fun same => by
      rw [same] at operator
      cases operator
    simp [operator, other, eq_comm]
  case isFalse operator =>
    cases depth with
    | zero => simp [operator]
    | succ depth =>
      simp only [operator, Nat.add_right_cancel_iff]
      by_cases closes : tag = .rightParen
      · simp [closes, eq_comm]
      · simp [closes]

/-- Behind a token that begins no statement the context stays as it is. -/
theorem advance_of_ne (h : stage ≠ statementDue) (ctx : Context) (t : Token) :
    advance (stage, ctx) t = (stage.next t).map fun stage' => (stage', ctx) := by
  have same : stage.contextBehind ctx t.tag = .ok ctx := by
    unfold contextBehind
    split
    · exact absurd rfl h
    · exact absurd rfl h
    · rfl
  rw [advance, same]
  rfl

/-- A token that ends a statement comes where one may be over, and leads to the next statement or
to the end of the line. -/
theorem next_eq_ok_iff_of_ends (ends : t.tag = .semicolon ∨ t.tag = .endOfLine) :
    stage.next t = .ok stage' ↔
      stage.mayEnd = true ∧ stage' = if t.tag = .semicolon then statementDue else lineRead := by
  rcases ends with same | same
  all_goals
    cases stage with
    | operandRead site depth =>
      cases depth <;> cases site <;> simp [next, behindOperand, behindExpression, ending, mayEnd,
        Tag.isArithmetic, Tag.isRelational, same, eq_comm]
    | _ => simp [next, inStatement, inCondition, inOperand, ending, mayEnd, Tag.startsExpression,
        same, eq_comm]

theorem eq_of_next_of_ends (h : stage.next t = .ok stage')
    (ends : t.tag = .semicolon ∨ t.tag = .endOfLine) :
    stage' = if t.tag = .semicolon then statementDue else lineRead :=
  ((next_eq_ok_iff_of_ends ends).mp h).2

end Stage

end LineBasic
