import LineBasic.Line.Check
import LineBasic.Proofs.Cursor.Counter

/-!
# Readings that call each other come back

The readings of a line are made of each other, and some of them, through others, of themselves.
Reading past the end goes on showing the last token, so by itself nothing stops such calls. In a
line that ends as lines do they come back all the same: every call is left with fewer tokens,
or comes earlier in the order of the readings. So the calls that wait for one another
are never more than twice the tokens and a few.

## Main definitions

* `Call`: the readings, each with what it starts from.
* `Call.body`: what each reading does, in terms of what the calls it makes come to.
* `Call.run`: a call that gives up when too many calls wait for one another.

## Main results

* `Call.run_comesTo`: calls that are allowed to wait long enough come back, with the result
  of the reading.
-/

namespace LineBasic

open Cursor

/-! ### Calls -/

/-- What becomes of a call: it does not come back, it comes back with a fault, or it comes back
with a result. -/
abbrev Descent := ExceptT Fault Option

/-- The readings of a line, each with what it starts from and the type of its result. -/
inductive Call : Type → Type
  | closeParen (c : Cursor) : Call Cursor
  | operand (c : Cursor) : Call Cursor
  | expressionTail (c : Cursor) : Call Cursor
  | comparison (c : Cursor) : Call Cursor
  | expression (c : Cursor) : Call Cursor
  | parenCondition (c : Cursor) : Call Cursor
  | condition (c : Cursor) : Call Cursor
  | statement (c : Cursor) (ctx : Context) : Call (Cursor × Context)
  | statements (c : Cursor) (ctx : Context) : Call Context
  | line (line : Line) (ctx : Context) : Call Context

namespace Call

/-- What a reading does, given what becomes of the calls it makes. It looks at no token but
through the cursor, and nothing in it asks whether tokens are left. -/
def body (call : {α : Type} → Call α → Descent α) : {α : Type} → Call α → Descent α
  | _, closeParen c => ofExcept c.closeParen
  | _, operand c =>
    if c.token.kind = .identifier ∨ c.token.kind = .number then pure c.next
    else if c.atSignedNumber then pure c.next.next
    else if c.tag = .leftParen then do
      let d ← call (expression c.next)
      call (closeParen d)
    else throw .operand
  | _, expressionTail c => if c.tag.isArithmetic then call (expression c.next) else pure c
  | _, comparison c =>
    if c.tag.isRelational then call (expression c.next) else throw .comparison
  | _, expression c => do
    let d ← call (operand c)
    call (expressionTail d)
  | _, parenCondition c => do
    let first ← call (expression c)
    if first.tag.isRelational then
      let second ← call (expression first.next)
      call (closeParen second)
    else
      let closed ← call (closeParen first)
      let left ← call (expressionTail closed)
      call (comparison left)
  | _, condition c =>
    if c.tag = .literal then pure c.next
    else if c.tag = .leftParen then call (parenCondition c.next)
    else if c.tag.startsExpression then do
      let d ← call (expression c)
      call (comparison d)
    else throw .condition
  | _, statement c ctx =>
    match c.tag with
    | .identifier =>
      if c.next.tag = .equals then do
        let d ← call (expression c.next.next)
        ofExcept (endOfExpression (.ok d) ctx)
      else throw .statement
    | .ifWord => do
      let d ← call (condition c.next)
      ofExcept (endOfExpression (.ok d) ctx)
    | .whileWord => do
      let d ← call (condition c.next)
      ofExcept (endOfExpression (.ok d) ctx.openLoop)
    | .endwhileWord =>
      if ctx.openLoops = 0 then throw .unopenedLoop
      else ofExcept (c.next.endOfStatement ctx.closeLoop)
    | .readWord | .gotoWord | .gosubWord =>
      if c.next.tag = .identifier then ofExcept (c.next.next.endOfStatement ctx)
      else throw .statement
    | .writeWord => do
      let d ← call (expression c.next)
      ofExcept (endOfExpression (.ok d) ctx)
    | .returnWord | .breakWord | .endWord => ofExcept (c.next.endOfStatement ctx)
    | _ => throw .statement
  | _, statements c ctx => do
    let step ← call (statement c ctx)
    if step.1.tag = .semicolon then call (statements step.1.next step.2) else pure step.2
  | _, line whole ctx =>
    match (Label.ofTokens whole.tokens).bodyStart? with
    | none => throw .label
    | some start => call (statements (whole.place start) ctx)

/-- What becomes of a call if at most `depth` calls may wait for one another. -/
def run : Nat → {α : Type} → Call α → Descent α
  | 0, _, _ => ExceptT.mk none
  | depth + 1, _, call => body (run depth) call

/-- The result of the reading that is called. -/
def result : {α : Type} → Call α → Except Fault α
  | _, closeParen c => c.closeParen
  | _, operand c => c.operand
  | _, expressionTail c => c.expressionTail
  | _, comparison c => c.comparison
  | _, expression c => c.expression
  | _, parenCondition c => c.parenCondition
  | _, condition c => c.condition
  | _, statement c ctx => c.statement ctx
  | _, statements c ctx => c.statements ctx
  | _, line whole ctx => whole.check ctx

/-- The last token of the line in which a reading is called. -/
def last : {α : Type} → Call α → Token
  | _, closeParen c | _, operand c | _, expressionTail c | _, comparison c | _, expression c
  | _, parenCondition c | _, condition c | _, statement c _ | _, statements c _ => c.last
  | _, line whole _ => whole.tokens.getLast whole.nonempty

/-- How many calls wait for one another at most, this one not among them. Each token that is left
may make two calls wait, and the readings come in an order. -/
def depth : {α : Type} → Call α → Nat
  | _, closeParen _ => 0
  | _, operand c | _, expressionTail c | _, comparison c => 2 * c.left + 1
  | _, expression c => 2 * c.left + 2
  | _, parenCondition c | _, condition c => 2 * c.left + 3
  | _, statement c _ => 2 * c.left + 2
  | _, statements c _ => 2 * c.left + 3
  | _, line whole _ => 2 * whole.tokens.length + 4

end Call

/-! ### Readings stay in their line -/

namespace Cursor

variable {c d : Cursor} {ctx : Context}

/-- Whether a reading leads to a place in the line of a cursor, if it leads anywhere. -/
def StaysIn (c : Cursor) (reading : Except Fault Cursor) : Prop :=
  ∀ d, reading = .ok d → d.last = c.last

namespace StaysIn

theorem ok (same : d.last = c.last) : c.StaysIn (.ok d) := by
  intro e read
  obtain rfl := Except.ok.inj read
  exact same

theorem error (fault : Fault) : c.StaysIn (.error fault) :=
  fun _ h => nomatch h

theorem bind {reading : Except Fault Cursor} {later : Cursor → Except Fault Cursor}
    (h : c.StaysIn reading) (h' : ∀ d, reading = .ok d → d.StaysIn (later d)) :
    c.StaysIn (reading.bind later) := by
  intro e read
  obtain ⟨d, first, second⟩ := bind_eq_ok_iff.mp read
  exact (h' d first e second).trans (h d first)

/-- The line in which a reading stays ends as it did. -/
theorem ends {reading : Except Fault Cursor} (h : c.StaysIn reading) (read : reading = .ok d)
    (ends : c.last.tag = .endOfLine) : d.last.tag = .endOfLine :=
  (congrArg Token.tag (h d read)).trans ends

theorem closeParen (c : Cursor) : c.StaysIn c.closeParen := by
  intro d read
  obtain ⟨-, rfl⟩ := closeParen_eq_ok_iff.mp read
  rfl

theorem reading (c : Cursor) :
    c.StaysIn c.expression ∧ c.StaysIn c.operand ∧ c.StaysIn c.expressionTail := by
  refine reading_induction (fun c => c.StaysIn c.expression) (fun c => c.StaysIn c.operand)
    (fun c => c.StaysIn c.expressionTail) (fun c first later => ?_) (fun c inside => ?_)
    (fun c later => ?_) c
  · rw [expression_eq]
    exact first.bind later
  · rw [operand_eq_tag]
    split
    · exact ok rfl
    split
    · exact ok rfl
    split
    · split
      · exact error _
      case isFalse more =>
        have inside : c.StaysIn c.next.expression := inside more
        exact inside.bind fun d _ => closeParen d
    · exact error _
  · rw [expressionTail_eq]
    split
    · split
      · exact error _
      case isFalse more => exact later more
    · exact ok rfl

theorem expression (c : Cursor) : c.StaysIn c.expression :=
  (reading c).1

theorem comparison (c : Cursor) : c.StaysIn c.comparison := by
  unfold Cursor.comparison
  split
  · exact expression c.next
  · exact error _

theorem parenCondition (c : Cursor) : c.StaysIn c.parenCondition := by
  refine (expression c).bind fun first _ => ?_
  split
  · have second : first.StaysIn first.next.expression := expression first.next
    exact second.bind fun d _ => closeParen d
  · exact (closeParen first).bind fun closed _ =>
      (reading closed).2.2.bind fun left _ => comparison left

theorem condition (c : Cursor) : c.StaysIn c.condition := by
  unfold Cursor.condition
  split
  · exact ok rfl
  split
  · exact parenCondition c.next
  split
  · exact (expression c).bind fun d _ => comparison d
  · exact error _

end StaysIn

theorem last_eq_of_endOfExpression {reading : Except Fault Cursor} {step : Cursor × Context}
    (stays : c.StaysIn reading) (h : endOfExpression reading ctx = .ok step) :
    step.1.last = c.last :=
  stays _ (endOfExpression_eq_ok_iff.mp h).1

/-- A statement is over in the line in which it begins. -/
theorem last_eq_of_statement {step : Cursor × Context} (h : c.statement ctx = .ok step) :
    step.1.last = c.last := by
  unfold statement at h
  split at h
  · split at h
    · exact last_eq_of_endOfExpression (c := c) (StaysIn.expression c.next.next) h
    · cases h
  · exact last_eq_of_endOfExpression (c := c) (StaysIn.condition c.next) h
  · exact last_eq_of_endOfExpression (c := c) (StaysIn.condition c.next) h
  · split at h
    · cases h
    · obtain ⟨-, rfl⟩ := endOfStatement_eq_ok_iff.mp h
      rfl
  iterate 3
    · split at h
      · obtain ⟨-, rfl⟩ := endOfStatement_eq_ok_iff.mp h
        rfl
      · cases h
  · exact last_eq_of_endOfExpression (c := c) (StaysIn.expression c.next) h
  iterate 3
    · obtain ⟨-, rfl⟩ := endOfStatement_eq_ok_iff.mp h
      rfl
  · cases h

end Cursor

/-! ### Calls come back -/

/-- Whether a call comes back, with a fault or a result. -/
def Descent.ComesTo {α : Type} (x : Descent α) (result : Except Fault α) : Prop :=
  x.run = some result

namespace Descent.ComesTo

variable {α β : Type} {x : Descent α} {result : Except Fault α}

theorem ofExcept (result : Except Fault α) : ComesTo (MonadExcept.ofExcept result) result := by
  cases result <;> rfl

theorem pure (a : α) : ComesTo (Pure.pure a) (.ok a) := rfl

theorem throw (fault : Fault) : ComesTo (α := α) (MonadExcept.throw fault) (.error fault) := rfl

/-- Two calls in a row come back if the second does with whatever the first comes to. -/
theorem bind {next : α → Descent β} {later : α → Except Fault β} (h : x.ComesTo result)
    (h' : ∀ a, result = .ok a → (next a).ComesTo (later a)) :
    ComesTo (x >>= next) (result.bind later) := by
  rw [ComesTo, ExceptT.run_bind, h]
  cases result with
  | error fault => rfl
  | ok a => exact h' a rfl

end Descent.ComesTo

namespace Call

open Descent

/-- Whether the calls that a call may make come back with the results of the readings. -/
def Agrees (call : {α : Type} → Call α → Descent α) (depth : Nat) : Prop :=
  ∀ {β : Type} (c : Call β), c.last.tag = .endOfLine → c.depth < depth → (call c).ComesTo c.result

variable {call : {α : Type} → Call α → Descent α} {c : Cursor} {ctx : Context}

/-- Before the end of the line there is a token that is left behind. -/
theorem left_next_lt_of_ne (ends : c.last.tag = .endOfLine) (more : c.tag ≠ .endOfLine) :
    c.next.left < c.left :=
  left_next_lt (not_isPastEnd ends more)

theorem body_operand (ends : c.last.tag = .endOfLine) (agrees : Agrees call (2 * c.left + 1)) :
    (body call (operand c)).ComesTo c.operand := by
  rw [operand_eq, body]
  split
  · exact .pure _
  split
  · exact .pure _
  split
  case isTrue opening =>
    have shorter := left_next_lt_of_ne ends (by simp [opening])
    rw [if_neg (not_isPastEnd ends (by simp [opening]))]
    refine (agrees (expression c.next) ends (by simp only [depth]; omega)).bind fun d read => ?_
    have ends' := (StaysIn.expression c.next).ends read ends
    exact agrees (closeParen d) ends' (by simp only [depth]; omega)
  case isFalse => exact .throw _

theorem body_expressionTail (ends : c.last.tag = .endOfLine)
    (agrees : Agrees call (2 * c.left + 1)) :
    (body call (expressionTail c)).ComesTo c.expressionTail := by
  rw [expressionTail_eq, body]
  split
  case isTrue operator =>
    have more : c.tag ≠ .endOfLine := fun same => by simp [same, Tag.isArithmetic] at operator
    have shorter := left_next_lt_of_ne ends more
    rw [if_neg (not_isPastEnd ends more)]
    exact agrees (expression c.next) ends (by simp only [depth]; omega)
  case isFalse => exact .pure _

theorem body_comparison (ends : c.last.tag = .endOfLine)
    (agrees : Agrees call (2 * c.left + 1)) : (body call (comparison c)).ComesTo c.comparison := by
  rw [Cursor.comparison, body]
  split
  case isTrue operator =>
    have more : c.tag ≠ .endOfLine := fun same => by simp [same, Tag.isRelational] at operator
    have shorter := left_next_lt_of_ne ends more
    exact agrees (expression c.next) ends (by simp only [depth]; omega)
  case isFalse => exact .throw _

theorem body_expression (ends : c.last.tag = .endOfLine)
    (agrees : Agrees call (2 * c.left + 2)) : (body call (expression c)).ComesTo c.expression := by
  rw [expression_eq, body]
  refine (agrees (operand c) ends (by simp only [depth]; omega)).bind fun d read => ?_
  have ends' := (StaysIn.reading c).2.1.ends read ends
  have onward := left_le_of_operand read
  exact agrees (expressionTail d) ends' (by simp only [depth]; omega)

theorem body_parenCondition (ends : c.last.tag = .endOfLine)
    (agrees : Agrees call (2 * c.left + 3)) :
    (body call (parenCondition c)).ComesTo c.parenCondition := by
  rw [body]
  refine (agrees (expression c) ends (by simp only [depth]; omega)).bind fun first read => ?_
  have ends₁ := (StaysIn.expression c).ends read ends
  have onward₁ := left_le_of_expression read
  split
  case isTrue operator =>
    -- the parenthesis holds the whole comparison
    have next := first.left_next_le
    refine (agrees (expression first.next) ends₁
      (by simp only [depth]; omega)).bind fun second read => ?_
    have ends₂ := (StaysIn.expression first.next).ends read ends₁
    have onward₂ := left_le_of_expression read
    exact agrees (closeParen second) ends₂ (by simp only [depth]; omega)
  case isFalse =>
    -- the parenthesis holds the first operand only
    refine (agrees (closeParen first) ends₁
      (by simp only [depth]; omega)).bind fun closed read => ?_
    have ends₂ := (StaysIn.closeParen first).ends read ends₁
    have onward₂ := left_le_of_closeParen read
    refine (agrees (expressionTail closed) ends₂
      (by simp only [depth]; omega)).bind fun left read => ?_
    have ends₃ := (StaysIn.reading closed).2.2.ends read ends₂
    have onward₃ := left_le_of_expressionTail read
    exact agrees (comparison left) ends₃ (by simp only [depth]; omega)

theorem body_condition (ends : c.last.tag = .endOfLine)
    (agrees : Agrees call (2 * c.left + 3)) : (body call (condition c)).ComesTo c.condition := by
  rw [Cursor.condition, body]
  split
  · exact .pure _
  split
  case isTrue opening =>
    have shorter := left_next_lt_of_ne ends (by simp [opening])
    exact agrees (parenCondition c.next) ends (by simp only [depth]; omega)
  case isFalse =>
  split
  case isTrue =>
    refine (agrees (expression c) ends (by simp only [depth]; omega)).bind fun d read => ?_
    have ends' := (StaysIn.expression c).ends read ends
    have onward := left_le_of_expression read
    exact agrees (comparison d) ends' (by simp only [depth]; omega)
  case isFalse => exact .throw _

theorem body_statement (ends : c.last.tag = .endOfLine)
    (agrees : Agrees call (2 * c.left + 2)) :
    (body call (statement c ctx)).ComesTo (c.statement ctx) := by
  have next₂ := c.next.left_next_le
  rw [Cursor.statement, body]
  cases word : c.tag with
  | identifier =>
    have shorter := left_next_lt_of_ne ends (by simp [word])
    dsimp only
    split
    case isTrue =>
      have value := agrees (expression c.next.next) ends (by simp only [depth]; omega)
      exact value.bind fun _ _ => .ofExcept _
    case isFalse => exact .throw _
  | ifWord | whileWord =>
    have shorter := left_next_lt_of_ne ends (by simp [word])
    have asked := agrees (condition c.next) ends (by simp only [depth]; omega)
    exact asked.bind fun _ _ => .ofExcept _
  | endwhileWord =>
    dsimp only
    split
    · exact .throw _
    · exact .ofExcept _
  | readWord | gotoWord | gosubWord =>
    dsimp only
    split
    · exact .ofExcept _
    · exact .throw _
  | writeWord =>
    have shorter := left_next_lt_of_ne ends (by simp [word])
    have value := agrees (expression c.next) ends (by simp only [depth]; omega)
    exact value.bind fun _ _ => .ofExcept _
  | returnWord | breakWord | endWord => exact .ofExcept _
  | _ => exact .throw _

theorem body_statements (ends : c.last.tag = .endOfLine)
    (agrees : Agrees call (2 * c.left + 3)) :
    (body call (statements c ctx)).ComesTo (c.statements ctx) := by
  rw [statements_eq, body]
  refine (agrees (statement c ctx) ends (by simp only [depth]; omega)).bind fun step read => ?_
  have ends' : step.1.last.tag = .endOfLine :=
    (congrArg Token.tag (last_eq_of_statement read)).trans ends
  have onward := left_le_of_statement read
  split
  case isTrue separator =>
    have shorter := left_next_lt_of_ne ends' (by simp [separator])
    rw [if_neg (not_isPastEnd ends' (by simp [separator]))]
    exact agrees (statements step.1.next step.2) ends' (by simp only [depth]; omega)
  case isFalse => exact .pure _

theorem body_line {whole : Line} (ends : (whole.tokens.getLast whole.nonempty).tag = .endOfLine)
    (agrees : Agrees call (2 * whole.tokens.length + 4)) :
    (body call (line whole ctx)).ComesTo (whole.check ctx) := by
  rw [Line.check, body]
  cases (Label.ofTokens whole.tokens).bodyStart? with
  | none => exact .throw _
  | some start =>
    have within : (whole.place start).left ≤ whole.tokens.length := by
      simp only [Line.place, left, List.length_drop]
      omega
    exact agrees (statements (whole.place start) ctx) ends (by simp only [depth]; omega)

/-- A call comes back if the calls that it makes do. -/
theorem body_comesTo {α : Type} (c : Call α) (ends : c.last.tag = .endOfLine)
    (agrees : Agrees call c.depth) : (body call c).ComesTo c.result := by
  cases c with
  | closeParen c => exact .ofExcept _
  | operand c => exact body_operand ends agrees
  | expressionTail c => exact body_expressionTail ends agrees
  | comparison c => exact body_comparison ends agrees
  | expression c => exact body_expression ends agrees
  | parenCondition c => exact body_parenCondition ends agrees
  | condition c => exact body_condition ends agrees
  | statement c ctx => exact body_statement ends agrees
  | statements c ctx => exact body_statements ends agrees
  | line whole ctx => exact body_line ends agrees

/-- In a line that ends as lines do, a call comes back with the result of the reading as soon as
it may make as many calls wait as its depth says. -/
theorem run_comesTo {depth : Nat} {α : Type} (c : Call α) (ends : c.last.tag = .endOfLine)
    (deep : c.depth < depth) : (run depth c).ComesTo c.result := by
  induction depth generalizing α with
  | zero => exact absurd deep (Nat.not_lt_zero _)
  | succ depth ih =>
    refine body_comesTo c ends fun c' ends' deeper => ih c' ends' ?_
    exact Nat.lt_of_lt_of_le deeper (Nat.le_of_lt_succ deep)

end Call

end LineBasic
