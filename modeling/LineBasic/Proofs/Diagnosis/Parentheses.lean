import LineBasic.Proofs.Line.Run
import Mathlib.Combinatorics.Enumerative.DyckWord

/-!
# Parentheses pair up

The parentheses of an accepted line pair up, and so do those of each of its statements. A line is
rejected for a parenthesis only if its parentheses do not pair up, whatever follows the place
where the reading stops.

Nothing counts parentheses while a line is read. But each stage tells how many are open, and with
every token read this number changes as the number of open parentheses does. It is never negative,
and it is zero wherever a statement begins or may be over.

## Main definitions

* `IsBalanced`: whether the parentheses among tokens form a Dyck word.
* `LeavesOpen`: whether tokens leave some parentheses open, and close only such as are open.
* `Stage.parens`: how many parentheses are open at a stage.

## Main results

* `LeavesOpen.run`: the stage behind a run tells how many parentheses are open.
* `judgeLine_parentheses`: what the judgement of a line says of its parentheses.
-/

namespace LineBasic

/-- The step of a parenthesis in a Dyck word. -/
def Tag.dyckStep? : Tag → Option DyckStep
  | leftParen => some .U
  | rightParen => some .D
  | _ => none

/-- The steps of the parentheses among tokens. -/
def dyckSteps (ts : List Token) : List DyckStep :=
  ts.filterMap fun t => t.tag.dyckStep?

/-- Whether the parentheses among tokens form a Dyck word. -/
def IsBalanced (ts : List Token) : Prop :=
  ∃ word : DyckWord, word.toList = dyckSteps ts

/-- Whether tokens leave a number of parentheses open, and close only such as are open. -/
structure LeavesOpen (ts : List Token) (n : Int) : Prop where
  total : openParens (ts.map Token.tag) = n
  front : ∀ us, us <+: ts → 0 ≤ openParens (us.map Token.tag)

variable {ts us vs front : List Token} {t : Token} {n : Int} {ctx after : Context} {text : String}

/-! ### Dyck words -/

/-- The steps up are the left parentheses, and those down the right ones. -/
theorem count_dyckSteps (ts : List Token) :
    (dyckSteps ts).count .U = (ts.map Token.tag).count .leftParen ∧
      (dyckSteps ts).count .D = (ts.map Token.tag).count .rightParen := by
  induction ts with
  | nil => exact ⟨rfl, rfl⟩
  | cons t ts ih =>
    have step : dyckSteps (t :: ts) = t.tag.dyckStep?.toList ++ dyckSteps ts := by
      cases same : t.tag.dyckStep? <;> simp [dyckSteps, same]
    rw [step, List.count_append, List.count_append, ih.1, ih.2, List.map_cons, List.count_cons,
      List.count_cons]
    cases t.tag <;> simp [Tag.dyckStep?] <;> omega

/-- Tokens are balanced when they leave no parenthesis open. -/
theorem isBalanced_iff : IsBalanced ts ↔ LeavesOpen ts 0 := by
  have excess (us : List Token) : openParens (us.map Token.tag) =
      (dyckSteps us).count .U - (dyckSteps us).count .D := by
    rw [openParens, (count_dyckSteps us).1, (count_dyckSteps us).2]
  constructor
  · rintro ⟨word, same⟩
    refine ⟨?_, fun us front => ?_⟩
    · have even := word.count_U_eq_count_D
      rw [same] at even
      rw [excess, even, Int.sub_self]
    · have steps : dyckSteps us = (dyckSteps ts).take (dyckSteps us).length :=
        List.prefix_iff_eq_take.mp (front.filterMap _)
      have above := word.count_D_le_count_U (dyckSteps us).length
      rw [same, ← steps] at above
      rw [excess]
      omega
  · intro h
    refine ⟨⟨dyckSteps ts, ?_, fun i => ?_⟩, rfl⟩
    · have total := h.total
      rw [excess] at total
      omega
    · -- the first steps are those of the tokens up to some place
      obtain ⟨us, vs, whole, first, -⟩ := List.filterMap_eq_append_iff.mp
        (List.take_append_drop i (dyckSteps ts)).symm
      have above := h.front us ⟨vs, whole.symm⟩
      rw [excess, show dyckSteps us = (dyckSteps ts).take i from first] at above
      omega

theorem IsLabel.eq_or_eq {tags : List Tag} {tag : Tag} (label : IsLabel tags)
    (member : tag ∈ tags) : tag = .identifier ∨ tag = .colon := by
  rcases label with rfl | rfl
  · cases member
  · simpa using member

/-- Tags other than parentheses open and close none. -/
theorem openParens_eq_zero {tags : List Tag}
    (plain : ∀ tag ∈ tags, tag ≠ .leftParen ∧ tag ≠ .rightParen) : openParens tags = 0 := by
  rw [openParens, List.count_eq_zero.mpr fun member => (plain _ member).1 rfl,
    List.count_eq_zero.mpr fun member => (plain _ member).2 rfl]
  rfl

namespace LeavesOpen

theorem nil : LeavesOpen [] 0 where
  total := rfl
  front us front := by
    rw [List.prefix_nil.mp front]
    exact Int.le_refl 0

theorem total_concat (h : LeavesOpen ts n) (t : Token) :
    openParens ((ts ++ [t]).map Token.tag) = n + openParens [t.tag] := by
  rw [List.map_append, List.map_singleton, openParens_concat, h.total]

/-- One token more may close a parenthesis if one is open. -/
theorem concat (h : LeavesOpen ts n) (enough : 0 ≤ n + openParens [t.tag]) :
    LeavesOpen (ts ++ [t]) (n + openParens [t.tag]) := by
  refine ⟨h.total_concat t, fun us front => ?_⟩
  rcases List.prefix_concat_iff.mp front with rfl | front
  · rwa [h.total_concat]
  · exact h.front us front

/-- A label has no parentheses. -/
theorem of_isLabel (label : IsLabel (ts.map Token.tag)) : LeavesOpen ts 0 := by
  have plain (tag : Tag) (member : tag ∈ ts.map Token.tag) :
      tag ≠ .leftParen ∧ tag ≠ .rightParen := by
    rcases label.eq_or_eq member with rfl | rfl <;> exact ⟨nofun, nofun⟩
  refine ⟨openParens_eq_zero plain, fun us front => Int.le_of_eq (openParens_eq_zero ?_).symm⟩
  exact fun tag member => plain tag ((front.map _).subset member)

end LeavesOpen

/-! ### Stages -/

theorem Site.parens_nonneg (site : Site) : 0 ≤ site.parens := by
  cases site <;> decide

theorem Tag.eq_of_unclosedFault {tag : Tag} (h : tag.unclosedFault = .parenthesis) :
    tag = .endOfLine := by
  cases tag <;> first | rfl | cases h

theorem Tag.eq_of_strayFault {tag : Tag} (h : tag.strayFault = .parenthesis) :
    tag = .rightParen := by
  cases tag <;> first | rfl | cases h

namespace Stage

variable {stage stage' : Stage} {s s' : Stage × Context} {site : Site} {depth : Nat} {tag : Tag}
  {fault : Fault}

/-- How many parentheses are open at a stage. -/
def parens : Stage → Int
  | operandDue site depth | numberDue site depth _ | operandRead site depth => depth + site.parens
  | _ => 0

theorem parens_nonneg (stage : Stage) : 0 ≤ stage.parens := by
  cases stage with
  | operandDue site depth | numberDue site depth _ | operandRead site depth =>
    exact Int.add_nonneg (Int.natCast_nonneg depth) site.parens_nonneg
  | _ => exact Int.le_refl 0

theorem parens_of_mayEnd (finished : stage.mayEnd = true) : stage.parens = 0 := by
  unfold mayEnd at finished
  split at finished
  · rfl
  · rfl
  · rfl
  · cases finished

theorem eq_of_ite_eq_ok {p : Prop} [Decidable p]
    (step : (if p then .ok stage else .error fault) = Except.ok stage') : p ∧ stage' = stage := by
  split at step
  case isTrue holds => exact ⟨holds, (Except.ok.inj step).symm⟩
  case isFalse => cases step

theorem parens_of_ending (step : ending fault tag = .ok stage) :
    stage.parens = openParens [tag] := by
  rcases ending_eq_ok_iff.mp step with ⟨rfl, rfl⟩ | ⟨rfl, rfl⟩ <;> rfl

theorem parens_of_inStatement (step : inStatement tag = .ok stage) :
    stage.parens = openParens [tag] := by
  unfold inStatement at step
  split at step
  case h_12 => cases step
  all_goals
    obtain rfl := Except.ok.inj step
    rfl

theorem parens_of_inOperand (step : inOperand site depth t = .ok stage) :
    stage.parens = depth + site.parens + openParens [t.tag] := by
  rcases inOperand_eq_ok_iff.mp step with ⟨same | same, rfl⟩ | ⟨same | same, rfl⟩ | ⟨same, rfl⟩
  case inr.inr =>
    have opening : openParens [.leftParen] = 1 := rfl
    rw [same, opening, parens]
    omega
  all_goals
    rw [same]
    exact (Int.add_zero _).symm

theorem parens_of_inCondition (step : inCondition t = .ok stage) :
    stage.parens = openParens [t.tag] := by
  unfold inCondition at step
  split at step
  case isTrue same =>
    obtain rfl := Except.ok.inj step
    rw [same]
    rfl
  case isFalse =>
  split at step
  case isTrue same =>
    obtain rfl := Except.ok.inj step
    rw [same]
    rfl
  case isFalse =>
  split at step
  case isTrue => simpa [Site.parens] using parens_of_inOperand step
  case isFalse => cases step

theorem openParens_of_isRelational (compares : tag.isRelational = true) : openParens [tag] = 0 := by
  cases tag <;> first | rfl | cases compares

theorem openParens_of_isArithmetic (operator : tag.isArithmetic = true) : openParens [tag] = 0 := by
  cases tag <;> first | rfl | cases operator

theorem parens_of_behindExpression (step : behindExpression site tag = .ok stage) :
    stage.parens = site.parens + openParens [tag] := by
  cases site with
  | final => simpa [Site.parens] using parens_of_ending step
  | left =>
    obtain ⟨compares, rfl⟩ := eq_of_ite_eq_ok step
    rw [openParens_of_isRelational compares]
    rfl
  | group =>
    rw [behindExpression] at step
    split at step
    case isTrue compares =>
      obtain rfl := Except.ok.inj step
      rw [openParens_of_isRelational compares]
      rfl
    case isFalse =>
      obtain ⟨same, rfl⟩ := eq_of_ite_eq_ok step
      rw [same]
      rfl
  | groupRight =>
    obtain ⟨same, rfl⟩ := eq_of_ite_eq_ok step
    rw [same]
    rfl

theorem parens_of_behindOperand (step : behindOperand site depth tag = .ok stage) :
    stage.parens = depth + site.parens + openParens [tag] := by
  rcases behindOperand_eq_ok_iff.mp step with
    ⟨operator, rfl⟩ | ⟨-, rfl, behind⟩ | ⟨depth, rfl, rfl, rfl⟩
  · rw [openParens_of_isArithmetic operator, Int.add_zero]
    rfl
  · simpa using parens_of_behindExpression behind
  · have closing : openParens [.rightParen] = -1 := rfl
    rw [closing, parens]
    omega

/-- With a token the number of open parentheses changes as the token says. -/
theorem parens_of_next (step : stage.next t = .ok stage') :
    stage'.parens = stage.parens + openParens [t.tag] := by
  cases stage with
  | statementDue => exact (parens_of_inStatement step).trans (Int.zero_add _).symm
  | equalsDue | nameDue =>
    obtain ⟨same, rfl⟩ := eq_of_ite_eq_ok step
    rw [same]
    rfl
  | statementRead | conditionRead => exact (parens_of_ending step).trans (Int.zero_add _).symm
  | conditionDue => exact (parens_of_inCondition step).trans (Int.zero_add _).symm
  | operandDue site depth => exact parens_of_inOperand step
  | numberDue site depth signColumn =>
    obtain ⟨⟨same, -⟩, rfl⟩ := eq_of_ite_eq_ok step
    rw [same]
    exact (Int.add_zero _).symm
  | operandRead site depth => exact parens_of_behindOperand step
  | lineRead => cases step

/-! What a token has to be to be rejected for a parenthesis: the end of the line while a
parenthesis is open, or one that closes none. -/

theorem parens_of_behindExpression_eq_error
    (stop : behindExpression site tag = .error .parenthesis) :
    tag = .endOfLine ∧ 0 < site.parens ∨ tag = .rightParen ∧ site.parens = 0 := by
  cases site with
  | final => exact .inr ⟨Tag.eq_of_strayFault (eq_of_ending_eq_error stop).symm, rfl⟩
  | left => cases eq_of_ite_eq_error stop
  | group =>
    rw [behindExpression] at stop
    split at stop
    case isTrue => cases stop
    case isFalse =>
      exact .inl ⟨Tag.eq_of_unclosedFault (eq_of_ite_eq_error stop).symm, Int.one_pos⟩
  | groupRight =>
    exact .inl ⟨Tag.eq_of_unclosedFault (eq_of_ite_eq_error stop).symm, Int.one_pos⟩

theorem parens_of_behindOperand_eq_error
    (stop : behindOperand site depth tag = .error .parenthesis) :
    tag = .endOfLine ∧ 0 < depth + site.parens ∨
      tag = .rightParen ∧ depth + site.parens = 0 := by
  unfold behindOperand at stop
  split at stop
  case isTrue => cases stop
  case isFalse =>
  split at stop
  case h_1 => simpa using parens_of_behindExpression_eq_error stop
  case h_2 depth =>
    have site := site.parens_nonneg
    exact .inl ⟨Tag.eq_of_unclosedFault (eq_of_ite_eq_error stop).symm, by omega⟩

/-- A token is rejected for a parenthesis when it ends the line while one is open, or when it would
close one while none is. -/
theorem parens_of_next_eq_error (stop : stage.next t = .error .parenthesis) :
    t.tag = .endOfLine ∧ 0 < stage.parens ∨ t.tag = .rightParen ∧ stage.parens = 0 := by
  cases stage with
  | statementDue =>
    have first := eq_diagnosis_of_inStatement stop
    rw [diagnosis] at first
    split at first <;> cases first
  | equalsDue | nameDue | numberDue => cases eq_of_ite_eq_error stop
  | statementRead => cases eq_of_ending_eq_error stop
  | conditionDue => cases eq_condition_of_inCondition stop
  | operandDue => cases (eq_operand_of_inOperand stop).1
  | operandRead => exact parens_of_behindOperand_eq_error stop
  | conditionRead => exact .inr ⟨Tag.eq_of_strayFault (eq_of_ending_eq_error stop).symm, rfl⟩
  | lineRead => cases stop

end Stage

/-! ### Runs -/

section Runs

variable {s s' : Stage × Context}

theorem LeavesOpen.advance (h : LeavesOpen ts s.1.parens) (step : Stage.advance s t = .ok s') :
    LeavesOpen (ts ++ [t]) s'.1.parens := by
  have parens := Stage.parens_of_next (Stage.next_of_advance step)
  rw [parens]
  exact h.concat (parens ▸ Stage.parens_nonneg _)

/-- The stage behind a run tells how many parentheses are open. -/
theorem LeavesOpen.run (h : LeavesOpen ts s.1.parens) (reached : Stage.run s us = .ok s') :
    LeavesOpen (ts ++ us) s'.1.parens := by
  induction us generalizing ts s with
  | nil =>
    obtain rfl := Except.ok.inj reached
    rwa [List.append_nil]
  | cons t us ih =>
    rw [Stage.run_cons, bind_eq_ok_iff] at reached
    obtain ⟨s₁, step, later⟩ := reached
    rw [List.append_cons]
    exact ih (h.advance step) later

/-- A run that leaves no parenthesis open leaves none open in any of its statements. The tokens
before it begin the first of them. -/
theorem LeavesOpen.isBalanced_of_mem_splitOnP (h : LeavesOpen front s.1.parens)
    (begun : ∀ t ∈ front, t.tag ≠ .semicolon) (reached : Stage.run s ts = .ok s')
    (closed : s'.1.parens = 0) :
    ∀ part ∈ (front ++ ts).splitOnP (·.tag = .semicolon), IsBalanced part := by
  have single : front.splitOnP (·.tag = .semicolon) = [front] :=
    List.splitOnP_eq_singleton (by simpa using begun)
  induction ts generalizing front s with
  | nil =>
    obtain rfl := Except.ok.inj reached
    rw [List.append_nil, single]
    exact List.forall_mem_singleton.mpr (isBalanced_iff.mpr (closed ▸ h))
  | cons t ts ih =>
    rw [Stage.run_cons, bind_eq_ok_iff] at reached
    obtain ⟨s₁, step, later⟩ := reached
    by_cases separates : t.tag = .semicolon
    · -- no parenthesis is open where the statement is finished, nor where the next one begins
      obtain ⟨finished, due⟩ :=
        (Stage.next_eq_ok_iff_of_ends (.inl separates)).mp (Stage.next_of_advance step)
      rw [if_pos separates] at due
      have start : LeavesOpen [] s₁.1.parens := by
        rw [due]
        exact .nil
      rw [List.splitOnP_append_cons front ts (by simpa using separates), single]
      refine List.forall_mem_cons.mpr ⟨?_, ih start (by simp) later List.splitOnP_nil⟩
      exact isBalanced_iff.mpr (Stage.parens_of_mayEnd finished ▸ h)
    · have begun' : ∀ u ∈ front ++ [t], u.tag ≠ .semicolon :=
        List.forall_mem_append.mpr ⟨begun, by simpa using separates⟩
      rw [List.append_cons]
      exact ih (h.advance step) begun' later (List.splitOnP_eq_singleton (by simpa using begun'))

end Runs

/-! ### Lines -/

namespace Stage

variable {stop : Token}

/-- A line is accepted only if its parentheses pair up, and those of each statement. -/
theorem isBalanced_of_runLine (stops : stop.tag = .endOfLine)
    (accepted : runLine ctx (ts ++ [stop]) = .ok after) :
    IsBalanced (ts ++ [stop]) ∧
      ∀ part ∈ (ts ++ [stop]).splitOnP (·.tag = .semicolon), IsBalanced part := by
  obtain ⟨start, stage, label, reached, finished⟩ := (runLine_eq_ok_iff stops).mp accepted
  have isLabel := (Label.isLabel_of_bodyStart? label).2
  have last : advance (stage, after) stop = .ok (lineRead, after) :=
    (advance_eq_ok_iff_of_ends (.inr stops)).mpr ⟨finished, by simp [stops]⟩
  have whole : run (statementDue, ctx) (ts.drop start ++ [stop]) = .ok (lineRead, after) := by
    rw [run_concat, reached]
    exact last
  have front : LeavesOpen (ts.take start) (parens statementDue) := .of_isLabel isLabel
  have begun : ∀ t ∈ ts.take start, t.tag ≠ .semicolon := by
    intro t member
    rcases isLabel.eq_or_eq (List.mem_map_of_mem member) with same | same <;> simp [same]
  rw [← List.take_append_drop start ts, List.append_assoc]
  exact ⟨isBalanced_iff.mpr (front.run whole), front.isBalanced_of_mem_splitOnP begun whole rfl⟩

/-- Nothing follows the token that ends the line. -/
theorem eq_nil_of_endOfLine (inner : ∀ t ∈ ts, t.tag ≠ .endOfLine)
    (whole : ts ++ [stop] = us ++ t :: vs) (ends : t.tag = .endOfLine) : vs = [] := by
  rcases List.eq_nil_or_concat vs with none | ⟨before, last, rfl⟩
  · exact none
  · rw [List.concat_eq_append, ← List.cons_append, ← List.append_assoc] at whole
    have earlier := List.append_inj_left' whole rfl
    exact absurd ends (inner t (by simp [earlier]))

/-- A line is rejected for a parenthesis only if its parentheses do not pair up. -/
theorem not_isBalanced_of_runLine (inner : ∀ t ∈ ts, t.tag ≠ .endOfLine)
    (rejected : runLine ctx (ts ++ [stop]) = .error .parenthesis) :
    ¬ IsBalanced (ts ++ [stop]) := by
  intro balanced
  have closed := isBalanced_iff.mp balanced
  rcases runLine_cases ctx (ts ++ [stop]) with label | ⟨front, body, whole, isLabel, same⟩
  · rw [label] at rejected
    cases rejected
  rw [same, map_eq_error_iff, run_eq_error_iff] at rejected
  obtain ⟨us, t, vs, s, rfl, reached, stopped⟩ := rejected
  have labelled : LeavesOpen front (parens statementDue) := .of_isLabel isLabel
  have opened := labelled.run reached
  rw [← List.append_assoc] at whole
  generalize front ++ us = read at opened whole
  rcases error_of_advance stopped with step | ⟨-, -, wrong⟩
  · rcases parens_of_next_eq_error step with ⟨ends, pending⟩ | ⟨closes, none⟩
    · -- the line is finished while some parenthesis is open
      have finished := eq_nil_of_endOfLine inner whole ends
      have total := opened.total_concat t
      rw [← finished, ← whole, closed.total, ends] at total
      have same : openParens [.endOfLine] = 0 := rfl
      omega
    · -- the token would close a parenthesis while none is open
      have total := opened.total_concat t
      have above := closed.front (read ++ [t]) ⟨vs, by rw [whole, ← List.append_cons]⟩
      rw [closes, none] at total
      have closing : openParens [.rightParen] = -1 := rfl
      omega
  · cases wrong

end Stage

/-- The parentheses of an accepted line pair up, and so do those of each of its statements. Those
of a line that is rejected for a parenthesis do not. -/
theorem judgeLine_parentheses (text : String) (ctx : Context) :
    (∀ after, judgeLine text ctx = .ok after →
      IsBalanced (tokenize ctx.line text) ∧
      ∀ part ∈ (tokenize ctx.line text).splitOnP (·.tag = .semicolon), IsBalanced part) ∧
    ∀ line, judgeLine text ctx = .error (.rejected line .parenthesis) →
      ¬ IsBalanced (tokenize ctx.line text) := by
  obtain ⟨p, same, spelled⟩ := exists_tokenize_eq ctx.line text
  refine ⟨fun after accepted => ?_, fun line failed => ?_⟩
  · have checked := judgeLine_eq_ok_iff_runLine.mp accepted
    rw [same] at checked ⊢
    exact Stage.isBalanced_of_runLine rfl checked
  · obtain ⟨fault, rejected, verdict⟩ := exists_check_eq_error failed
    injection verdict with _ parenthesis
    subst parenthesis
    have checked : checkLine text ctx = .error .parenthesis := rejected
    rw [checkLine_eq_runLine, same] at checked
    rw [same]
    exact Stage.not_isBalanced_of_runLine (fun t member => (spelled t member).tag_ne_endOfLine)
      checked

/-- The second line has as many left as right parentheses, but the first of them closes none. -/
theorem judgeLine_parentheses_reversed :
    judgeLine "top: if ((x + 1) > (y)); write (x)" ⟨1, 0⟩ = .ok ⟨1, 0⟩ ∧
    IsBalanced (tokenize 1 "top: if ((x + 1) > (y)); write (x)") ∧
    (∀ part ∈ (tokenize 1 "top: if ((x + 1) > (y)); write (x)").splitOnP (·.tag = .semicolon),
      IsBalanced part) ∧
    judgeLine "write x) + (y" ⟨1, 0⟩ = .error (.rejected 1 .parenthesis) ∧
    ¬ IsBalanced (tokenize 1 "write x) + (y") := by
  have accepted : judgeLine "top: if ((x + 1) > (y)); write (x)" ⟨1, 0⟩ = .ok ⟨1, 0⟩ := by
    decide +kernel
  have rejected : judgeLine "write x) + (y" ⟨1, 0⟩ = .error (.rejected 1 .parenthesis) := by
    decide +kernel
  obtain ⟨whole, parts⟩ := (judgeLine_parentheses _ ⟨1, 0⟩).1 _ accepted
  exact ⟨accepted, whole, parts, rejected, (judgeLine_parentheses _ ⟨1, 0⟩).2 _ rejected⟩

end LineBasic
