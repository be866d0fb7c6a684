import LineBasic.Proofs.Diagnosis.Stage
import Mathlib.Data.List.DropRight

/-!
# What a token out of place is reported as

Which fault a token has that cannot come next depends on the tags of its statement before it and
on its own. This says so without stages: by the first and the last tag of the statement, by the
parentheses that are open, and by whether a condition has come to its comparison.

## Main definitions

* `openStatement`: the tags of the statement that a sequence of tokens ends in.
* `diagnosis`: the fault of a token that cannot follow a beginning of a statement.
* `Stage.Fits`: what a stage tells of the beginning of the statement.

## Main results

* `Stage.Fits.next`: the stage goes on telling the truth behind every token.
* `Stage.eq_diagnosis_of_run`: a run stops with the fault that the diagnosis finds.
-/

namespace LineBasic

namespace Tag

/-- Whether a statement that begins with the tag holds no expression or condition. -/
def hasFixedForm : Tag → Bool
  | endwhileWord | readWord | gotoWord | gosubWord | returnWord | breakWord | endWord => true
  | _ => false

/-- Whether a statement that begins with the tag goes on with a condition. -/
def takesCondition : Tag → Bool
  | ifWord | whileWord => true
  | _ => false

/-- Whether an operand has to follow the tag. -/
def asksForOperand : Tag → Bool
  | writeWord | leftParen => true
  | t => t.isArithmetic || t.isRelational

/-- Whether a condition needs no comparison any more when it holds the tag. -/
def settlesCondition : Tag → Bool
  | literal => true
  | t => t.isRelational

end Tag

/-- The tags of the statement that a sequence of tokens ends in. -/
def openStatement (ts : List Token) : List Tag :=
  (ts.map Token.tag).rtakeWhile fun tag => tag ≠ .semicolon

/-- How many parentheses tags leave open. -/
def openParens (before : List Tag) : Int :=
  before.count .leftParen - before.count .rightParen

/-- Whether the beginning of a statement ends in a condition whose comparison is still to come. -/
def isUndecided (before : List Tag) : Bool :=
  before.head?.any Tag.takesCondition && !before.any Tag.settlesCondition

/-- The fault of a token that cannot follow the beginning of a statement. -/
def diagnosis (before : List Tag) (t : Tag) : Fault :=
  match before with
  | [] => if t = .endwhileWord then .unopenedLoop else .statement
  | [.identifier] => .statement
  | [.ifWord] | [.whileWord] => .condition
  | _ =>
    if before.head?.any Tag.hasFixedForm then .statement
    else if before.getLast?.any Tag.asksForOperand then .operand
    else if 0 < openParens before then t.unclosedFault
    else if isUndecided before then .comparison
    else t.strayFault

variable {before : List Tag} {first t : Tag}

theorem openParens_concat (before : List Tag) (t : Tag) :
    openParens (before ++ [t]) = openParens before + openParens [t] := by
  simp only [openParens, List.count_append]
  omega

theorem isUndecided_concat (h : before ≠ []) (t : Tag) :
    isUndecided (before ++ [t]) = (isUndecided before && !t.settlesCondition) := by
  obtain ⟨first, rest, rfl⟩ := List.exists_cons_of_ne_nil h
  simp [isUndecided, Bool.and_assoc]

theorem openStatement_concat (ts : List Token) (t : Token) :
    openStatement (ts ++ [t]) =
      if t.tag = .semicolon then [] else openStatement ts ++ [t.tag] := by
  by_cases separator : t.tag = .semicolon <;> simp [openStatement, separator]

theorem diagnosis_of_hasFixedForm (fixed : before.head?.any Tag.hasFixedForm = true) (t : Tag) :
    diagnosis before t = .statement := by
  unfold diagnosis
  split
  · cases fixed
  · rfl
  · cases fixed
  · cases fixed
  · exact if_pos fixed

theorem diagnosis_of_asksForOperand (form : before.head?.any Tag.hasFixedForm = false)
    (asks : before.getLast?.any Tag.asksForOperand = true) (t : Tag) :
    diagnosis before t = .operand := by
  unfold diagnosis
  split
  · cases asks
  · cases asks
  · cases asks
  · cases asks
  · rw [if_neg (by simp [form]), if_pos asks]

/-- Behind an operand it depends on the parentheses and on the comparison what is missing. -/
theorem diagnosis_of_not_asksForOperand (form : before.head?.any Tag.hasFixedForm = false)
    (asks : before.getLast?.any Tag.asksForOperand = false) (long : 2 ≤ before.length) (t : Tag) :
    diagnosis before t =
      if 0 < openParens before then t.unclosedFault
      else if isUndecided before then .comparison
      else t.strayFault := by
  unfold diagnosis
  split
  · simp at long
  · simp at long
  · simp at long
  · simp at long
  · rw [if_neg (by simp [form]), if_neg (by simp [asks])]

/-! ### What a stage tells of the tokens before it -/

namespace Site

variable {site site' : Site} {depth depth' : Nat}

/-- How many parentheses are open besides those of the expression itself. -/
def parens : Site → Int
  | group | groupRight => 1
  | final | left => 0

/-- Whether the comparison of a condition is still to come. -/
def isUndecided : Site → Bool
  | left | group => true
  | final | groupRight => false

/-- Whether an expression at a site can stand at the end of the beginning of a statement. -/
structure Fits (site : Site) (depth : Nat) (before : List Tag) : Prop where
  nonempty : before ≠ []
  form : before.head?.any Tag.hasFixedForm = false
  parens : openParens before = depth + site.parens
  undecided : LineBasic.isUndecided before = site.isUndecided

/-- The same when an operand has to come next. -/
def FitsDue (site : Site) (depth : Nat) (before : List Tag) : Prop :=
  site.Fits depth before ∧ before.getLast?.any Tag.asksForOperand = true

/-- The same when an operand has been read. -/
def FitsRead (site : Site) (depth : Nat) (before : List Tag) : Prop :=
  site.Fits depth before ∧ before.getLast?.any Tag.asksForOperand = false ∧ 2 ≤ before.length

namespace Fits

/-- One more tag leads to any site at which as many parentheses are open and which differs in
the comparison only if the tag is one. -/
theorem concat (h : site.Fits depth before)
    (parens : depth' + site'.parens = depth + site.parens + openParens [t])
    (undecided : site'.isUndecided = (site.isUndecided && !t.settlesCondition)) :
    site'.Fits depth' (before ++ [t]) where
  nonempty := by simp
  form := by
    obtain ⟨first, rest, rfl⟩ := List.exists_cons_of_ne_nil h.nonempty
    exact h.form
  parens := by rw [openParens_concat, h.parens, parens]
  undecided := by rw [isUndecided_concat h.nonempty, h.undecided, undecided]

theorem concat_due (h : site.Fits depth before) (asks : t.asksForOperand = true)
    (parens : depth' + site'.parens = depth + site.parens + openParens [t])
    (undecided : site'.isUndecided = (site.isUndecided && !t.settlesCondition)) :
    site'.FitsDue depth' (before ++ [t]) :=
  ⟨h.concat parens undecided, by simpa using asks⟩

theorem concat_read (h : site.Fits depth before) (asks : t.asksForOperand = false)
    (parens : depth' + site'.parens = depth + site.parens + openParens [t])
    (undecided : site'.isUndecided = (site.isUndecided && !t.settlesCondition)) :
    site'.FitsRead depth' (before ++ [t]) := by
  refine ⟨h.concat parens undecided, by simpa using asks, ?_⟩
  have := List.length_pos_iff.mpr h.nonempty
  rw [List.length_append, List.length_singleton]
  omega

/-- A comparison operator asks for an operand on its right side. -/
theorem concat_relational (h : site.Fits depth before) (compares : t.isRelational = true)
    (parens : depth' + site'.parens = depth + site.parens)
    (settled : site'.isUndecided = false) : site'.FitsDue depth' (before ++ [t]) := by
  have effect : t.asksForOperand = true ∧ openParens [t] = 0 ∧ t.settlesCondition = true := by
    cases t <;> first | exact ⟨rfl, rfl, rfl⟩ | cases compares
  obtain ⟨asks, same, settles⟩ := effect
  exact h.concat_due asks (by rw [same, parens, Int.add_zero]) (by rw [settled, settles]; simp)

/-- An operator asks for another operand at the same place. -/
theorem concat_arithmetic (h : site.Fits depth before) (operator : t.isArithmetic = true) :
    site.FitsDue depth (before ++ [t]) := by
  have effect : t.asksForOperand = true ∧ openParens [t] = 0 ∧ t.settlesCondition = false := by
    cases t <;> first | exact ⟨rfl, rfl, rfl⟩ | cases operator
  obtain ⟨asks, same, settles⟩ := effect
  exact h.concat_due asks (by rw [same, Int.add_zero]) (by rw [settles]; simp)

end Fits

end Site

namespace Stage

variable {stage stage' : Stage} {site : Site} {depth : Nat} {token : Token} {fault : Fault}

/-- Whether a stage can be reached by the beginning of a statement. -/
def Fits (stage : Stage) (before : List Tag) : Prop :=
  match stage with
  | statementDue => before = []
  | equalsDue => before = [.identifier]
  | nameDue | statementRead => before.head?.any Tag.hasFixedForm = true
  | conditionDue => before = [.ifWord] ∨ before = [.whileWord]
  | operandDue site depth | numberDue site depth _ => site.FitsDue depth before
  | operandRead site depth => site.FitsRead depth before
  | conditionRead => Site.final.FitsRead 0 before
  | lineRead => False

theorem fits_inOperand (h : site.Fits depth before) (step : inOperand site depth token = .ok stage) :
    stage.Fits (before ++ [token.tag]) := by
  rcases inOperand_eq_ok_iff.mp step with ⟨same | same, rfl⟩ | ⟨same | same, rfl⟩ | ⟨same, rfl⟩
  · rw [same]
    exact h.concat_read rfl (by simp [openParens]) (Bool.and_true _).symm
  · rw [same]
    exact h.concat_read rfl (by simp [openParens]) (Bool.and_true _).symm
  · rw [same]
    exact h.concat_due rfl (by simp [openParens]) (Bool.and_true _).symm
  · rw [same]
    exact h.concat_due rfl (by simp [openParens]) (Bool.and_true _).symm
  · rw [same]
    exact h.concat_due rfl (by simp [openParens]; omega) (Bool.and_true _).symm

theorem fits_behindExpression (h : site.FitsRead 0 before) (more : t ≠ .semicolon)
    (noStop : t ≠ .endOfLine) (step : behindExpression site t = .ok stage) :
    stage.Fits (before ++ [t]) := by
  cases site with
  | final =>
    rw [behindExpression, ending, if_neg more, if_neg noStop] at step
    cases step
  | left =>
    rw [behindExpression] at step
    split at step
    case isTrue compares =>
      obtain rfl := Except.ok.inj step
      exact h.1.concat_relational compares rfl rfl
    case isFalse => cases step
  | group =>
    rw [behindExpression] at step
    split at step
    case isTrue compares =>
      obtain rfl := Except.ok.inj step
      exact h.1.concat_relational compares rfl rfl
    case isFalse =>
      split at step
      case isTrue same =>
        obtain rfl := Except.ok.inj step
        rw [same]
        exact h.1.concat_read rfl rfl rfl
      case isFalse => cases step
  | groupRight =>
    rw [behindExpression] at step
    split at step
    case isTrue same =>
      obtain rfl := Except.ok.inj step
      rw [same]
      exact h.1.concat_read rfl rfl rfl
    case isFalse => cases step

theorem fits_behindOperand (h : site.FitsRead depth before) (more : t ≠ .semicolon)
    (noStop : t ≠ .endOfLine) (step : behindOperand site depth t = .ok stage) :
    stage.Fits (before ++ [t]) := by
  rcases behindOperand_eq_ok_iff.mp step with
    ⟨operator, rfl⟩ | ⟨-, rfl, behind⟩ | ⟨depth, rfl, rfl, rfl⟩
  · exact h.1.concat_arithmetic operator
  · exact fits_behindExpression h more noStop behind
  · exact h.1.concat_read rfl (by simp [openParens]; omega) (Bool.and_true _).symm

theorem fits_inCondition (h : before = [.ifWord] ∨ before = [.whileWord])
    (step : inCondition token = .ok stage) : stage.Fits (before ++ [token.tag]) := by
  have start : Site.left.Fits 0 before := by
    rcases h with rfl | rfl <;> exact ⟨by simp, rfl, rfl, rfl⟩
  unfold inCondition at step
  split at step
  case isTrue same =>
    obtain rfl := Except.ok.inj step
    rw [same]
    exact start.concat_read rfl rfl rfl
  case isFalse =>
  split at step
  case isTrue same =>
    obtain rfl := Except.ok.inj step
    rw [same]
    exact start.concat_due rfl rfl rfl
  case isFalse =>
  split at step
  · exact fits_inOperand start step
  · cases step

theorem fits_inStatement (step : inStatement t = .ok stage) : stage.Fits [t] := by
  unfold inStatement at step
  split at step
  case h_12 => cases step
  all_goals obtain rfl := Except.ok.inj step
  case h_1 => rfl
  case h_2 => exact .inl rfl
  case h_3 => exact .inr rfl
  case h_7 => exact ⟨⟨by simp, rfl, rfl, rfl⟩, rfl⟩
  all_goals rfl

/-- The stage behind a token can be reached by what the token makes of the beginning of the
statement. -/
theorem Fits.next (h : stage.Fits before) (noStop : token.tag ≠ .endOfLine)
    (step : stage.next token = .ok stage') :
    stage'.Fits (if token.tag = .semicolon then [] else before ++ [token.tag]) := by
  by_cases separator : token.tag = .semicolon
  · rw [eq_of_next_of_ends step (.inl separator), if_pos separator, if_pos separator]
    rfl
  rw [if_neg separator]
  have noEnd (fault : Fault) : ending fault token.tag ≠ .ok stage' := by
    rw [ending, if_neg separator, if_neg noStop]
    intro same
    cases same
  cases stage with
  | statementDue =>
    obtain rfl : before = [] := h
    exact fits_inStatement step
  | equalsDue =>
    obtain rfl : before = [.identifier] := h
    rw [Stage.next] at step
    split at step
    case isTrue same =>
      obtain rfl := Except.ok.inj step
      rw [same]
      exact ⟨⟨by simp, rfl, rfl, rfl⟩, rfl⟩
    case isFalse => cases step
  | nameDue =>
    rw [Stage.next] at step
    split at step
    case isTrue same =>
      obtain rfl := Except.ok.inj step
      cases before with
      | nil => cases h
      | cons first rest => exact h
    case isFalse => cases step
  | conditionDue => exact fits_inCondition h step
  | operandDue site depth => exact fits_inOperand h.1 step
  | numberDue site depth signColumn =>
    rw [Stage.next] at step
    split at step
    case isTrue same =>
      obtain rfl := Except.ok.inj step
      rw [same.1]
      exact h.1.concat_read rfl (by simp [openParens]) (Bool.and_true _).symm
    case isFalse => cases step
  | operandRead site depth => exact fits_behindOperand h separator noStop step
  | statementRead | conditionRead => exact absurd step (noEnd _)
  | lineRead => exact h.elim

theorem eq_of_ite_eq_error {p : Prop} [Decidable p] {found : Fault}
    (h : (if p then .ok stage else .error found) = Except.error fault) : fault = found := by
  split at h
  · cases h
  · exact (Except.error.inj h).symm

theorem eq_of_ending_eq_error {found : Fault} (h : ending found t = .error fault) :
    fault = found := by
  unfold ending at h
  split at h
  · cases h
  · exact eq_of_ite_eq_error h

/-- Where an operand is due any other token has the same fault, and no expression begins with
it. -/
theorem eq_operand_of_inOperand (step : inOperand site depth token = .error fault) :
    fault = .operand ∧ token.tag.startsExpression = false := by
  unfold inOperand at step
  split at step
  case h_6 noName noNumber noPlus noMinus noParen =>
    refine ⟨(Except.error.inj step).symm, ?_⟩
    unfold Tag.startsExpression
    split <;> first | rfl | contradiction
  all_goals cases step

theorem eq_diagnosis_of_behindExpression (h : site.FitsRead 0 before)
    (step : behindExpression site t = .error fault) : fault = diagnosis before t := by
  obtain ⟨fits, asks, long⟩ := h
  rw [diagnosis_of_not_asksForOperand fits.form asks long, fits.parens, fits.undecided]
  cases site <;> grind [behindExpression, ending, Site.parens, Site.isUndecided]

theorem eq_diagnosis_of_behindOperand (h : site.FitsRead depth before)
    (step : behindOperand site depth t = .error fault) : fault = diagnosis before t := by
  unfold behindOperand at step
  split at step
  case isTrue => cases step
  case isFalse =>
  split at step
  · exact eq_diagnosis_of_behindExpression h step
  case h_2 depth =>
    obtain ⟨fits, asks, long⟩ := h
    have some : 0 < openParens before := by
      rw [fits.parens]
      cases site <;> simp only [Site.parens] <;> omega
    rw [diagnosis_of_not_asksForOperand fits.form asks long, if_pos some]
    exact eq_of_ite_eq_error step

theorem eq_condition_of_inCondition (step : inCondition token = .error fault) :
    fault = .condition := by
  unfold inCondition at step
  split at step
  · cases step
  split at step
  · cases step
  split at step
  case isTrue starts =>
    rw [(eq_operand_of_inOperand step).2] at starts
    cases starts
  case isFalse => exact (Except.error.inj step).symm

theorem eq_diagnosis_of_inStatement (step : inStatement t = .error fault) :
    fault = diagnosis [] t := by
  unfold inStatement at step
  split at step
  case h_12 =>
    rw [diagnosis, if_neg (by assumption)]
    exact (Except.error.inj step).symm
  all_goals cases step

/-- A token that cannot come next has the fault that the diagnosis finds. -/
theorem eq_diagnosis_of_next (h : stage.Fits before) (step : stage.next token = .error fault) :
    fault = diagnosis before token.tag := by
  cases stage with
  | statementDue =>
    obtain rfl : before = [] := h
    exact eq_diagnosis_of_inStatement step
  | equalsDue =>
    obtain rfl : before = [.identifier] := h
    exact eq_of_ite_eq_error step
  | nameDue =>
    rw [diagnosis_of_hasFixedForm h]
    exact eq_of_ite_eq_error step
  | statementRead =>
    rw [diagnosis_of_hasFixedForm h]
    exact eq_of_ending_eq_error step
  | conditionDue =>
    rw [eq_condition_of_inCondition step]
    rcases h with rfl | rfl <;> rfl
  | operandDue site depth =>
    rw [diagnosis_of_asksForOperand h.1.form h.2]
    exact (eq_operand_of_inOperand step).1
  | numberDue site depth signColumn =>
    rw [diagnosis_of_asksForOperand h.1.form h.2]
    exact eq_of_ite_eq_error step
  | operandRead site depth => exact eq_diagnosis_of_behindOperand h step
  | conditionRead => exact eq_diagnosis_of_behindExpression h step
  | lineRead => exact h.elim

/-! ### Runs -/

variable {ctx : Context} {s : Stage × Context} {ts : List Token}

/-- The stage behind tokens none of which ends the line can be reached by the statement that they
end in. -/
theorem fits_of_run (noStop : ∀ t ∈ ts, t.tag ≠ .endOfLine)
    (h : run (statementDue, ctx) ts = .ok s) : s.1.Fits (openStatement ts) := by
  induction ts using List.reverseRecOn generalizing s with
  | nil =>
    obtain rfl := Except.ok.inj h
    rfl
  | append_singleton ts t ih =>
    rw [run_concat] at h
    cases before : run (statementDue, ctx) ts with
    | error fault =>
      rw [before] at h
      cases h
    | ok s' =>
      rw [before] at h
      have earlier := ih (fun u member => noStop u (List.mem_append_left _ member)) before
      rw [openStatement_concat]
      exact earlier.next (noStop t (by simp)) (next_of_advance h)

/-- A run stops with the fault that the diagnosis finds. -/
theorem eq_diagnosis_of_run {t : Token} (noStop : ∀ t ∈ ts, t.tag ≠ .endOfLine)
    (h : run (statementDue, ctx) ts = .ok s) (failed : advance s t = .error fault) :
    fault = diagnosis (openStatement ts) t.tag := by
  have fits := fits_of_run noStop h
  rcases error_of_advance failed with step | ⟨first, word, rfl⟩
  · exact eq_diagnosis_of_next fits step
  · rw [first] at fits
    rw [show openStatement ts = [] from fits, word]
    rfl

end Stage

end LineBasic
