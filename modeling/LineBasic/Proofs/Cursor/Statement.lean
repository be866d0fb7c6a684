import LineBasic.Cursor.Statement
import LineBasic.Proofs.Cursor.Condition
import LineBasic.Proofs.Token.Loops

/-!
# Statements are read as they are formed

Statements are read one after another up to the end of the line, and the loops that
are open are counted on the way. Reading them succeeds just when they are formed
as statements and no loop is closed while none is open.

## Main results

* `OfText.exists_isStatement`, `OfText.statement_eq_ok`: reading one statement.
* `OfText.statements_eq_ok_iff`: reading the statements of a line.
-/

namespace LineBasic.Cursor

variable {c d : Cursor} {ctx ctx' : Context} {loops : Int} {ts : List Token}

theorem isArithmetic_eq_false_of_endsStatement {t : Tag} (h : t.endsStatement = true) :
    t.isArithmetic = false := by
  cases t <;> first | rfl | exact nomatch h

namespace OfText

/-- What has been read up to the end of a statement as the expression behind a word is
one. -/
theorem exists_expression_behind {step : Cursor × Context} (h : c.OfText)
    (word : c.tag ≠ .endOfLine) (read : endOfExpression c.next.expression ctx = .ok step) :
    ∃ ts, IsExpression Token.tag Token.Touches ts ∧ c.Passes (c.token :: ts) step.1 ∧
      step.1.tag.endsStatement = true ∧ step.2 = ctx := by
  obtain ⟨reached, stop, same⟩ := endOfExpression_eq_ok_iff.mp read
  obtain ⟨ts, value, passes, -⟩ := h.next.exists_isExpression reached
  exact ⟨ts, value, (h.passes_next word).cons passes, stop, same⟩

/-- What has been read up to the end of a statement as the condition behind a word is
one. -/
theorem exists_condition_behind {step : Cursor × Context} (h : c.OfText)
    (word : c.tag ≠ .endOfLine) (read : endOfExpression c.next.condition ctx = .ok step) :
    ∃ ts, IsCondition Token.tag Token.Touches ts ∧ c.Passes (c.token :: ts) step.1 ∧
      step.1.tag.endsStatement = true ∧ step.2 = ctx := by
  obtain ⟨reached, stop, same⟩ := endOfExpression_eq_ok_iff.mp read
  obtain ⟨ts, condition, passes⟩ := h.next.exists_isCondition reached
  exact ⟨ts, condition, (h.passes_next word).cons passes, stop, same⟩

/-- What has been read as a statement is one, and the statement is over. -/
theorem exists_isStatement {step : Cursor × Context} (h : c.OfText)
    (read : c.statement ctx = .ok step) :
    ∃ ts, IsStatement Token.tag Token.Touches (c.token :: ts) ∧ c.Passes (c.token :: ts) step.1 ∧
      step.1.tag.endsStatement = true ∧ c.tag.countLoop ctx.openLoops = some step.2.openLoops ∧
        step.2.line = ctx.line := by
  unfold statement at read
  split at read
  case h_1 word =>
    have first := h.passes_next (by simp [word])
    split at read
    case isTrue equals =>
      obtain ⟨ts, value, passes, stop, same⟩ :=
        h.next.exists_expression_behind (by simp [equals]) read
      exact ⟨c.next.token :: ts, .assignment word equals value, first.cons passes, stop,
        by rw [word, same]; rfl, by rw [same]⟩
    case isFalse => exact nomatch read
  case h_2 word =>
    obtain ⟨ts, condition, passes, stop, same⟩ := h.exists_condition_behind (by simp [word]) read
    exact ⟨ts, .conditional word condition, passes, stop, by rw [word, same]; rfl, by rw [same]⟩
  case h_3 word =>
    obtain ⟨ts, condition, passes, stop, same⟩ := h.exists_condition_behind (by simp [word]) read
    exact ⟨ts, .openLoop word condition, passes, stop, by rw [word, same]; rfl, by rw [same]; rfl⟩
  case h_4 word =>
    have first := h.passes_next (by simp [word])
    split at read
    case isTrue => exact nomatch read
    case isFalse someOpen =>
      obtain ⟨stop, rfl⟩ := endOfStatement_eq_ok_iff.mp read
      exact ⟨[], .closeLoop word, first, stop, by rw [word]; exact if_neg someOpen, rfl⟩
  -- the words before a name
  iterate 3
    · rename_i word
      have first := h.passes_next (by simp [word])
      split at read
      case isTrue name =>
        obtain ⟨stop, rfl⟩ := endOfStatement_eq_ok_iff.mp read
        have second := h.next.passes_next (by simp [name])
        have named : c.tag = .readWord ∨ c.tag = .gotoWord ∨ c.tag = .gosubWord := by simp [word]
        exact ⟨[c.next.token], .naming named name, first.cons second, stop, by rw [word]; rfl, rfl⟩
      case isFalse => exact nomatch read
  · rename_i word
    obtain ⟨ts, value, passes, stop, same⟩ := h.exists_expression_behind (by simp [word]) read
    exact ⟨ts, .write word value, passes, stop, by rw [word, same]; rfl, by rw [same]⟩
  -- the words that stand alone
  iterate 3
    · rename_i word
      have first := h.passes_next (by simp [word])
      obtain ⟨stop, rfl⟩ := endOfStatement_eq_ok_iff.mp read
      have bare : c.tag = .returnWord ∨ c.tag = .breakWord ∨ c.tag = .endWord := by simp [word]
      exact ⟨[], .bare bare, first, stop, by rw [word]; rfl, rfl⟩
  · exact nomatch read

/-- An expression up to the end of a statement is read. -/
theorem endOfExpression_expression_eq_ok (h : c.OfText) (passes : c.Passes ts d)
    (stop : d.tag.endsStatement = true) (value : IsExpression Token.tag Token.Touches ts) :
    endOfExpression c.expression ctx = .ok (d, ctx) := by
  have stop' := isArithmetic_eq_false_of_endsStatement stop
  exact endOfExpression_eq_ok_iff.mpr ⟨h.expression_eq_ok passes stop' value, stop, rfl⟩

/-- A condition up to the end of a statement is read. -/
theorem endOfExpression_condition_eq_ok (h : c.OfText) (passes : c.Passes ts d)
    (stop : d.tag.endsStatement = true) (condition : IsCondition Token.tag Token.Touches ts) :
    endOfExpression c.condition ctx = .ok (d, ctx) := by
  have stop' := isArithmetic_eq_false_of_endsStatement stop
  exact endOfExpression_eq_ok_iff.mpr ⟨h.condition_eq_ok passes stop' condition, stop, rfl⟩

/-- A statement that stands at a cursor and is over behind it is read. -/
theorem statement_eq_ok {t : Token} (h : c.OfText) (passes : c.Passes (t :: ts) d)
    (stop : d.tag.endsStatement = true) (count : t.tag.countLoop ctx.openLoops = some loops)
    (form : IsStatement Token.tag Token.Touches (t :: ts)) :
    c.statement ctx = .ok (d, { ctx with openLoops := loops }) := by
  have here := passes.tag_eq
  unfold statement
  cases form with
  | assignment word equals value =>
    rw [word] at here count
    obtain rfl := Option.some.inj count
    simp only [here]
    rw [← passes.tail.tag_eq] at equals
    rw [if_pos equals]
    exact h.next.next.endOfExpression_expression_eq_ok passes.tail.tail stop value
  | conditional word condition =>
    rw [word] at here count
    obtain rfl := Option.some.inj count
    simp only [here]
    exact h.next.endOfExpression_condition_eq_ok passes.tail stop condition
  | openLoop word condition =>
    rw [word] at here count
    obtain rfl := Option.some.inj count
    simp only [here]
    exact h.next.endOfExpression_condition_eq_ok passes.tail stop condition
  | closeLoop word =>
    rw [word] at here count
    simp only [here]
    -- no count comes out of a loop that is closed while none is open
    by_cases noneOpen : ctx.openLoops = 0
    · exact nomatch (if_pos noneOpen).symm.trans count
    · obtain rfl := Option.some.inj ((if_neg noneOpen).symm.trans count)
      rw [if_neg noneOpen, passes.tail.eq_of_nil]
      exact endOfStatement_eq_ok_iff.mpr ⟨stop, rfl⟩
  | naming word name =>
    rw [← passes.tail.tag_eq] at name
    have last := passes.tail.tail.eq_of_nil
    rcases word with word | word | word
    all_goals
      rw [word] at here count
      obtain rfl := Option.some.inj count
      simp only [here]
      rw [if_pos name, last]
      exact endOfStatement_eq_ok_iff.mpr ⟨stop, rfl⟩
  | write word value =>
    rw [word] at here count
    obtain rfl := Option.some.inj count
    simp only [here]
    exact h.next.endOfExpression_expression_eq_ok passes.tail stop value
  | bare word =>
    have last := passes.tail.eq_of_nil
    rcases word with word | word | word
    all_goals
      rw [word] at here count
      obtain rfl := Option.some.inj count
      simp only [here]
      rw [last]
      exact endOfStatement_eq_ok_iff.mpr ⟨stop, rfl⟩

theorem endsStatement_cases {t : Tag} (h : t.endsStatement = true) :
    t = .semicolon ∨ t = .endOfLine := by
  cases t <;> first | exact .inl rfl | exact .inr rfl | exact nomatch h

/-- What has been read as statements are statements up to the end of the line. -/
theorem exists_isStatements {c : Cursor} {ctx : Context} (h : c.OfText)
    (read : c.statements ctx = .ok ctx') :
    ∃ ts d, IsStatements Token.tag Token.Touches ts ∧ c.Passes ts d ∧ d.tag = .endOfLine ∧
      loopsAfter ctx.openLoops ts = some ctx'.openLoops ∧ ctx'.line = ctx.line := by
  -- a semicolon is never the last token, so every further statement has fewer tokens left
  rw [statements_eq, bind_eq_ok_iff] at read
  obtain ⟨step, first, read⟩ := read
  obtain ⟨ts, form, passes, stop, count, line⟩ := h.exists_isStatement first
  have hstep := h.of_passes passes
  have count := (form.loopsAfter_eq ctx.openLoops).trans count
  split at read
  case isTrue separator =>
    split at read
    case isTrue => exact nomatch read
    case isFalse notPastEnd =>
      have shorter := left_next_lt notPastEnd
      have shorter' := left_le_of_statement first
      obtain ⟨us, d, later, passes', stop, count', line'⟩ := hstep.next.exists_isStatements read
      have between := hstep.passes_next (by simp [separator])
      refine ⟨(c.token :: ts) ++ step.1.token :: us, d, .chain form separator later,
        passes.trans (between.cons passes'), stop, ?_, line'.trans line⟩
      rw [loopsAfter_append, count, Option.bind_some, loopsAfter_cons]
      have same : step.1.token.tag = .semicolon := separator
      rw [same]
      exact count'
  case isFalse noSeparator =>
    obtain rfl := Except.ok.inj read
    have stop := (endsStatement_cases stop).resolve_left noSeparator
    exact ⟨c.token :: ts, step.1, .single form, passes, stop, count, line⟩
termination_by c.left
decreasing_by omega

/-- Statements that stand between a cursor and the end of the line are read. -/
theorem statements_eq_ok (h : c.OfText) (passes : c.Passes ts d) (stop : d.tag = .endOfLine)
    (count : loopsAfter ctx.openLoops ts = some loops)
    (forms : IsStatements Token.tag Token.Touches ts) :
    c.statements ctx = .ok { ctx with openLoops := loops } := by
  induction forms generalizing c ctx with
  | @single ts form =>
    obtain ⟨t, us, rfl⟩ := form.exists_cons
    rw [form.loopsAfter_eq] at count
    rw [statements_eq, h.statement_eq_ok passes (by rw [stop]; rfl) count form]
    change (if d.tag = .semicolon then _ else _) = _
    rw [if_neg (by simp [stop])]
  | @chain separator ts us form hseparator _ ih =>
    obtain ⟨t, vs, rfl⟩ := form.exists_cons
    obtain ⟨e, before, after⟩ := passes.exists_between
    have he := after.tag_eq.trans hseparator
    rw [loopsAfter_append, Option.bind_eq_some_iff] at count
    obtain ⟨middle, count, later⟩ := count
    rw [form.loopsAfter_eq] at count
    rw [loopsAfter_cons, hseparator] at later
    rw [statements_eq, h.statement_eq_ok before (by rw [he]; rfl) count form]
    change (if e.tag = .semicolon then _ else _) = _
    rw [if_pos he, if_neg after.not_isPastEnd]
    exact ih (h.of_passes before).next after.tail later

/-- Reading the statements that are left of a line succeeds just when they are formed
as statements and close no loop while none is open. -/
theorem statements_eq_ok_iff (h : c.OfText) (rest : c.rest = ts ++ [c.last]) :
    c.statements ctx = .ok ctx' ↔
      IsStatements Token.tag Token.Touches ts ∧
        loopsAfter ctx.openLoops ts = some ctx'.openLoops ∧ ctx'.line = ctx.line := by
  constructor
  · intro read
    obtain ⟨us, d, forms, passes, stop, count, line⟩ := h.exists_isStatements read
    -- the cursor stops in front of the last token: statements hold no end of line
    rcases (h.of_passes passes).rest_of_endOfLine stop with nothing | only
    · have all : us = ts ++ [c.last] := by
        rw [← rest, passes.rest, nothing, List.append_nil]
      obtain ⟨p, last⟩ := h.last
      have inner := forms.isInner c.last (by simp [all])
      rw [last] at inner
      exact nomatch inner
    · have same : ts ++ [c.last] = us ++ [c.last] := by
        rw [← rest, passes.rest, only, passes.last]
      obtain rfl := List.append_cancel_right same
      exact ⟨forms, count, line⟩
  · rintro ⟨forms, count, line⟩
    obtain ⟨p, last⟩ := h.last
    have passes : c.Passes ts ⟨c.index + ts.length, [c.last], c.last⟩ := ⟨rest, rfl, rfl⟩
    have stop : Cursor.tag ⟨c.index + ts.length, [c.last], c.last⟩ = .endOfLine := by
      rw [last]
      rfl
    rw [h.statements_eq_ok passes stop count forms, ← line]

end OfText

end LineBasic.Cursor
