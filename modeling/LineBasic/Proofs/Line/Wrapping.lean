import LineBasic.Proofs.Line.Composition

/-!
# Expressions in parentheses

An expression of an assignment can be put in as many parentheses as one likes. If as many are
closed behind it as are opened before it, nothing changes. Otherwise the line is rejected for a
parenthesis, whether one is missing at the end of the line or one is left that closes none.

Within the parentheses the expression is run through as it is without them, but that more of them
are open all along. Only where the statement is over does their number matter.

## Main definitions

* `wrapped`: a text with parentheses before and behind it.
* `Stage.IsDeeper`: whether two stages differ in parentheses around the whole expression only.

## Main results

* `Stage.IsDeeper.run`: an expression in parentheses is run through as without them.
* `Stage.run_wrapped`: it takes as many closing parentheses as opening ones.
* `judgeLine_wrapped`: what the judgement of an assignment says in parentheses.
-/

namespace LineBasic

/-- A text with opening parentheses before it and closing ones behind it. -/
def wrapped (opened closed : Nat) (text : String) : String :=
  String.ofList (List.replicate opened '(') ++ text ++ String.ofList (List.replicate closed ')')

variable {ts : List Token} {t stop : Token} {ctx after : Context} {e : String}

/-! ### Stages -/

namespace Stage

variable {stage stage' deep : Stage} {site : Site} {depth more : Nat} {s : Stage × Context}

/-- Whether two stages are at the same place of an expression with which a statement ends, the
second within some more parentheses around the whole of it. -/
inductive IsDeeper (more : Nat) : Stage → Stage → Prop
  | operandDue (depth : Nat) : IsDeeper more (operandDue .final depth)
      (operandDue .final (more + depth))
  | numberDue (depth : Nat) (column : Int) : IsDeeper more (numberDue .final depth column)
      (numberDue .final (more + depth) column)
  | operandRead (depth : Nat) : IsDeeper more (operandRead .final depth)
      (operandRead .final (more + depth))

namespace IsDeeper

theorem ne_statementDue (h : IsDeeper more stage deep) : deep ≠ statementDue := by
  cases h <;> exact Stage.noConfusion

theorem inOperand (step : inOperand .final depth t = .ok stage') :
    ∃ deep', Stage.inOperand .final (more + depth) t = .ok deep' ∧
      IsDeeper more stage' deep' := by
  rcases inOperand_eq_ok_iff.mp step with ⟨same, rfl⟩ | ⟨same, rfl⟩ | ⟨same, rfl⟩
  · exact ⟨_, inOperand_eq_ok_iff.mpr (.inl ⟨same, rfl⟩), .operandRead depth⟩
  · exact ⟨_, inOperand_eq_ok_iff.mpr (.inr (.inl ⟨same, rfl⟩)), .numberDue depth _⟩
  · exact ⟨_, inOperand_eq_ok_iff.mpr (.inr (.inr ⟨same, rfl⟩)), .operandDue (depth + 1)⟩

theorem behindOperand {tag : Tag} (inner : tag.endsStatement = false)
    (step : behindOperand .final depth tag = .ok stage') :
    ∃ deep', Stage.behindOperand .final (more + depth) tag = .ok deep' ∧
      IsDeeper more stage' deep' := by
  rcases behindOperand_eq_ok_iff.mp step with
    ⟨operator, rfl⟩ | ⟨-, -, behind⟩ | ⟨depth, rfl, closes, rfl⟩
  · exact ⟨_, behindOperand_eq_ok_iff.mpr (.inl ⟨operator, rfl⟩), .operandDue depth⟩
  · -- outside of all parentheses only the end of the statement could follow
    rcases ending_eq_ok_iff.mp behind with ⟨rfl, -⟩ | ⟨rfl, -⟩ <;> cases inner
  · exact ⟨_, behindOperand_eq_ok_iff.mpr (.inr (.inr ⟨_, rfl, closes, rfl⟩)), .operandRead depth⟩

/-- A token that ends no statement is read alike within more parentheses. -/
theorem next (h : IsDeeper more stage deep) (inner : t.tag.endsStatement = false)
    (step : stage.next t = .ok stage') :
    ∃ deep', deep.next t = .ok deep' ∧ IsDeeper more stage' deep' := by
  cases h with
  | operandDue depth => exact inOperand step
  | operandRead depth => exact behindOperand inner step
  | numberDue depth column =>
    rw [Stage.next] at step ⊢
    split at step
    case isTrue touches =>
      obtain rfl := Except.ok.inj step
      exact ⟨_, if_pos touches, .operandRead depth⟩
    case isFalse => cases step

/-- Tokens that end no statement are run through alike within more parentheses, and in any other
context. -/
theorem run (h : IsDeeper more stage deep) (inner : ∀ t ∈ ts, t.tag.endsStatement = false)
    (reached : run (stage, after) ts = .ok s) (ctx : Context) :
    ∃ deep', Stage.run (deep, ctx) ts = .ok (deep', ctx) ∧ IsDeeper more s.1 deep' := by
  -- neither run begins a statement on its way, so that no context ever changes
  induction ts generalizing stage deep after with
  | nil =>
    obtain rfl := Except.ok.inj reached
    exact ⟨deep, rfl, h⟩
  | cons t ts ih =>
    obtain ⟨here, later⟩ := List.forall_mem_cons.mp inner
    rw [run_cons] at reached
    obtain ⟨s', step, reached⟩ := bind_eq_ok_iff.mp reached
    obtain ⟨deep', step', h'⟩ := h.next here (next_of_advance step)
    obtain ⟨deep'', run, h''⟩ := ih h' later reached
    refine ⟨deep'', ?_, h''⟩
    rw [run_cons, advance_of_ne h.ne_statementDue, step']
    exact run

/-- Where the expression may be over, just the parentheses around the whole of it are open. -/
theorem eq_of_mayEnd (h : IsDeeper more stage deep) (finished : stage.mayEnd = true) :
    deep = .operandRead .final more := by
  cases h with
  | operandDue | numberDue => cases finished
  | operandRead depth =>
    cases depth with
    | zero => rfl
    | succ depth => cases finished

end IsDeeper

/-- Behind opening parentheses so many more are open. -/
theorem run_opening (opening : ∀ t ∈ ts, t.tag = .leftParen) (site : Site) (depth : Nat)
    (ctx : Context) :
    run (operandDue site depth, ctx) ts = .ok (operandDue site (depth + ts.length), ctx) := by
  induction ts generalizing depth with
  | nil => rfl
  | cons t ts ih =>
    obtain ⟨here, later⟩ := List.forall_mem_cons.mp opening
    have step :
        advance (operandDue site depth, ctx) t = .ok (operandDue site (depth + 1), ctx) := by
      rw [advance_of_ne Stage.noConfusion, next, inOperand, here]
      rfl
    rw [run_cons, step, List.length_cons, Nat.add_comm ts.length, ← Nat.add_assoc]
    exact ih later (depth + 1)

/-- Closing parentheses end a line if they are as many as are open. -/
theorem run_closing (closing : ∀ t ∈ ts, t.tag = .rightParen) (stops : stop.tag = .endOfLine)
    (depth : Nat) (ctx : Context) :
    (run (operandRead .final depth, ctx) (ts ++ [stop])).map Prod.snd =
      if depth = ts.length then .ok ctx else .error .parenthesis := by
  -- one parenthesis too many stops the run where none is open, one too few at the end of the line
  induction ts generalizing depth with
  | nil =>
    rw [List.nil_append, run_cons, advance_of_ne Stage.noConfusion, next, stops]
    cases depth <;> rfl
  | cons t ts ih =>
    obtain ⟨here, later⟩ := List.forall_mem_cons.mp closing
    rw [List.cons_append, run_cons, advance_of_ne Stage.noConfusion, next, here]
    cases depth with
    | zero => rfl
    | succ depth =>
      simp only [List.length_cons, Nat.add_right_cancel_iff]
      exact ih later depth

/-- An expression is run through in parentheses just when as many are closed as are opened. -/
theorem run_wrapped {opening closing : List Token} (left : ∀ t ∈ opening, t.tag = .leftParen)
    (right : ∀ t ∈ closing, t.tag = .rightParen) (stops : stop.tag = .endOfLine)
    (inner : ∀ t ∈ ts, t.tag.endsStatement = false)
    (reached : run (operandDue .final 0, after) ts = .ok s) (finished : s.1.mayEnd = true)
    (ctx : Context) :
    (run (operandDue .final 0, ctx) (opening ++ (ts ++ (closing ++ [stop])))).map Prod.snd =
      if opening.length = closing.length then .ok ctx else .error .parenthesis := by
  have start : IsDeeper opening.length (operandDue .final 0) (operandDue .final opening.length) :=
    .operandDue 0
  obtain ⟨deep, within, deeper⟩ := start.run inner reached ctx
  obtain rfl := deeper.eq_of_mayEnd finished
  rw [run_append, run_opening left, Nat.zero_add]
  change (run (operandDue .final opening.length, ctx) _).map Prod.snd = _
  rw [run_append, within]
  exact run_closing right stops opening.length ctx

end Stage

/-! ### Assignments -/

/-- An assignment to a variable begins with two tokens. -/
theorem exists_sequence_assignment (p : Position) (cs : List Char) :
    ∃ name sign, Token.sequence p ("x = ".toList ++ cs) =
        name :: sign :: Token.sequence (p.advance "x = ".toList) cs ∧
      name.tag = .identifier ∧ sign.tag = .equals := by
  have name : Piece.cut 'x' [] = ⟨.identifier, ['x'], []⟩ := by decide
  have sign : Piece.cut '=' [] = ⟨.equals, ['='], []⟩ := by decide
  refine ⟨⟨.identifier, "x", p⟩, ⟨.equals, "=", p.advance ['x', ' ']⟩, ?_, rfl, rfl⟩
  change Token.sequence p (['x'] ++ ' ' :: (['='] ++ ' ' :: cs)) = _
  rw [Token.sequence_append_cons_of_isBlank (by decide),
    Token.sequence_append_cons_of_isBlank (by decide),
    Token.dropLast_sequence_singleton (by decide) name,
    Token.dropLast_sequence_singleton (by decide) sign]
  rfl

/-- Behind the two tokens the expression begins. -/
theorem Stage.run_assignment {name sign : Token} (isName : name.tag = .identifier)
    (isSign : sign.tag = .equals) (ctx : Context) (ts : List Token) :
    run (statementDue, ctx) (name :: sign :: ts) = run (operandDue .final 0, ctx) ts := by
  have first : advance (statementDue, ctx) name = .ok (equalsDue, ctx) := by
    rw [advance, next, isName]
    rfl
  have second : advance (equalsDue, ctx) sign = .ok (operandDue .final 0, ctx) := by
    rw [advance_of_ne Stage.noConfusion, next, if_pos isSign]
    rfl
  rw [run_cons, first]
  change run (equalsDue, ctx) (sign :: ts) = _
  rw [run_cons, second]
  rfl

/-- A line whose second token is no colon is accepted only without any. -/
theorem Stage.forall_ne_colon_of_runLine {name sign : Token} (plain : sign.tag ≠ .colon)
    (accepted : runLine ctx (name :: sign :: ts) = .ok after) :
    ∀ t ∈ name :: sign :: ts, t.tag ≠ .colon := by
  rw [← Label.ofTokens_eq_absent_iff]
  cases label : Label.ofTokens (name :: sign :: ts) with
  | absent => rfl
  | present =>
    obtain ⟨_, _, _, same, -, colon, -⟩ := Label.ofTokens_eq_present_iff.mp label
    obtain ⟨rfl, -⟩ := List.cons.inj (List.cons.inj same).2
    exact absurd colon plain
  | misplaced =>
    rw [runLine, label] at accepted
    cases accepted

theorem forall_ne_colon_of_judgeLine_assignment
    (accepted : judgeLine ("x = " ++ e) ctx = .ok after) :
    ∀ t ∈ tokenize ctx.line ("x = " ++ e), t.tag ≠ .colon := by
  have checked := judgeLine_eq_ok_iff_runLine.mp accepted
  obtain ⟨name, sign, tokens, -, isSign⟩ :=
    exists_sequence_assignment (.startOf ctx.line) e.toList
  rw [tokenize, String.toList_append, tokens] at checked ⊢
  exact Stage.forall_ne_colon_of_runLine (by simp [isSign]) checked

/-- The expression of an accepted assignment without a semicolon is run through up to where the
statement may be over, wherever the expression begins. -/
theorem exists_run_of_judgeLine_assignment (oneLine : '\n' ∉ e.toList)
    (noSemicolon : ∀ t ∈ tokenize ctx.line ("x = " ++ e), t.tag ≠ .semicolon)
    (accepted : judgeLine ("x = " ++ e) ctx = .ok after) (p : Position) :
    ∃ ts stop stage, Token.sequence p e.toList = ts ++ [Token.endOfLine stop] ∧
      (∀ t ∈ ts, t.tag.endsStatement = false ∧ t.tag ≠ .colon) ∧
      Stage.run (.operandDue .final 0, ctx) ts = .ok (stage, after) ∧ stage.mayEnd = true := by
  have oneLine' : '\n' ∉ ("x = " ++ e).toList := by simpa using oneLine
  have noColon := forall_ne_colon_of_judgeLine_assignment accepted
  -- the line is put where its expression begins at the position given
  let start : Position := ⟨p.line, p.column - 4⟩
  have place : start.advance "x = ".toList = p := by
    rw [Position.advance_of_not_mem_newline (by decide)]
    exact congrArg (Position.mk p.line) (Int.sub_add_cancel p.column 4)
  obtain ⟨name, sign, tokens, isName, isSign⟩ := exists_sequence_assignment start e.toList
  obtain ⟨ts, stop, same, spelled⟩ := Token.exists_sequence_eq p e.toList
  rw [place, same, ← String.toList_append] at tokens
  have plain := Token.forall_tag_sequence (fun tag => tag ≠ .semicolon ∧ tag ≠ .colon) oneLine'
    (fun t member => ⟨noSemicolon t member, noColon t member⟩) start
  have checked : checkLine ("x = " ++ e) ctx = .ok after :=
    (checkLine_eq_runLine _ _).trans (judgeLine_eq_ok_iff_runLine.mp accepted)
  rw [tokens] at plain
  rw [checkLine_eq_run_sequence oneLine' noColon start, tokens,
    Stage.run_assignment isName isSign, Stage.run_concat] at checked
  obtain ⟨s, run, rfl⟩ := map_eq_ok_iff.mp checked
  obtain ⟨⟨stage, after'⟩, reached, last⟩ := bind_eq_ok_iff.mp run
  obtain ⟨finished, rfl⟩ := (Stage.advance_eq_ok_iff_of_ends (.inr rfl)).mp last
  refine ⟨ts, stop, stage, same, fun t member => ?_, reached, finished⟩
  obtain ⟨noSemicolon, noColon⟩ := plain t (by simp [member])
  have within : t.tag.endsStatement = false := Bool.eq_false_iff.mpr fun ends =>
    (Cursor.OfText.endsStatement_cases ends).elim noSemicolon (spelled t member).tag_ne_endOfLine
  exact ⟨within, noColon⟩

/-- The tokens of a text in parentheses are those of the text and of the parentheses. -/
theorem exists_sequence_wrapped (opened closed : Nat) (e : String) (p : Position) :
    ∃ opening closing q stop, Token.sequence p (wrapped opened closed e).toList =
        opening ++ ((Token.sequence q e.toList).dropLast ++ (closing ++ [Token.endOfLine stop])) ∧
      opening.length = opened ∧ (∀ t ∈ opening, t.tag = .leftParen) ∧
      closing.length = closed ∧ ∀ t ∈ closing, t.tag = .rightParen := by
  have separated : Separated e.toList (List.replicate closed ')') := by
    intro c _ d first
    have mark := List.eq_of_mem_replicate (List.mem_of_mem_head? first)
    exact .inr (by rw [mark]; decide)
  have openingCut : Piece.cut '(' [] = ⟨.leftParen, ['('], []⟩ := by decide
  have closingCut : Piece.cut ')' [] = ⟨.rightParen, [')'], []⟩ := by decide
  have whole : (wrapped opened closed e).toList =
      List.replicate opened '(' ++ (e.toList ++ List.replicate closed ')') := by
    simp [wrapped]
  obtain ⟨opening, first, opens, left⟩ := Token.exists_sequence_replicate_append (by decide)
    (by decide) openingCut opened p (e.toList ++ List.replicate closed ')')
  let q := p.advance (List.replicate opened '(')
  obtain ⟨closing, last, closes, right⟩ := Token.exists_sequence_replicate_append (by decide)
    (by decide) closingCut closed (q.advance e.toList) []
  rw [List.append_nil, Token.sequence_nil] at last
  refine ⟨opening, closing, q, (q.advance e.toList).advance (List.replicate closed ')'), ?_,
    opens, left, closes, right⟩
  rw [whole, first, Token.sequence_append separated, last]

/-- An assignment to an expression in parentheses is judged as without them if as many are closed
as are opened. Otherwise it is rejected for a parenthesis. -/
theorem judgeLine_wrapped {first : Context} (oneLine : '\n' ∉ e.toList)
    (noSemicolon : ∀ t ∈ tokenize first.line ("x = " ++ e), t.tag ≠ .semicolon)
    (accepted : judgeLine ("x = " ++ e) first = .ok after) (opened closed : Nat) (ctx : Context) :
    judgeLine ("x = " ++ wrapped opened closed e) ctx =
      if opened = closed then .ok ctx else .error (.rejected ctx.line .parenthesis) := by
  obtain ⟨name, sign, assigned, isName, isSign⟩ :=
    exists_sequence_assignment (.startOf ctx.line) (wrapped opened closed e).toList
  obtain ⟨opening, closing, q, stop, tokens, opens, left, closes, right⟩ :=
    exists_sequence_wrapped opened closed e ((Position.startOf ctx.line).advance "x = ".toList)
  obtain ⟨ts, stop', stage, inner, plain, reached, finished⟩ :=
    exists_run_of_judgeLine_assignment oneLine noSemicolon accepted q
  -- the tokens of the expression are the same with what stands before and behind it
  rw [inner, List.dropLast_concat] at tokens
  rw [tokens, ← String.toList_append] at assigned
  have noColon : ∀ t ∈ tokenize ctx.line ("x = " ++ wrapped opened closed e), t.tag ≠ .colon := by
    have whole : tokenize ctx.line ("x = " ++ wrapped opened closed e) = _ := assigned
    simp only [whole, List.forall_mem_cons, List.forall_mem_append]
    refine ⟨by simp [isName], by simp [isSign], fun t member => by simp [left t member],
      fun t member => (plain t member).2, fun t member => by simp [right t member],
      by simp [Token.endOfLine], by simp⟩
  have stops : (Token.endOfLine stop).tag = .endOfLine := rfl
  have checked := Stage.run_wrapped left right stops (fun t member => (plain t member).1) reached
    finished ctx
  rw [opens, closes] at checked
  rw [judgeLine, checkLine_eq_runLine, Stage.runLine, Label.ofTokens_eq_absent_iff.mpr noColon]
  change ((Stage.run (.statementDue, ctx) (Token.sequence _ _)).map Prod.snd).mapError _ = _
  rw [assigned, Stage.run_assignment isName isSign, checked]
  split <;> rfl

/-- A signed number and a group of its own within the parentheses. With three of them opened and
three closed the context stays, and one too few or too many is a fault. -/
theorem judgeLine_wrapped_product :
    '\n' ∉ "-2 * (y + 3)".toList ∧
    (∀ t ∈ tokenize 1 ("x = " ++ "-2 * (y + 3)"), t.tag ≠ .semicolon) ∧
    judgeLine ("x = " ++ "-2 * (y + 3)") ⟨1, 0⟩ = .ok ⟨1, 0⟩ ∧
    judgeLine ("x = " ++ wrapped 3 3 "-2 * (y + 3)") ⟨7, 2⟩ = .ok ⟨7, 2⟩ ∧
    judgeLine ("x = " ++ wrapped 3 2 "-2 * (y + 3)") ⟨7, 2⟩ =
      .error (.rejected 7 .parenthesis) ∧
    judgeLine ("x = " ++ wrapped 3 4 "-2 * (y + 3)") ⟨7, 2⟩ =
      .error (.rejected 7 .parenthesis) := by
  have oneLine : '\n' ∉ "-2 * (y + 3)".toList := by decide +kernel
  have noSemicolon : ∀ t ∈ tokenize 1 ("x = " ++ "-2 * (y + 3)"), t.tag ≠ .semicolon := by
    decide +kernel
  have accepted : judgeLine ("x = " ++ "-2 * (y + 3)") ⟨1, 0⟩ = .ok ⟨1, 0⟩ := by decide +kernel
  exact ⟨oneLine, noSemicolon, accepted, judgeLine_wrapped oneLine noSemicolon accepted 3 3 ⟨7, 2⟩,
    judgeLine_wrapped oneLine noSemicolon accepted 3 2 ⟨7, 2⟩,
    judgeLine_wrapped oneLine noSemicolon accepted 3 4 ⟨7, 2⟩⟩

end LineBasic
