import LineBasic.Proofs.Line.Run
import LineBasic.Proofs.Token.Offset

/-!
# Signs and the numbers behind them

A sign that begins an operand has to touch the number behind it. What is compared for this are
columns, which begin again behind a line feed. So in the text the number follows directly, or
it follows after a line feed, in the column next to that of the sign.

## Main definitions

* `Token.SignsOperand`: whether a token is a sign that begins an operand.
* `SignsJoined`: whether every sign that begins an operand is directly followed by a number.

## Main results

* `Position.column_advance_eq_iff`: which characters can be read without a change of the column.
* `gap_of_signsOperand`: what stands between a sign and its number in an accepted line.
* `signsJoined_of_not_mem_newline`: in a text of one line nothing does.
-/

namespace LineBasic

/-- Whether an operand can end with a token of this tag. -/
def Tag.endsOperand : Tag → Bool
  | identifier | number | rightParen => true
  | _ => false

/-- Whether a token is a sign that begins an operand of a text, with the tokens behind it. Behind
the end of an operand a sign is an operator instead. -/
structure Token.SignsOperand (sign : Token) (line : Int) (text : String) (offset : Nat)
    (back : List Token) : Prop where
  isSign : sign.tag = .plus ∨ sign.tag = .minus
  begins : sign.BeginsAt line text offset
  place : ∃ front, tokenize line text = front ++ sign :: back ∧
    ∀ t, front.getLast? = some t → t.tag.endsOperand = false

/-- Whether behind every sign that begins an operand a number begins with the next character. -/
def SignsJoined (line : Int) (text : String) : Prop :=
  ∀ sign offset back, Token.SignsOperand sign line text offset back →
    ∃ digits rest, back = digits :: rest ∧ digits.tag = .number ∧
      digits.BeginsAt line text (offset + 1)

/-! ### Columns -/

theorem exists_last_newline {cs : List Char} (h : '\n' ∈ cs) :
    ∃ us vs, cs = us ++ '\n' :: vs ∧ '\n' ∉ vs := by
  obtain ⟨vs, us, split, none⟩ := List.eq_append_cons_of_mem (List.mem_reverse.mpr h)
  refine ⟨us.reverse, vs.reverse, ?_, fun member => none (List.mem_reverse.mp member)⟩
  rw [← List.reverse_reverse cs, split]
  simp

/-- Reading characters leads back to the same column only by reading none, or over a line feed. -/
theorem Position.column_advance_eq_iff {p : Position} {cs : List Char} :
    (p.advance cs).column = p.column ↔
      cs = [] ∨ ∃ us vs, cs = us ++ '\n' :: vs ∧ '\n' ∉ vs ∧ p.column = vs.length + 1 := by
  have behindFeed {us vs : List Char} (none : '\n' ∉ vs) :
      (p.advance (us ++ '\n' :: vs)).column = 1 + vs.length := by
    rw [advance_append, advance_cons, advance_of_not_mem_newline none, next, if_pos rfl]
  constructor
  · intro same
    by_cases feed : '\n' ∈ cs
    · obtain ⟨us, vs, rfl, none⟩ := exists_last_newline feed
      rw [behindFeed none] at same
      exact .inr ⟨us, vs, rfl, none, by omega⟩
    · rw [advance_of_not_mem_newline feed] at same
      have count : p.column + cs.length = p.column := same
      exact .inl (List.eq_nil_of_length_eq_zero (by omega))
  · rintro (rfl | ⟨us, vs, rfl, none, column⟩)
    · rfl
    · rw [behindFeed none]
      omega

/-! ### Stages at a sign -/

namespace Stage

variable {s : Stage × Context} {stage stage' : Stage} {ctx : Context} {site site' : Site}
  {depth depth' : Nat} {column : Int} {t : Token} {ts : List Token}

/-- A number that is due touches the sign. -/
theorem eq_number_of_next (h : (numberDue site depth column).next t = .ok stage) :
    t.tag = .number ∧ t.position.column = column + 1 := by
  rw [next] at h
  split at h
  case isTrue number => exact number
  case isFalse => cases h

theorem endsOperand_of_inOperand (h : inOperand site depth t = .ok (operandRead site' depth')) :
    t.tag.endsOperand = true := by
  rcases inOperand_eq_ok_iff.mp h with ⟨tag | tag, -⟩ | ⟨-, same⟩ | ⟨-, same⟩
  · rw [tag]
    rfl
  · rw [tag]
    rfl
  · cases same
  · cases same

theorem ending_ne_operandRead (fault : Fault) (tag : Tag) :
    ending fault tag ≠ .ok (operandRead site depth) := by
  intro h
  rcases ending_eq_ok_iff.mp h with ⟨-, same⟩ | ⟨-, same⟩ <;> cases same

/-- Behind an expression only the end of a group leads back into one. -/
theorem eq_rightParen_of_behindExpression {tag : Tag}
    (h : behindExpression site tag = .ok (operandRead site' depth)) : tag = .rightParen := by
  cases site with
  | final => exact absurd h (ending_ne_operandRead _ _)
  | left =>
    rw [behindExpression] at h
    split at h <;> cases h
  | group =>
    rw [behindExpression] at h
    split at h
    · cases h
    · split at h
      case isTrue closing => exact closing
      case isFalse => cases h
  | groupRight =>
    rw [behindExpression] at h
    split at h <;> cases h

theorem eq_rightParen_of_behindOperand {tag : Tag}
    (h : behindOperand site depth tag = .ok (operandRead site' depth')) : tag = .rightParen := by
  rcases behindOperand_eq_ok_iff.mp h with ⟨-, same⟩ | ⟨-, -, behind⟩ | ⟨-, -, closing, -⟩
  · cases same
  · exact eq_rightParen_of_behindExpression behind
  · exact closing

/-- An operand has been read only behind a token that ends one. -/
theorem endsOperand_of_next (h : stage.next t = .ok (operandRead site depth)) :
    t.tag.endsOperand = true := by
  cases stage with
  | operandDue => exact endsOperand_of_inOperand h
  | numberDue =>
    rw [(eq_number_of_next h).1]
    rfl
  | operandRead =>
    rw [eq_rightParen_of_behindOperand h]
    rfl
  | conditionDue =>
    rw [next, inCondition] at h
    split at h
    · cases h
    · split at h
      · cases h
      · split at h
        · exact endsOperand_of_inOperand h
        · cases h
  | statementRead | conditionRead => exact absurd h (ending_ne_operandRead _ _)
  | statementDue =>
    rw [next] at h
    unfold inStatement at h
    split at h <;> cases h
  | equalsDue | nameDue =>
    rw [next] at h
    split at h <;> cases h
  | lineRead => cases h

theorem inOperand_of_isSign (isSign : t.tag = .plus ∨ t.tag = .minus) (site : Site) (depth : Nat) :
    inOperand site depth t = .ok (numberDue site depth t.position.column) := by
  rcases isSign with tag | tag <;> rw [inOperand, tag]

/-- Where no operand has been read a sign begins one. -/
theorem exists_numberDue_of_next (isSign : t.tag = .plus ∨ t.tag = .minus)
    (begins : ∀ site depth, stage ≠ operandRead site depth) (h : stage.next t = .ok stage') :
    ∃ site depth, stage' = numberDue site depth t.position.column := by
  cases stage with
  | operandRead site depth => exact absurd rfl (begins site depth)
  | operandDue site depth =>
    rw [next, inOperand_of_isSign isSign] at h
    exact ⟨site, depth, (Except.ok.inj h).symm⟩
  | conditionDue =>
    have left : inCondition t = inOperand .left 0 t := by
      rcases isSign with tag | tag <;> simp [inCondition, tag, Tag.startsExpression]
    rw [next, left, inOperand_of_isSign isSign] at h
    exact ⟨.left, 0, (Except.ok.inj h).symm⟩
  | _ => rcases isSign with tag | tag <;> simp [next, inStatement, ending, tag] at h

/-- Behind a token that ends no operand no operand has been read. -/
theorem ne_operandRead_of_run (h : run (statementDue, ctx) ts = .ok s)
    (last : ∀ t, ts.getLast? = some t → t.tag.endsOperand = false) (site : Site) (depth : Nat) :
    s.1 ≠ operandRead site depth := by
  intro read
  rcases List.eq_nil_or_concat ts with rfl | ⟨us, t, rfl⟩
  · obtain rfl := Except.ok.inj h
    cases read
  · rw [List.concat_eq_append, run_concat] at h
    obtain ⟨s', -, step⟩ := bind_eq_ok_iff.mp h
    have ends := endsOperand_of_next (read ▸ next_of_advance step)
    rw [last t (by simp)] at ends
    cases ends

end Stage

/-! ### Accepted lines -/

variable {ctx after : Context} {line : Int} {text : String} {sign : Token} {offset : Nat}
  {front back : List Token}

/-- What follows the label of an accepted line is run through without a fault. -/
theorem exists_run_of_judgeLine (accepted : judgeLine text ctx = .ok after) :
    ∃ label body s, tokenize ctx.line text = label ++ body ∧ IsLabel (label.map Token.tag) ∧
      Stage.run (.statementDue, ctx) body = .ok s := by
  have checked := judgeLine_eq_ok_iff_runLine.mp accepted
  rcases Stage.runLine_cases ctx (tokenize ctx.line text) with
    stray | ⟨label, body, tokens, isLabel, same⟩
  · rw [stray] at checked
    cases checked
  · rw [same] at checked
    obtain ⟨s, reached, -⟩ := map_eq_ok_iff.mp checked
    exact ⟨label, body, s, tokens, isLabel, reached⟩

/-- No sign stands in a label. -/
theorem exists_eq_append_of_isLabel {label body : List Token}
    (isLabel : IsLabel (label.map Token.tag)) (isSign : sign.tag = .plus ∨ sign.tag = .minus)
    (h : label ++ body = front ++ sign :: back) :
    ∃ us, front = label ++ us ∧ body = us ++ sign :: back := by
  rcases List.append_eq_append_iff.mp h with ⟨us, split, behind⟩ | ⟨us, split, behind⟩
  · exact ⟨us, split, behind⟩
  · cases us with
    | nil =>
      rw [List.append_nil] at split
      exact ⟨[], by rw [split, List.append_nil], behind.symm⟩
    | cons t us =>
      -- the sign would be a token of the label
      obtain ⟨rfl, -⟩ := List.cons.inj behind
      have member : sign.tag ∈ label.map Token.tag := List.mem_map_of_mem (by simp [split])
      rcases isLabel with none | some
      · rw [none] at member
        cases member
      · rw [some] at member
        rcases isSign with tag | tag <;> simp [tag] at member

/-- Behind a sign there is at least the token that ends the line. -/
theorem ne_nil_of_isSign (isSign : sign.tag = .plus ∨ sign.tag = .minus)
    (h : tokenize line text = front ++ sign :: back) : back ≠ [] := by
  rintro rfl
  obtain ⟨p, same, -⟩ := exists_tokenize_eq line text
  obtain ⟨-, last⟩ := List.append_inj' (h.symm.trans same) rfl
  rw [(List.cons.inj last).1] at isSign
  rcases isSign with tag | tag <;> cases tag

/-- In an accepted line the token behind a sign that begins an operand is a number, and the sign
touches it. -/
theorem exists_number_of_signsOperand (accepted : judgeLine text ctx = .ok after)
    (h : sign.SignsOperand ctx.line text offset back) :
    ∃ digits rest, back = digits :: rest ∧ digits.tag = .number ∧ sign.Touches digits := by
  obtain ⟨label, body, s, tokens, isLabel, run⟩ := exists_run_of_judgeLine accepted
  obtain ⟨front, split, last⟩ := h.place
  obtain ⟨digits, rest, rfl⟩ := List.exists_cons_of_ne_nil (ne_nil_of_isSign h.isSign split)
  obtain ⟨us, rfl, rfl⟩ := exists_eq_append_of_isLabel isLabel h.isSign (tokens.symm.trans split)
  -- the run is taken apart before the sign, behind it and behind the number
  rw [Stage.run_append] at run
  obtain ⟨s₁, before, run⟩ := bind_eq_ok_iff.mp run
  rw [Stage.run_cons] at run
  obtain ⟨s₂, atSign, run⟩ := bind_eq_ok_iff.mp run
  rw [Stage.run_cons] at run
  obtain ⟨s₃, atNumber, -⟩ := bind_eq_ok_iff.mp run
  have begins := Stage.ne_operandRead_of_run before fun t here => last t (by simp [here])
  obtain ⟨site, depth, due⟩ :=
    Stage.exists_numberDue_of_next h.isSign begins (Stage.next_of_advance atSign)
  have next := Stage.next_of_advance atNumber
  rw [due] at next
  obtain ⟨number, column⟩ := Stage.eq_number_of_next next
  exact ⟨digits, rest, rfl, number, column⟩

theorem exists_lexeme_of_isSign (isSign : sign.tag = .plus ∨ sign.tag = .minus)
    (h : sign ∈ tokenize line text) : ∃ c, sign.lexeme.toList = [c] ∧ c ≠ '\n' := by
  obtain ⟨p, same, spelled⟩ := exists_tokenize_eq line text
  rw [same, List.mem_append, List.mem_singleton] at h
  rcases h with inner | rfl
  · rcases isSign with tag | tag
    · exact ⟨'+', (spelled sign inner).eq_of_isSign.1 tag, by decide⟩
    · exact ⟨'-', (spelled sign inner).eq_of_isSign.2 tag, by decide⟩
  · rcases isSign with tag | tag <;> cases tag

/-- Between a sign and the next token there are only blanks. The sign touches this token if there
are none, or if the last line feed among them is followed by one for each column up to that of the
sign. -/
theorem exists_gap_behind_sign {next : Token} {rest : List Token}
    (isSign : sign.tag = .plus ∨ sign.tag = .minus) (begins : sign.BeginsAt line text offset)
    (split : tokenize line text = front ++ sign :: next :: rest) :
    ∃ gap, (∀ c ∈ gap, Text.isBlank c = true) ∧ gap <+: text.toList.drop (offset + 1) ∧
      next.BeginsAt line text (offset + 1 + gap.length) ∧
      (sign.Touches next ↔ gap = [] ∨
        ∃ us vs, gap = us ++ '\n' :: vs ∧ '\n' ∉ vs ∧ sign.position.column = vs.length) := by
  obtain ⟨gap, blank, between, begins'⟩ := exists_gap_between split begins
  have member : sign ∈ tokenize line text := by simp [split]
  obtain ⟨c, lexeme, noFeed⟩ := exists_lexeme_of_isSign isSign member
  have single : sign.lexeme.length = 1 := by
    rw [← String.length_toList, lexeme]
    rfl
  rw [single] at begins'
  rw [lexeme] at between
  have position : next.position = sign.position.advance ([c] ++ gap) := by
    refine begins.position_eq between ?_
    rwa [List.length_append, ← Nat.add_assoc]
  refine ⟨gap, blank, ?_, begins', ?_⟩
  · obtain ⟨later, whole⟩ := between
    refine ⟨later, ?_⟩
    rw [← List.tail_drop, ← whole]
    rfl
  · have behindSign : (sign.position.advance [c]).column = sign.position.column + 1 := by
      rw [Position.advance_cons, Position.advance_nil, Position.next, if_neg noFeed]
    rw [Token.Touches, position, Position.advance_append, ← behindSign,
      Position.column_advance_eq_iff, behindSign]
    simp only [Int.add_left_inj]

/-- In an accepted line a sign that begins an operand is followed by blanks and a number. There
are no blanks in between, unless the number begins on a later line of the text, in the column
next to that of the sign. -/
theorem gap_of_signsOperand (accepted : judgeLine text ctx = .ok after)
    (h : sign.SignsOperand ctx.line text offset back) :
    ∃ digits rest gap, back = digits :: rest ∧ digits.tag = .number ∧
      (∀ c ∈ gap, Text.isBlank c = true) ∧ gap <+: text.toList.drop (offset + 1) ∧
      digits.BeginsAt ctx.line text (offset + 1 + gap.length) ∧
      (gap = [] ∨
        ∃ us vs, gap = us ++ '\n' :: vs ∧ '\n' ∉ vs ∧ sign.position.column = vs.length) := by
  obtain ⟨digits, rest, rfl, number, touch⟩ := exists_number_of_signsOperand accepted h
  obtain ⟨front, split, -⟩ := h.place
  obtain ⟨gap, blank, between, begins, touch_iff⟩ := exists_gap_behind_sign h.isSign h.begins split
  exact ⟨digits, rest, gap, rfl, number, blank, between, begins, touch_iff.mp touch⟩

/-- The number is on the second line of the text, in the column next to that of the sign. -/
theorem signsOperand_twoLines : Token.SignsOperand ⟨.plus, "+", ⟨1, 5⟩⟩ 1 "x = +\n     5" 4
    [⟨.number, "5", ⟨2, 6⟩⟩, Token.endOfLine ⟨2, 7⟩] where
  isSign := .inl rfl
  begins := ⟨by decide +kernel, by decide +kernel⟩
  place := by
    refine ⟨[⟨.identifier, "x", ⟨1, 1⟩⟩, ⟨.equals, "=", ⟨1, 3⟩⟩], by decide +kernel, ?_⟩
    intro t last
    obtain rfl := Option.some.inj last
    rfl

theorem judgeLine_twoLines : judgeLine "x = +\n     5" ⟨1, 0⟩ = .ok ⟨1, 0⟩ := by
  decide +kernel

/-- The sign and the number are on different lines of the text, and the number begins six
characters behind the sign. -/
theorem gap_of_signsOperand_twoLines :
    judgeLine "x = +\n     5" ⟨1, 0⟩ = .ok ⟨1, 0⟩ ∧
    Token.SignsOperand ⟨.plus, "+", ⟨1, 5⟩⟩ 1 "x = +\n     5" 4
      [⟨.number, "5", ⟨2, 6⟩⟩, Token.endOfLine ⟨2, 7⟩] ∧
    ∃ digits rest gap, [⟨.number, "5", ⟨2, 6⟩⟩, Token.endOfLine ⟨2, 7⟩] = digits :: rest ∧
      digits.tag = .number ∧ (∀ c ∈ gap, Text.isBlank c = true) ∧
      gap <+: "x = +\n     5".toList.drop (4 + 1) ∧
      digits.BeginsAt 1 "x = +\n     5" (4 + 1 + gap.length) ∧
      (gap = [] ∨ ∃ us vs, gap = us ++ '\n' :: vs ∧ '\n' ∉ vs ∧ (5 : Int) = vs.length) :=
  ⟨judgeLine_twoLines, signsOperand_twoLines,
    gap_of_signsOperand judgeLine_twoLines signsOperand_twoLines⟩

/-- The number behind a sign need not follow directly. -/
theorem not_forall_signsJoined : ¬ ∀ text ctx after,
    judgeLine text ctx = .ok after → SignsJoined ctx.line text := by
  intro joined
  obtain ⟨digits, rest, split, -, begins⟩ :=
    joined _ _ _ judgeLine_twoLines _ _ _ signsOperand_twoLines
  obtain ⟨rfl, -⟩ := List.cons.inj split
  exact absurd begins.position (by decide +kernel)

/-- In a text of one line the number behind a sign follows directly. -/
theorem signsJoined_of_not_mem_newline (accepted : judgeLine text ctx = .ok after)
    (oneLine : '\n' ∉ text.toList) : SignsJoined ctx.line text := by
  intro sign offset back h
  obtain ⟨digits, rest, rfl, number, touch⟩ := exists_number_of_signsOperand accepted h
  obtain ⟨front, split, -⟩ := h.place
  obtain ⟨gap, -, between, begins, touch_iff⟩ := exists_gap_behind_sign h.isSign h.begins split
  refine ⟨digits, rest, rfl, number, ?_⟩
  rcases touch_iff.mp touch with rfl | ⟨us, vs, rfl, -⟩
  · exact begins
  · have feed : '\n' ∈ us ++ '\n' :: vs := by simp
    exact absurd (List.mem_of_mem_drop (between.subset feed)) oneLine

end LineBasic
