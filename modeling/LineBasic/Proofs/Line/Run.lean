import LineBasic.Proofs.Diagnosis.Offence
import LineBasic.Proofs.Line.Place

/-!
# The check of a line as a run through its tokens

A line is checked by running through its tokens, from behind its label on. Where the line stands
does not matter to the run, and where the tokens of a text begin does not matter to what becomes
of the loops.

## Main definitions

* `Stage.runLine`: the run through the tokens of a line.

## Main results

* `checkLine_eq_runLine`: the check of a line is the run through its tokens.
* `Stage.runLine_eq_ok_iff`: a line ends where a statement may be over.
* `Stage.run_sequence_eq`: runs through texts of one shape come to the same.
-/

namespace LineBasic

/-- Run through the tokens of a line, from behind its label on. -/
def Stage.runLine (ctx : Context) (ts : List Token) : Except Fault Context :=
  match (Label.ofTokens ts).bodyStart? with
  | none => .error .label
  | some start => (run (.statementDue, ctx) (ts.drop start)).map Prod.snd

variable {start : Nat} {ts us : List Token} {p q : Position} {cs ds : List Char}

/-! ### Labels -/

namespace Label

/-- Whether tokens are labelled does not depend on what follows, unless this has a colon. -/
theorem ofTokens_append (noColon : ∀ t ∈ us, t.tag ≠ .colon) :
    ofTokens (ts ++ us) = ofTokens ts := by
  have none := any_isColon_eq_false_iff.mpr noColon
  unfold ofTokens
  rw [List.any_append, none, Bool.or_false]
  match ts, us with
  | [], _ => rfl
  | [_], [] => rfl
  | [name], u :: us =>
    have other := noColon u List.mem_cons_self
    simp [other]
  | name :: colon :: rest, us =>
    simp only [List.cons_append, List.any_append, none, Bool.or_false]

/-- The statements of a line begin behind its label. -/
theorem isLabel_of_bodyStart? (label : (ofTokens ts).bodyStart? = some start) :
    start ≤ ts.length ∧ IsLabel ((ts.take start).map Token.tag) := by
  cases found : ofTokens ts with
  | absent =>
    rw [found] at label
    obtain rfl := Option.some.inj label
    exact ⟨Nat.zero_le _, .inl rfl⟩
  | present =>
    rw [found] at label
    obtain rfl := Option.some.inj label
    obtain ⟨name, colon, rest, rfl, first, second, -⟩ := ofTokens_eq_present_iff.mp found
    refine ⟨Nat.le_add_left 2 rest.length, .inr ?_⟩
    change [name.tag, colon.tag] = _
    rw [first, second]
  | misplaced =>
    rw [found] at label
    cases label

theorem bodyStart?_le_length (label : (ofTokens ts).bodyStart? = some start) :
    start ≤ ts.length :=
  (isLabel_of_bodyStart? label).1

end Label

/-! ### Lines -/

/-- The check of a line is the run through its tokens. -/
theorem checkLine_eq_runLine (text : String) (ctx : Context) :
    checkLine text ctx = Stage.runLine ctx (tokenize ctx.line text) := by
  cases label : (Label.ofTokens (tokenize ctx.line text)).bodyStart? with
  | none => rw [checkLine, Line.check, Line.ofText_tokens, Stage.runLine, label]
  | some start =>
    have inText := ofText_place_any ctx.line text start
    have more : ¬ ((Line.ofText ctx.line text).place start).isPastEnd = true := by
      obtain ⟨p, same, -⟩ := exists_tokenize_eq ctx.line text
      rw [same, Label.ofTokens_append (by simp [Token.endOfLine])] at label
      have within := Label.bodyStart?_le_length label
      rw [Cursor.isPastEnd, List.isEmpty_iff]
      change ¬ (tokenize ctx.line text).drop start = []
      rw [List.drop_eq_nil_iff, same, List.length_append, List.length_singleton]
      omega
    rw [checkLine_of_bodyStart? label, Stage.runLine, label]
    exact inText.readRest_eq_run more .statementDue ctx

theorem judgeLine_eq_ok_iff_runLine {text : String} {ctx after : Context} :
    judgeLine text ctx = .ok after ↔ Stage.runLine ctx (tokenize ctx.line text) = .ok after := by
  rw [judgeLine_eq_ok_iff, ← checkLine_eq_ok_iff, checkLine_eq_runLine]

namespace Stage

variable {s s' : Stage × Context} {t stop : Token} {ctx after : Context}

/-- Lines that agree are run through alike. -/
theorem runLine_eq_of_map_face (h : ts.map Token.face = us.map Token.face) (ctx : Context) :
    runLine ctx ts = runLine ctx us := by
  rw [runLine, runLine, Label.ofTokens_eq_of_map_tag (map_tag_eq_of_map_face h)]
  split
  · rfl
  case h_2 start _ =>
    have rest : (ts.drop start).map Token.face = (us.drop start).map Token.face := by
      rw [List.map_drop, List.map_drop, h]
    rw [run_eq_of_map_face rest]

/-- A token that ends a statement comes where one may be over, and leaves the context as it is. -/
theorem advance_eq_ok_iff_of_ends (ends : t.tag = .semicolon ∨ t.tag = .endOfLine) :
    advance s t = .ok s' ↔ s.1.mayEnd = true ∧
      s' = (if t.tag = .semicolon then statementDue else lineRead, s.2) := by
  have same : s.1.contextBehind s.2 t.tag = .ok s.2 := by
    rcases ends with same | same <;> rw [same] <;> cases s.1 <;> rfl
  rw [advance, same, bind_eq_ok_iff]
  simp only [next_eq_ok_iff_of_ends ends]
  constructor
  · rintro ⟨stage, ⟨finished, rfl⟩, step⟩
    exact ⟨finished, (Except.ok.inj step).symm⟩
  · rintro ⟨finished, rfl⟩
    exact ⟨_, ⟨finished, rfl⟩, rfl⟩

/-- A line is accepted just when a statement may be over where it ends. -/
theorem runLine_eq_ok_iff (stops : stop.tag = .endOfLine) :
    runLine ctx (ts ++ [stop]) = .ok after ↔
      ∃ start stage, (Label.ofTokens ts).bodyStart? = some start ∧
        run (statementDue, ctx) (ts.drop start) = .ok (stage, after) ∧ stage.mayEnd = true := by
  have same : Label.ofTokens (ts ++ [stop]) = Label.ofTokens ts :=
    Label.ofTokens_append (by simp [stops])
  rw [runLine, same]
  cases label : (Label.ofTokens ts).bodyStart? with
  | none => simp
  | some start =>
    have within := Label.bodyStart?_le_length label
    simp only [List.drop_append_of_le_length within, run_concat]
    constructor
    · intro accepted
      obtain ⟨s, run, rfl⟩ := map_eq_ok_iff.mp accepted
      obtain ⟨s', before, last⟩ := bind_eq_ok_iff.mp run
      obtain ⟨finished, rfl⟩ := (advance_eq_ok_iff_of_ends (.inr stops)).mp last
      exact ⟨start, s'.1, rfl, before, finished⟩
    · rintro ⟨start', stage, same, before, finished⟩
      obtain rfl := Option.some.inj same
      rw [before]
      have last : advance (stage, after) stop = .ok (_, after) :=
        (advance_eq_ok_iff_of_ends (.inr stops)).mpr ⟨finished, rfl⟩
      exact congrArg (Except.map Prod.snd) last

/-- A line has a label out of place, or it is a label and what is run through behind it. -/
theorem runLine_cases (ctx : Context) (ts : List Token) :
    runLine ctx ts = .error .label ∨
      ∃ front body, ts = front ++ body ∧ IsLabel (front.map Token.tag) ∧
        runLine ctx ts = (run (statementDue, ctx) body).map Prod.snd := by
  rw [runLine]
  cases label : (Label.ofTokens ts).bodyStart? with
  | none => exact .inl rfl
  | some start =>
    have isLabel := (Label.isLabel_of_bodyStart? label).2
    exact .inr ⟨ts.take start, ts.drop start, (List.take_append_drop start ts).symm, isLabel, rfl⟩

/-- A cursor stands before the tokens of a text. -/
theorem exists_cursor_sequence (p : Position) (cs : List Char) :
    ∃ c : Cursor, c.OfText ∧ c.rest = Token.sequence p cs ∧ ¬ c.isPastEnd = true := by
  obtain ⟨ts, stop, same, spelled⟩ := Token.exists_sequence_eq p cs
  refine ⟨⟨0, ts ++ [Token.endOfLine stop], Token.endOfLine stop⟩, ?_, same.symm, ?_⟩
  · exact ⟨⟨stop, rfl⟩, .inr ⟨ts, rfl, spelled⟩⟩
  · simp [Cursor.isPastEnd]

/-- Runs through the statements of texts of one shape come to the same. -/
theorem run_sequence_eq (shape : SameShape (Token.sequence p cs) (Token.sequence q ds))
    (ctx : Context) :
    (run (statementDue, ctx) (Token.sequence p cs)).map Prod.snd =
      (run (statementDue, ctx) (Token.sequence q ds)).map Prod.snd := by
  obtain ⟨c, inText, rest, more⟩ := exists_cursor_sequence p cs
  obtain ⟨d, inText', rest', more'⟩ := exists_cursor_sequence q ds
  rw [← rest, ← rest'] at shape ⊢
  have alike : c.Alike d := ⟨inText, inText', shape.1, shape.isSignedAt_eq⟩
  rw [← inText.readRest_eq_run more, ← inText'.readRest_eq_run more']
  exact alike.statements.eq

end Stage

end LineBasic
