import LineBasic.Proofs.Line.Run
import LineBasic.Proofs.Token.Predicates
import LineBasic.Proofs.Token.Separation

/-!
# Lines made of other lines

A label before a line changes nothing. A semicolon between two lines has the statements of the
second read where those of the first are over, in the context that they leave.

In both cases the second line begins further to the right than it would alone. If it has no line
feed, all its columns move alike, so that its tokens keep their shape. The first line is read as
it would be alone, but that a semicolon comes where it would end.

## Main results

* `judgeLine_append_semicolon`: a semicolon joins two lines.
* `judgeLine_labelled`: a label changes nothing.
-/

namespace LineBasic

variable {name text later : String} {ctx after : Context} {ts us : List Token} {t stop : Token}
  {p : Position}

/-! ### Texts without a colon -/

/-- Without a colon a line is checked by running through all of its tokens, wherever these would
begin. -/
theorem checkLine_eq_run_sequence (oneLine : '\n' ∉ text.toList)
    (noColon : ∀ t ∈ tokenize ctx.line text, t.tag ≠ .colon) (p : Position) :
    checkLine text ctx =
      (Stage.run (.statementDue, ctx) (Token.sequence p text.toList)).map Prod.snd := by
  have absent := Label.ofTokens_eq_absent_iff.mpr noColon
  have shape := Token.sameShape_sequence oneLine (.startOf ctx.line) p
  rw [checkLine_eq_runLine, Stage.runLine, absent]
  exact Stage.run_sequence_eq shape ctx

/-! ### Semicolons -/

namespace Stage

/-- What comes behind a semicolon is run through in the context that the line would leave if it
ended there. -/
theorem runLine_append_semicolon {between : Context} (stops : stop.tag = .endOfLine)
    (separates : t.tag = .semicolon) (noColon : ∀ u ∈ us, u.tag ≠ .colon)
    (accepted : runLine ctx (ts ++ [stop]) = .ok between) :
    runLine ctx (ts ++ t :: us) = (run (statementDue, between) us).map Prod.snd := by
  obtain ⟨start, stage, label, before, finished⟩ := (runLine_eq_ok_iff stops).mp accepted
  have within := Label.bodyStart?_le_length label
  have step : advance (stage, between) t = .ok (statementDue, between) :=
    (advance_eq_ok_iff_of_ends (.inl separates)).mpr ⟨finished, by rw [if_pos separates]⟩
  rw [runLine, Label.ofTokens_append (List.forall_mem_cons.mpr ⟨by simp [separates], noColon⟩),
    label]
  change (run _ ((ts ++ t :: us).drop start)).map Prod.snd = _
  rw [List.drop_append_of_le_length within, run_append, before]
  change (run (stage, between) (t :: us)).map Prod.snd = _
  rw [run_cons, step]
  rfl

/-- A line that is accepted would be accepted if it ended before a semicolon. -/
theorem exists_runLine_of_semicolon (stops : stop.tag = .endOfLine)
    (separates : t.tag = .semicolon) (noColon : ∀ u ∈ us, u.tag ≠ .colon)
    (accepted : runLine ctx (ts ++ t :: us) = .ok after) :
    ∃ between, runLine ctx (ts ++ [stop]) = .ok between := by
  rw [runLine,
    Label.ofTokens_append (List.forall_mem_cons.mpr ⟨by simp [separates], noColon⟩)] at accepted
  cases label : (Label.ofTokens ts).bodyStart? with
  | none =>
    rw [label] at accepted
    cases accepted
  | some start =>
    rw [label] at accepted
    have within := Label.bodyStart?_le_length label
    obtain ⟨s, run, rfl⟩ := map_eq_ok_iff.mp accepted
    rw [List.drop_append_of_le_length within, run_append] at run
    obtain ⟨s₁, before, run⟩ := bind_eq_ok_iff.mp run
    rw [run_cons] at run
    obtain ⟨s₂, step, -⟩ := bind_eq_ok_iff.mp run
    have finished := ((advance_eq_ok_iff_of_ends (.inl separates)).mp step).1
    exact ⟨s₁.2, (runLine_eq_ok_iff stops).mpr ⟨start, s₁.1, label, before, finished⟩⟩

end Stage

/-- A semicolon between two texts is a token of its own. -/
theorem exists_tokenize_append_semicolon (line : Int) (text later : String) :
    ∃ p q, tokenize line (text ++ ";" ++ later) =
      contents line text ++ ⟨.semicolon, ";", p⟩ :: Token.sequence q later.toList := by
  have whole : (text ++ ";" ++ later).toList = text.toList ++ ';' :: later.toList := by
    simp
  have cut : Piece.cut ';' [] = ⟨.semicolon, [';'], []⟩ := by decide
  have apart := Token.sequence_append_mark (by decide) (by decide) cut (.startOf line) text.toList
    later.toList
  exact ⟨_, _, by rw [tokenize, whole, apart]; rfl⟩

/-- A semicolon joins two lines. The second is read in the context that the first leaves; the two
are accepted just when each of them is. -/
theorem judgeLine_append_semicolon (oneLine : '\n' ∉ later.toList)
    (noColon : ∀ t ∈ tokenize ctx.line later, t.tag ≠ .colon) :
    (∀ after, judgeLine (text ++ ";" ++ later) ctx = .ok after ↔
      ∃ between, judgeLine text ctx = .ok between ∧ judgeLine later between = .ok after) ∧
    ∀ between, judgeLine text ctx = .ok between →
      judgeLine (text ++ ";" ++ later) ctx = judgeLine later between := by
  obtain ⟨p, q, tokens⟩ := exists_tokenize_append_semicolon ctx.line text later
  obtain ⟨r, first, -⟩ := exists_tokenize_eq ctx.line text
  have noColon' := Token.forall_tag_sequence (· ≠ .colon) oneLine noColon q
  -- the run behind the semicolon is the check of the second line
  have joined (between : Context) (accepted : judgeLine text ctx = .ok between) :
      judgeLine (text ++ ";" ++ later) ctx = judgeLine later between := by
    have line := (judgeLine_eq_ok_iff.mp accepted).2.2
    have checked := judgeLine_eq_ok_iff_runLine.mp accepted
    rw [first] at checked
    have plain : ∀ t ∈ tokenize between.line later, t.tag ≠ .colon := line ▸ noColon
    have second := checkLine_eq_run_sequence oneLine plain q
    rw [judgeLine, judgeLine, checkLine_eq_runLine, tokens, line, second,
      Stage.runLine_append_semicolon rfl rfl noColon' checked]
  refine ⟨fun after => ⟨fun accepted => ?_, ?_⟩, joined⟩
  · have checked := judgeLine_eq_ok_iff_runLine.mp accepted
    rw [tokens] at checked
    have stops : (Token.endOfLine r).tag = .endOfLine := rfl
    obtain ⟨between, before⟩ := Stage.exists_runLine_of_semicolon stops rfl noColon' checked
    rw [← first, ← judgeLine_eq_ok_iff_runLine] at before
    exact ⟨between, before, joined between before ▸ accepted⟩
  · rintro ⟨between, before, accepted⟩
    exact (joined between before).trans accepted

/-- The loop that the first line opens is open in the second, and closed there. -/
theorem judgeLine_append_semicolon_loop :
    '\n' ∉ "endwhile ; y = -2".toList ∧
    (∀ t ∈ tokenize 4 "endwhile ; y = -2", t.tag ≠ .colon) ∧
    judgeLine "top: while x < 1" ⟨4, 0⟩ = .ok ⟨4, 1⟩ ∧
    judgeLine "endwhile ; y = -2" ⟨4, 1⟩ = .ok ⟨4, 0⟩ ∧
    judgeLine ("top: while x < 1" ++ ";" ++ "endwhile ; y = -2") ⟨4, 0⟩ = .ok ⟨4, 0⟩ ∧
    judgeLine ("top: while x < 1" ++ ";" ++ "endwhile ; y = -2") ⟨4, 0⟩ =
      judgeLine "endwhile ; y = -2" ⟨4, 1⟩ := by
  have oneLine : '\n' ∉ "endwhile ; y = -2".toList := by decide +kernel
  have noColon : ∀ t ∈ tokenize 4 "endwhile ; y = -2", t.tag ≠ .colon := by decide +kernel
  have first : judgeLine "top: while x < 1" ⟨4, 0⟩ = .ok ⟨4, 1⟩ := by decide +kernel
  have second : judgeLine "endwhile ; y = -2" ⟨4, 1⟩ = .ok ⟨4, 0⟩ := by decide +kernel
  obtain ⟨accepted, joined⟩ :=
    @judgeLine_append_semicolon "top: while x < 1" _ ⟨4, 0⟩ oneLine noColon
  exact ⟨oneLine, noColon, first, second, (accepted _).mpr ⟨_, first, second⟩, joined _ first⟩

/-! ### Labels -/

/-- A word that the vocabulary does not hold is an identifier. -/
theorem Vocabulary.wordTag_of_not_mem_entries (free : name ∉ entries.map Prod.fst) :
    wordTag name.toList = .identifier := by
  have unknown : words.lookup name = none := by
    refine List.lookup_eq_none_iff.mpr fun entry member => ?_
    have listed : entry.1 ∈ entries.map Prod.fst :=
      List.mem_map_of_mem (List.mem_append_left _ member)
    exact bne_iff_ne.mpr fun same => free (same ▸ listed)
  rw [wordTag, String.ofList_toList, unknown]
  rfl

/-- A label in front of a text is two tokens. -/
theorem exists_tokenize_labelled (line : Int) (word : Lexeme.isIdentifier name.toList = true)
    (free : name ∉ Vocabulary.entries.map Prod.fst) (text : String) :
    ∃ p q r, tokenize line (name ++ ":" ++ text) =
      ⟨.identifier, name, p⟩ :: ⟨.colon, ":", q⟩ :: Token.sequence r text.toList := by
  have whole : (name ++ ":" ++ text).toList = name.toList ++ ':' :: text.toList := by
    simp
  have cut : Piece.cut ':' [] = ⟨.colon, [':'], []⟩ := by decide
  have apart := Token.sequence_append_mark (by decide) (by decide) cut (.startOf line) name.toList
    text.toList
  obtain ⟨q, alone⟩ := Token.exists_sequence_eq_of_isIdentifier word (.startOf line)
  have first : (Token.sequence (.startOf line) name.toList).dropLast =
      [⟨.identifier, name, .startOf line⟩] := by
    rw [alone, Vocabulary.wordTag_of_not_mem_entries free, String.ofList_toList]
    rfl
  rw [first] at apart
  exact ⟨_, _, _, by rw [tokenize, whole, apart]; rfl⟩

/-- A label in front of a line that has none changes nothing. -/
theorem judgeLine_labelled (word : Lexeme.isIdentifier name.toList = true)
    (free : name ∉ Vocabulary.entries.map Prod.fst) (oneLine : '\n' ∉ text.toList)
    (noColon : ∀ t ∈ tokenize ctx.line text, t.tag ≠ .colon) :
    judgeLine (name ++ ":" ++ text) ctx = judgeLine text ctx := by
  obtain ⟨p, q, r, tokens⟩ := exists_tokenize_labelled ctx.line word free text
  have noColon' := Token.forall_tag_sequence (· ≠ .colon) oneLine noColon r
  have label : Label.ofTokens (tokenize ctx.line (name ++ ":" ++ text)) = .present :=
    Label.ofTokens_eq_present_iff.mpr ⟨_, _, _, tokens, rfl, rfl, noColon'⟩
  rw [judgeLine, judgeLine, checkLine_eq_run_sequence oneLine noColon r, checkLine_eq_runLine,
    Stage.runLine, label, tokens]
  rfl

/-- A signed number and a fault stay what they are behind a label. -/
theorem judgeLine_labelled_unclosed :
    Lexeme.isIdentifier "end2".toList = true ∧ "end2" ∉ Vocabulary.entries.map Prod.fst ∧
    '\n' ∉ "while (x < -1; endwhile".toList ∧
    (∀ t ∈ tokenize 7 "while (x < -1; endwhile", t.tag ≠ .colon) ∧
    judgeLine ("end2" ++ ":" ++ "while (x < -1; endwhile") ⟨7, 0⟩ =
      judgeLine "while (x < -1; endwhile" ⟨7, 0⟩ ∧
    judgeLine "while (x < -1; endwhile" ⟨7, 0⟩ = .error (.rejected 7 .tail) := by
  have word : Lexeme.isIdentifier "end2".toList = true := by decide +kernel
  have free : "end2" ∉ Vocabulary.entries.map Prod.fst := by decide
  have oneLine : '\n' ∉ "while (x < -1; endwhile".toList := by decide +kernel
  have noColon : ∀ t ∈ tokenize 7 "while (x < -1; endwhile", t.tag ≠ .colon := by decide +kernel
  exact ⟨word, free, oneLine, noColon,
    judgeLine_labelled word free oneLine noColon, by decide +kernel⟩

end LineBasic
