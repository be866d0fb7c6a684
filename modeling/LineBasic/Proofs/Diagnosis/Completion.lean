import LineBasic.Proofs.Diagnosis.Reading
import LineBasic.Proofs.Line.WellFormed

/-!
# Every beginning of a line that can be read can be completed

From every stage a few more tokens lead to the end of the line. These are tokens of texts, so
that what stops a line is never the tokens that have been read of it, but the next one.

## Main definitions

* `Token.IsLexical`: whether some text has the token, positions aside.
* `Line.IsCandidate`: the lines that could follow a given label.
* `Stage.completion`: tokens that lead from a stage to the end of the line.
* `Line.completed`: a line that is completed from a stage.

## Main results

* `Line.IsCandidate.check_eq_run`: a candidate is checked by running through its tokens.
* `Stage.run_completion`: a completion leads to the end of the line.
-/

namespace LineBasic

/-- Whether some text has a token of this tag and lexeme. -/
def Token.IsLexical (t : Token) : Prop :=
  ∃ line text, ∃ u ∈ tokenize line text, u.tag = t.tag ∧ u.lexeme = t.lexeme

/-- Whether a line consists of tokens that texts have, ends as lines do, and has no colon behind
its first tokens. Its columns may be any. -/
structure Line.IsCandidate (line : Line) (start : Nat) : Prop where
  lexical : ∀ t ∈ line.tokens, t.IsLexical
  ended : ∃ ts stop, line.tokens = ts ++ [stop] ∧ stop.tag = .endOfLine ∧
    ∀ t ∈ ts, t.tag ≠ .endOfLine
  noColon : ∀ t ∈ line.tokens.drop start, t.tag ≠ .colon

/-! ### Candidates -/

namespace Token.IsLexical

variable {t : Token}

/-- The tokens of texts are spelled as their tags say, but for those that end the line. -/
theorem spelling_or_empty (h : t.IsLexical) :
    Spelling t.tag t.lexeme.toList ∨ t.tag = .endOfLine ∧ t.lexeme = "" := by
  obtain ⟨line, text, u, member, tag, lexeme⟩ := h
  obtain ⟨p, same, spelled⟩ := exists_tokenize_eq line text
  rw [same, List.mem_append, List.mem_singleton] at member
  rw [← tag, ← lexeme]
  rcases member with inner | rfl
  · exact .inl (spelled u inner)
  · exact .inr ⟨rfl, rfl⟩

theorem eq_endOfLine (h : t.IsLexical) (stop : t.tag = .endOfLine) :
    t = Token.endOfLine t.position := by
  rcases h.spelling_or_empty with spelling | ⟨-, empty⟩
  · exact absurd stop spelling.tag_ne_endOfLine
  · rw [Token.endOfLine, ← stop, ← empty]

theorem spelling (h : t.IsLexical) (more : t.tag ≠ .endOfLine) :
    Spelling t.tag t.lexeme.toList :=
  h.spelling_or_empty.resolve_right fun stop => more stop.1

end Token.IsLexical

/-- The tokens of a text are tokens that texts have. -/
theorem isLexical_of_mem_tokenize {line : Int} {text : String} {t : Token}
    (h : t ∈ tokenize line text) : t.IsLexical :=
  ⟨line, text, t, h, rfl, rfl⟩

theorem isLexical_endOfLine (p : Position) : (Token.endOfLine p).IsLexical := by
  refine ⟨0, "", Token.endOfLine (.startOf 0), ?_, rfl, rfl⟩
  decide +kernel

/-- Whether tags are those of a label or of none. -/
def IsLabel (tags : List Tag) : Prop :=
  tags = [] ∨ tags = [.identifier, .colon]

/-- Behind its label a line begins that has no more colons. -/
theorem Label.bodyStart?_append {front body : List Token} (label : IsLabel (front.map Token.tag))
    (noColon : ∀ t ∈ body, t.tag ≠ .colon) :
    (ofTokens (front ++ body)).bodyStart? = some front.length := by
  rcases label with none | some
  · rw [List.map_eq_nil_iff.mp none, List.nil_append, ofTokens_eq_absent_iff.mpr noColon]
    rfl
  · obtain ⟨name, rest, rfl, hname, some⟩ := List.map_eq_cons_iff.mp some
    obtain ⟨colon, rest, rfl, hcolon, some⟩ := List.map_eq_cons_iff.mp some
    obtain rfl := List.map_eq_nil_iff.mp some
    have present : ofTokens ([name, colon] ++ body) = .present :=
      ofTokens_eq_present_iff.mpr ⟨name, colon, body, rfl, hname, hcolon, noColon⟩
    rw [present]
    rfl

namespace Line.IsCandidate

variable {line : Line} {start : Nat} {ctx : Context} {front body : List Token}

/-- The places in a candidate are like those in the tokens of a text. -/
theorem ofText_place (h : line.IsCandidate start) {k : Nat} (within : k < line.tokens.length) :
    (line.place k).OfText ∧ ¬ (line.place k).isPastEnd = true := by
  obtain ⟨tokens, nonempty⟩ := line
  obtain ⟨ts, stop, rfl, stops, inner⟩ := h.ended
  have last : (Line.place ⟨ts ++ [stop], nonempty⟩ k).last = stop :=
    List.getLast_append_singleton ..
  have k_le : k ≤ ts.length := by
    rw [List.length_append, List.length_singleton] at within
    omega
  have rest : (Line.place ⟨ts ++ [stop], nonempty⟩ k).rest =
      ts.drop k ++ [(Line.place ⟨ts ++ [stop], nonempty⟩ k).last] := by
    rw [last]
    exact List.drop_append_of_le_length k_le
  refine ⟨⟨⟨stop.position, ?_⟩, .inr ⟨_, rest, fun t member => ?_⟩⟩, ?_⟩
  · rw [last]
    exact (h.lexical stop (by simp)).eq_endOfLine stops
  · have member := List.mem_of_mem_drop member
    exact (h.lexical t (List.mem_append_left _ member)).spelling (inner t member)
  · rw [Cursor.isPastEnd, rest]
    simp

/-- No label ends a line. -/
theorem length_lt (h : line.IsCandidate start) (same : line.tokens = front ++ body)
    (label : IsLabel (front.map Token.tag)) : front.length < line.tokens.length := by
  have some : body ≠ [] := by
    rintro rfl
    obtain ⟨ts, stop, whole, stops, -⟩ := h.ended
    rw [same, List.append_nil] at whole
    have member : Tag.endOfLine ∈ front.map Token.tag := by simp [whole, stops]
    rcases label with none | some
    · simp [none] at member
    · simp [some] at member
  rw [same, List.length_append]
  have := List.length_pos_iff.mpr some
  omega

/-- A candidate is checked by running through its tokens. -/
theorem check_eq_run (h : line.IsCandidate front.length) (same : line.tokens = front ++ body)
    (label : IsLabel (front.map Token.tag)) (ctx : Context) :
    line.check ctx = (Stage.run (.statementDue, ctx) body).map Prod.snd := by
  have noColon : ∀ t ∈ body, t.tag ≠ .colon := by
    have := h.noColon
    rwa [same, List.drop_left] at this
  obtain ⟨inText, more⟩ := h.ofText_place (h.length_lt same label)
  have start : (Label.ofTokens line.tokens).bodyStart? = some front.length := by
    rw [same]
    exact Label.bodyStart?_append label noColon
  have rest : (line.place front.length).rest = body := by
    change line.tokens.drop front.length = body
    rw [same, List.drop_left]
  rw [Line.check, start]
  change Stage.statementDue.readRest ctx (line.place front.length) = _
  rw [inText.readRest_eq_run more, rest]

end Line.IsCandidate

/-! ### Completions -/

/-- Tokens that lead from an expression without open parentheses to the end of the line. -/
def Site.ending : Site → List Token
  | final => []
  | left => [⟨.equals, "=", ⟨0, 0⟩⟩, ⟨.number, "0", ⟨0, 0⟩⟩]
  | group => [⟨.equals, "=", ⟨0, 0⟩⟩, ⟨.number, "0", ⟨0, 0⟩⟩, ⟨.rightParen, ")", ⟨0, 0⟩⟩]
  | groupRight => [⟨.rightParen, ")", ⟨0, 0⟩⟩]

/-- Tokens that lead from an operand of an expression to the end of the line. -/
def Site.completion (site : Site) (depth : Nat) : List Token :=
  List.replicate depth ⟨.rightParen, ")", ⟨0, 0⟩⟩ ++ site.ending

/-- Tokens that lead from a stage to the end of the line. -/
def Stage.completion : Stage → List Token
  | statementDue => [⟨.returnWord, "return", ⟨0, 0⟩⟩]
  | equalsDue => [⟨.equals, "=", ⟨0, 0⟩⟩, ⟨.number, "0", ⟨0, 0⟩⟩]
  | nameDue => [⟨.identifier, "a", ⟨0, 0⟩⟩]
  | conditionDue => [⟨.literal, "true", ⟨0, 0⟩⟩]
  | operandDue site depth => ⟨.number, "0", ⟨0, 0⟩⟩ :: site.completion depth
  | numberDue site depth signColumn =>
    ⟨.number, "0", ⟨0, signColumn + 1⟩⟩ :: site.completion depth
  | operandRead site depth => site.completion depth
  | statementRead | conditionRead | lineRead => []

namespace Stage

variable {stage : Stage} {t : Token}

theorem run_site_completion (site : Site) (depth : Nat) (ctx : Context) (p : Position) :
    run (operandRead site depth, ctx) (site.completion depth ++ [Token.endOfLine p]) =
      .ok (lineRead, ctx) := by
  induction depth with
  | zero => cases site <;> rfl
  | succ depth ih => exact ih

/-- A completion leads to the end of the line. -/
theorem run_completion (unfinished : stage ≠ lineRead) (ctx : Context) (p : Position) :
    run (stage, ctx) (stage.completion ++ [Token.endOfLine p]) = .ok (lineRead, ctx) := by
  cases stage with
  | operandDue site depth => exact run_site_completion site depth ctx p
  | numberDue site depth signColumn =>
    rw [completion, List.cons_append, run_cons]
    have step : advance (numberDue site depth signColumn, ctx)
        ⟨.number, "0", ⟨0, signColumn + 1⟩⟩ = .ok (operandRead site depth, ctx) := by
      simp [advance, next, contextBehind]
      rfl
    rw [step]
    exact run_site_completion site depth ctx p
  | operandRead site depth => exact run_site_completion site depth ctx p
  | lineRead => exact absurd rfl unfinished
  | _ => rfl

/-- The tags and lexemes of which completions are made. -/
def samples : List (Tag × String) :=
  [(.returnWord, "return"), (.equals, "="), (.number, "0"), (.identifier, "a"),
    (.literal, "true"), (.rightParen, ")")]

theorem mem_samples_of_mem_site_completion {site : Site} {depth : Nat}
    (h : t ∈ site.completion depth) : (t.tag, t.lexeme) ∈ samples := by
  rcases List.mem_append.mp h with closing | final
  · rw [List.eq_of_mem_replicate closing]
    decide
  · have all : ∀ t ∈ site.ending, (t.tag, t.lexeme) ∈ samples := by cases site <;> decide
    exact all t final

theorem mem_samples_of_mem_completion (h : t ∈ stage.completion) :
    (t.tag, t.lexeme) ∈ samples := by
  cases stage with
  | operandDue site depth | numberDue site depth =>
    rcases List.mem_cons.mp h with rfl | later
    · exact (by decide : (Tag.number, "0") ∈ samples)
    · exact mem_samples_of_mem_site_completion later
  | operandRead site depth => exact mem_samples_of_mem_site_completion h
  | _ =>
    revert t
    decide

/-- Completions consist of tokens that texts have, and of none that ends a line or is a colon. -/
theorem of_mem_completion (h : t ∈ stage.completion) :
    t.IsLexical ∧ t.tag ≠ .endOfLine ∧ t.tag ≠ .colon := by
  have all : ∀ sample ∈ samples,
      (∃ u ∈ tokenize 0 sample.2, u.tag = sample.1 ∧ u.lexeme = sample.2) ∧
        sample.1 ≠ .endOfLine ∧ sample.1 ≠ .colon := by
    decide +kernel
  obtain ⟨⟨u, found, tag, lexeme⟩, inner⟩ := all _ (mem_samples_of_mem_completion h)
  exact ⟨⟨0, t.lexeme, u, found, tag, lexeme⟩, inner⟩

end Stage

/-- The line that begins with some tokens and ends with the completion of a stage. -/
def Line.completed (ts : List Token) (stage : Stage) : Line :=
  ⟨ts ++ (stage.completion ++ [Token.endOfLine ⟨0, 0⟩]), by simp⟩

/-- A completion keeps a beginning of a candidate a candidate. -/
theorem Line.isCandidate_completed {ts : List Token} {start : Nat} (stage : Stage)
    (lexical : ∀ t ∈ ts, t.IsLexical) (inner : ∀ t ∈ ts, t.tag ≠ .endOfLine)
    (within : start ≤ ts.length) (noColon : ∀ t ∈ ts.drop start, t.tag ≠ .colon) :
    (completed ts stage).IsCandidate start where
  lexical := by
    simp only [completed, List.mem_append, List.mem_singleton]
    rintro t (earlier | added | rfl)
    · exact lexical t earlier
    · exact (Stage.of_mem_completion added).1
    · exact isLexical_endOfLine _
  ended := by
    refine ⟨ts ++ stage.completion, Token.endOfLine ⟨0, 0⟩, by simp [completed], rfl, ?_⟩
    intro t member
    rcases List.mem_append.mp member with earlier | added
    · exact inner t earlier
    · exact (Stage.of_mem_completion added).2.1
  noColon := by
    rw [completed, List.drop_append_of_le_length within]
    simp only [List.mem_append, List.mem_singleton]
    rintro t (earlier | added | rfl)
    · exact noColon t earlier
    · exact (Stage.of_mem_completion added).2.2
    · exact nofun

end LineBasic
