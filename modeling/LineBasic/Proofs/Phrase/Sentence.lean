import LineBasic.Proofs.Phrase.ParseTree

/-!
# The sentences of the grammar of lines

The grammar of a line is factored so that one symbol decides every choice: a parenthesis that
opens a condition is read before it is known what it encloses, and a label is told from an
assignment behind the first identifier only. What it derives can be said without any of this. It
is an optional label and statements with semicolons between them, whose expressions are operands
with operators between them, none of which binds more tightly than another.

Tags do not tell where they stand, so that every sign may belong to the number behind it.

## Main definitions

* `IsJoined`: parts with a separator between every two.

## Main results

* `isExpression_iff_isJoined`, `isStatements_iff_isJoined`: expressions and statements are joined.
* `sentence_iff_isJoined`: what the grammar of lines derives.
-/

namespace LineBasic

variable {τ : Type}

/-- Whether a sequence consists of parts with a separator between every two. -/
def IsJoined (part : List τ → Prop) (separates : τ → Prop) (ts : List τ) : Prop :=
  ∃ (first : List τ) (later : List (τ × List τ)), part first ∧
    (∀ link ∈ later, separates link.1 ∧ part link.2) ∧
    ts = first ++ later.flatMap fun link => link.1 :: link.2

section Joined

variable {part : List τ → Prop} {separates : τ → Prop} {t : τ} {ts us : List τ}

theorem IsJoined.single (h : part ts) : IsJoined part separates ts :=
  ⟨ts, [], h, fun _ member => absurd member List.not_mem_nil, (List.append_nil ts).symm⟩

theorem IsJoined.cons (h : part ts) (separator : separates t) (later : IsJoined part separates us) :
    IsJoined part separates (ts ++ t :: us) := by
  obtain ⟨first, links, here, rest, rfl⟩ := later
  exact ⟨ts, (t, first) :: links, h, List.forall_mem_cons.mpr ⟨⟨separator, here⟩, rest⟩, rfl⟩

/-- What holds of a single part and is kept by one more part in front holds of all that
is joined. -/
theorem IsJoined.induction {motive : List τ → Prop} (single : ∀ ts, part ts → motive ts)
    (cons : ∀ ts t us, part ts → separates t → motive us → motive (ts ++ t :: us))
    (h : IsJoined part separates ts) : motive ts := by
  obtain ⟨first, links, here, rest, rfl⟩ := h
  induction links generalizing first with
  | nil =>
    rw [List.flatMap_nil, List.append_nil]
    exact single first here
  | cons link links ih =>
    obtain ⟨next, rest⟩ := List.forall_mem_cons.mp rest
    exact cons first link.1 _ here next.1 (ih link.2 next.2 rest)

end Joined

variable {tag : τ → Tag} {touches : τ → τ → Prop} {ts : List τ}

theorem IsExpression.isJoined (h : IsExpression tag touches ts) :
    IsJoined (IsOperand tag touches) (fun t => (tag t).isArithmetic = true) ts := by
  -- expressions come with operands, but of what is inside these nothing has to be known
  refine @IsExpression.rec τ tag touches (fun _ _ => True) (fun us _ => IsJoined _ _ us)
    ?identifier ?number ?signed ?group ?single ?chain ts h
  case single => exact fun operand _ => .single operand
  case chain => exact fun operand operator _ _ later => .cons operand operator later
  all_goals intros; trivial

/-- An expression is operands joined by operators, whichever these are. -/
theorem isExpression_iff_isJoined : IsExpression tag touches ts ↔
    IsJoined (IsOperand tag touches) (fun t => (tag t).isArithmetic = true) ts := by
  refine ⟨IsExpression.isJoined, fun h => ?_⟩
  exact h.induction (fun _ => .single) fun _ _ _ => .chain

theorem isStatements_iff_isJoined : IsStatements tag touches ts ↔
    IsJoined (IsStatement tag touches) (fun t => tag t = .semicolon) ts := by
  constructor
  · intro h
    induction h with
    | single h => exact .single h
    | chain h hseparator _ ih => exact .cons h hseparator ih
  · intro h
    exact h.induction (fun _ => .single) fun _ _ _ => .chain

/-- A line is statements behind a label or behind nothing. -/
theorem isLine_iff_isJoined : IsLine tag touches ts ↔
    ∃ label body, ts = label ++ body ∧
      (label.map tag = [] ∨ label.map tag = [.identifier, .colon]) ∧
      IsJoined (IsStatement tag touches) (fun t => tag t = .semicolon) body := by
  constructor
  · intro h
    cases h with
    | bare h => exact ⟨[], ts, rfl, .inl rfl, isStatements_iff_isJoined.mp h⟩
    | @labelled name colon body hname hcolon h =>
      refine ⟨[name, colon], body, rfl, .inr ?_, isStatements_iff_isJoined.mp h⟩
      rw [List.map_cons, List.map_singleton, hname, hcolon]
  · rintro ⟨label, body, rfl, none | named, h⟩
    · rw [List.map_eq_nil_iff.mp none]
      exact .bare (isStatements_iff_isJoined.mpr h)
    · obtain ⟨name, rest, rfl, hname, last⟩ := List.map_eq_cons_iff.mp named
      obtain ⟨colon, rfl, hcolon⟩ := List.map_eq_singleton_iff.mp last
      exact .labelled hname hcolon (isStatements_iff_isJoined.mpr h)

namespace Grammar

variable {f : Forest τ} {p : Production}

/-- What a production with a signed number in front stands for begins with two tokens. -/
theorem beginsTouching_of_meansAll (all : ∀ t u, touches t u) (h : MeansAll tag touches p ts)
    (signed : signedNumber <+: p) : BeginsTouching touches ts := by
  obtain ⟨rest, rfl⟩ := signed
  obtain ⟨us, vs, rfl, ⟨sign, rfl, -⟩, later⟩ := h
  obtain ⟨digits, ws, rfl, -⟩ := later.token (t := .number) rfl
  exact all sign digits

/-- Where any two tokens touch, the signs of all parse trees touch their numbers. -/
theorem signsTouch_of_valid (all : ∀ t u, touches t u)
    (valid : f.Valid ofLines fun t => (tag t).name) :
    f.SignsTouch (fun t => (tag t).name) touches := by
  induction f with
  | nil => trivial
  | leaf token rest ih => exact ih valid.2
  | node s choice children rest ihChildren ihRest =>
    have inside := ihChildren valid.2.1
    exact ⟨beginsTouching_of_meansAll all (meansAll_yield valid.2.1 inside), inside,
      ihRest valid.2.2⟩

/-- A sequence of terminals is derived from the symbol of a line just when it has the form of
one. -/
theorem derives_lineSymbol_iff_isLine {tags : List Tag}
    (terminals : ∀ t ∈ tags, ofLines.IsTerminal t.name) :
    ofLines.Derives [lineSymbol] (tags.map Tag.name) ↔ IsLine id (fun _ _ => True) tags := by
  have trees : ofLines.Derives [lineSymbol] (tags.map Tag.name) ↔ ∃ f : Forest Tag,
      f.Valid ofLines Tag.name ∧ f.roots Tag.name = [lineSymbol] ∧ f.yield = tags :=
    derives_iff_exists_forest terminals
  rw [trees, isLine_iff_exists_tree]
  constructor
  · rintro ⟨f, valid, roots, same⟩
    exact ⟨f, ⟨roots, valid⟩, signsTouch_of_valid (fun _ _ => trivial) valid, same⟩
  · rintro ⟨f, ⟨roots, valid⟩, -, same⟩
    exact ⟨f, valid, roots, same⟩

/-- The grammar of lines derives just the statements with semicolons between them, perhaps behind
a label. The expressions in these are operands with operators between them. All tags but foreign
ones are terminals. -/
theorem sentence_iff_isJoined {tags : List Tag}
    (terminals : ∀ t ∈ tags, ofLines.IsTerminal t.name) :
    (ofLines.Derives [lineSymbol] (tags.map Tag.name) ↔
      ∃ label body, tags = label ++ body ∧ (label = [] ∨ label = [.identifier, .colon]) ∧
        IsJoined (IsStatement id fun _ _ => True) (· = .semicolon) body) ∧
    ∀ ts : List Tag, IsExpression id (fun _ _ => True) ts ↔
      IsJoined (IsOperand id fun _ _ => True) (·.isArithmetic = true) ts := by
  refine ⟨?_, fun ts => isExpression_iff_isJoined⟩
  have joined := @isLine_iff_isJoined Tag id (fun _ _ => True) tags
  simp only [List.map_id, id_eq] at joined
  exact (derives_lineSymbol_iff_isLine terminals).trans joined

/-- A label, a condition that begins with a parenthesis but is none in parentheses, and a signed
number. -/
theorem sentence_iff_isJoined_labelled :
    (∀ t ∈ [Tag.identifier, .colon, .ifWord, .leftParen, .identifier, .rightParen, .times, .number,
      .less, .minus, .number, .semicolon, .endWord], ofLines.IsTerminal t.name) ∧
    ofLines.Derives [lineSymbol] ["IDENT", "COLON", "IF", "LPAREN", "IDENT", "RPAREN", "MULT",
      "NUMBER", "LT", "SUB", "NUMBER", "SEMI", "END"] := by
  have terminals : ∀ t ∈ [Tag.identifier, .colon, .ifWord, .leftParen, .identifier, .rightParen,
      .times, .number, .less, .minus, .number, .semicolon, .endWord],
      ofLines.IsTerminal t.name := by decide
  refine ⟨terminals, (sentence_iff_isJoined terminals).1.mpr ?_⟩
  have group : IsOperand id (fun _ _ => True) [Tag.leftParen, .identifier, .rightParen] :=
    .group rfl (.single (.identifier rfl)) rfl
  have product : IsExpression id (fun _ _ => True)
      [Tag.leftParen, .identifier, .rightParen, .times, .number] :=
    .chain group rfl (.single (.number rfl))
  have negative : IsExpression id (fun _ _ => True) [Tag.minus, .number] :=
    .single (.signed (.inr rfl) rfl trivial)
  have less : Tag.isRelational .less = true := rfl
  have condition : IsStatement id (fun _ _ => True) (.ifWord :: _) :=
    .conditional rfl (.comparison product less negative)
  have last : IsStatement id (fun _ _ => True) [Tag.endWord] := .bare (.inr (.inr rfl))
  exact ⟨[.identifier, .colon], _, rfl, .inr rfl, .cons condition rfl (.single last)⟩

end Grammar

end LineBasic
