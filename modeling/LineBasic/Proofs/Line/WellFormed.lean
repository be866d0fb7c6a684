import LineBasic.Line.Check
import LineBasic.Proofs.Cursor.Statement
import LineBasic.Proofs.Phrase.ParseTree

/-!
# Checking a line accepts the grammar of lines

The check of a line settles its label by its colons and then reads its statements
from the left. The grammar does neither: it knows a label by the colon after the
first identifier, and it derives a line from one symbol. Both accept the same
lines, up to loops that are closed while none is open.

## Main definitions

* `contents`: the tokens of a text without the one that ends it.
* `IsWellFormed`: whether tokens have a parse tree in the grammar of lines.

## Main results

* `checkLine_eq_ok_iff`: which lines are accepted, and in which context they leave
  the next one.
* `judgeLine_exact`: the outcome of checking a line, from the grammar alone.
-/

namespace LineBasic

/-- What the grammar knows of a token. -/
def Token.label (t : Token) : Symbol := t.tag.name

/-- Whether tokens form a line: they have a parse tree in the grammar of lines, and
every sign in it that belongs to a number touches the number. -/
def IsWellFormed (ts : List Token) : Prop :=
  ∃ f : Forest Token, Grammar.ofLines.IsParseTree Token.label Grammar.lineSymbol f ∧
    f.SignsTouch Token.label Token.Touches ∧ f.yield = ts

/-- The tokens of a text without the one that ends it. -/
def contents (line : Int) (text : String) : List Token :=
  (tokenize line text).dropLast

variable {line loops : Int} {text : String} {ctx ctx' : Context} {last : Token} {ts : List Token}

theorem isWellFormed_iff : IsWellFormed ts ↔ IsLine Token.tag Token.Touches ts :=
  Grammar.isLine_iff_exists_tree.symm

theorem exists_tokenize_eq (line : Int) (text : String) :
    ∃ p, tokenize line text = contents line text ++ [Token.endOfLine p] ∧
      ∀ t ∈ contents line text, Spelling t.tag t.lexeme.toList := by
  obtain ⟨ts, p, same, spelled⟩ := Token.exists_sequence_eq (.startOf line) text.toList
  have front : contents line text = ts := by
    rw [contents, tokenize, same, List.dropLast_concat]
  rw [front]
  exact ⟨p, same, spelled⟩

/-! ### Labels -/

namespace Label

variable {tokens : List Token}

theorem any_isColon_eq_false_iff : tokens.any isColon = false ↔ ∀ t ∈ tokens, t.tag ≠ .colon := by
  rw [List.any_eq_false]
  simp only [isColon, decide_eq_true_eq, ne_eq]

theorem ofTokens_of_any_isColon (some : tokens.any isColon = true) :
    ofTokens tokens = present ∨ ofTokens tokens = misplaced := by
  unfold ofTokens
  rw [if_pos some]
  split
  · split
    · exact .inl rfl
    · exact .inr rfl
  · exact .inr rfl

theorem ofTokens_eq_absent_iff : ofTokens tokens = absent ↔ ∀ t ∈ tokens, t.tag ≠ .colon := by
  rw [← any_isColon_eq_false_iff]
  by_cases some : tokens.any isColon = true
  · rw [some]
    rcases ofTokens_of_any_isColon some with h | h <;> rw [h] <;> exact ⟨nofun, nofun⟩
  · unfold ofTokens
    rw [if_neg some]
    exact ⟨fun _ => Bool.eq_false_iff.mpr some, fun _ => rfl⟩

theorem ofTokens_eq_present_iff :
    ofTokens tokens = present ↔ ∃ name colon rest, tokens = name :: colon :: rest ∧
      name.tag = .identifier ∧ colon.tag = .colon ∧ ∀ t ∈ rest, t.tag ≠ .colon := by
  constructor
  · intro h
    match tokens with
    | [] => exact nomatch h
    | [name] =>
      unfold ofTokens at h
      split at h <;> exact nomatch h
    | name :: colon :: rest =>
      unfold ofTokens at h
      split at h
      · dsimp only at h
        split at h
        case isTrue shape =>
          obtain ⟨hname, hcolon, others⟩ := shape
          rw [Bool.not_eq_true, any_isColon_eq_false_iff] at others
          exact ⟨name, colon, rest, rfl, hname, hcolon, others⟩
        case isFalse => exact nomatch h
      · exact nomatch h
  · rintro ⟨name, colon, rest, rfl, hname, hcolon, others⟩
    have some : (name :: colon :: rest).any isColon = true := by
      simp [isColon, hcolon]
    have others : ¬ rest.any isColon = true := by
      rw [Bool.not_eq_true]
      exact any_isColon_eq_false_iff.mpr others
    simp only [ofTokens, some, if_true, if_pos (And.intro hname (And.intro hcolon others))]

end Label

/-- A label stands before the token that ends the line. -/
theorem exists_label_of_present (stop : last.tag = .endOfLine)
    (present : Label.ofTokens (ts ++ [last]) = .present) :
    ∃ name colon us, ts = name :: colon :: us ∧ name.tag = .identifier ∧ colon.tag = .colon := by
  obtain ⟨name, colon, rest, same, hname, hcolon, -⟩ := Label.ofTokens_eq_present_iff.mp present
  match ts with
  | [] => exact nomatch same
  | [first] =>
    obtain ⟨rfl, -⟩ := List.cons.inj (List.cons.inj same).2
    exact nomatch stop.symm.trans hcolon
  | first :: second :: us =>
    obtain ⟨rfl, later⟩ := List.cons.inj same
    obtain ⟨rfl, -⟩ := List.cons.inj later
    exact ⟨first, second, us, rfl, hname, hcolon⟩

/-- Tokens form a line just when they are statements without a colon, or statements
behind a label. -/
theorem isLine_iff_label (stop : last.tag = .endOfLine) :
    IsLine Token.tag Token.Touches ts ↔
      (Label.ofTokens (ts ++ [last]) = .absent ∧ IsStatements Token.tag Token.Touches ts) ∨
      (Label.ofTokens (ts ++ [last]) = .present ∧
        IsStatements Token.tag Token.Touches (ts.drop 2)) := by
  -- a colon belongs to a label: statements hold none, and the end of the line is none
  have noColon {us : List Token} (h : IsStatements Token.tag Token.Touches us) :
      ∀ t ∈ us ++ [last], t.tag ≠ .colon := by
    intro t member same
    rcases List.mem_append.mp member with member | member
    · have inner := h.isInner t member
      rw [same] at inner
      exact nomatch inner
    · rw [List.mem_singleton.mp member, stop] at same
      exact nomatch same
  constructor
  · intro h
    cases h with
    | bare h => exact .inl ⟨Label.ofTokens_eq_absent_iff.mpr (noColon h), h⟩
    | @labelled name colon us hname hcolon h =>
      refine .inr ⟨?_, h⟩
      exact Label.ofTokens_eq_present_iff.mpr
        ⟨name, colon, us ++ [last], rfl, hname, hcolon, noColon h⟩
  · rintro (⟨-, h⟩ | ⟨present, h⟩)
    · exact .bare h
    · obtain ⟨name, colon, us, rfl, hname, hcolon⟩ := exists_label_of_present stop present
      exact .labelled hname hcolon h

/-- The tokens of a label open and close no loop. -/
theorem loopsAfter_drop_label (stop : last.tag = .endOfLine)
    (present : Label.ofTokens (ts ++ [last]) = .present) (loops : Int) :
    loopsAfter loops (ts.drop 2) = loopsAfter loops ts := by
  obtain ⟨name, colon, us, rfl, hname, hcolon⟩ := exists_label_of_present stop present
  have behindColon : loopsAfter loops (colon :: us) = loopsAfter loops us := by
    rw [loopsAfter_cons, hcolon]
    rfl
  rw [loopsAfter_cons loops name, hname]
  exact behindColon.symm

/-! ### Lines -/

theorem Line.ofText_tokens (line : Int) (text : String) :
    (Line.ofText line text).tokens = tokenize line text := rfl

/-- A place in the tokens of a text that is not behind its contents. -/
theorem ofText_place (line : Int) (text : String) {k : Nat}
    (within : k ≤ (contents line text).length) :
    ((Line.ofText line text).place k).OfText ∧
      ((Line.ofText line text).place k).rest =
        (contents line text).drop k ++ [((Line.ofText line text).place k).last] := by
  obtain ⟨p, same, spelled⟩ := exists_tokenize_eq line text
  have last : ((Line.ofText line text).place k).last = Token.endOfLine p := by
    simp only [Line.ofText, Line.place, same, List.getLast_append_singleton]
  have rest : ((Line.ofText line text).place k).rest =
      (contents line text).drop k ++ [((Line.ofText line text).place k).last] := by
    rw [last]
    simp only [Line.ofText, Line.place, same, List.drop_append_of_le_length within]
  refine ⟨⟨⟨p, last⟩, .inr ⟨_, rest, fun t member => ?_⟩⟩, rest⟩
  exact spelled t (List.mem_of_mem_drop member)

/-- The check of a line reads its statements from where its label ends. -/
theorem checkLine_of_bodyStart? {start : Nat}
    (label : (Label.ofTokens (tokenize ctx.line text)).bodyStart? = some start) :
    checkLine text ctx = ((Line.ofText ctx.line text).place start).statements ctx := by
  rw [← Line.ofText_tokens] at label
  rw [checkLine, Line.check, label]

/-- A line is accepted just when it is well formed and closes no loop while none is
open. -/
theorem checkLine_eq_ok_iff :
    checkLine text ctx = .ok ctx' ↔
      IsWellFormed (contents ctx.line text) ∧
        loopsAfter ctx.openLoops (contents ctx.line text) = some ctx'.openLoops ∧
          ctx'.line = ctx.line := by
  obtain ⟨p, same, -⟩ := exists_tokenize_eq ctx.line text
  have stop : (Token.endOfLine p).tag = .endOfLine := rfl
  rw [isWellFormed_iff, isLine_iff_label stop, ← same]
  cases label : Label.ofTokens (tokenize ctx.line text) with
  | absent =>
    obtain ⟨inText, rest⟩ := ofText_place ctx.line text (Nat.zero_le _)
    rw [checkLine_of_bodyStart? (congrArg Label.bodyStart? label)]
    simpa using inText.statements_eq_ok_iff rest
  | present =>
    have present := same ▸ label
    -- the statements are read from behind the label, which leaves the count as it is
    obtain ⟨name, colon, us, split, -⟩ := exists_label_of_present stop present
    have within : 2 ≤ (contents ctx.line text).length := by
      rw [split]
      exact Nat.le_add_left 2 us.length
    obtain ⟨inText, rest⟩ := ofText_place ctx.line text within
    rw [← loopsAfter_drop_label stop present,
      checkLine_of_bodyStart? (congrArg Label.bodyStart? label)]
    simpa using inText.statements_eq_ok_iff rest
  | misplaced =>
    have rejected : checkLine text ctx = .error .label := by
      rw [← Line.ofText_tokens] at label
      rw [checkLine, Line.check, label]
      rfl
    simp [rejected]

theorem judgeLine_eq_ok_iff :
    judgeLine text ctx = .ok ctx' ↔
      IsWellFormed (contents ctx.line text) ∧
        loopsAfter ctx.openLoops (contents ctx.line text) = some ctx'.openLoops ∧
          ctx'.line = ctx.line := by
  rw [← checkLine_eq_ok_iff, judgeLine]
  cases checkLine text ctx <;> simp [Except.mapError]

/-- A line that is not accepted rejects the program on this line. -/
theorem exists_fault_of_judgeLine (h : ∀ after, judgeLine text ctx ≠ .ok after) :
    ∃ fault, judgeLine text ctx = .error (.rejected ctx.line fault) := by
  rw [judgeLine] at h ⊢
  cases outcome : checkLine text ctx with
  | error fault => exact ⟨fault, rfl⟩
  | ok after => exact absurd (by rw [outcome]; rfl) (h after)

/-- Checking a line accepts just the lines that are well formed and close no loop
while none is open. The next line then starts with the loops opened less those
closed; any other line rejects the program on this line. -/
theorem judgeLine_exact (text : String) (ctx : Context) :
    ((∃ after, judgeLine text ctx = .ok after) ↔
      IsWellFormed (contents ctx.line text) ∧
        loopsAfter ctx.openLoops (contents ctx.line text) ≠ none) ∧
    (∀ after, judgeLine text ctx = .ok after →
      after = ⟨ctx.line, ctx.openLoops + countTag .whileWord (contents ctx.line text) -
        countTag .endwhileWord (contents ctx.line text)⟩) ∧
    ((∀ after, judgeLine text ctx ≠ .ok after) →
      ∃ fault, judgeLine text ctx = .error (.rejected ctx.line fault)) := by
  refine ⟨?_, ?_, exists_fault_of_judgeLine⟩
  · simp only [judgeLine_eq_ok_iff]
    constructor
    · rintro ⟨after, form, count, -⟩
      exact ⟨form, by rw [count]; exact Option.some_ne_none _⟩
    · rintro ⟨form, counted⟩
      obtain ⟨loops, count⟩ := Option.ne_none_iff_exists'.mp counted
      exact ⟨⟨ctx.line, loops⟩, form, count, rfl⟩
  · intro after accepted
    obtain ⟨-, count, line⟩ := judgeLine_eq_ok_iff.mp accepted
    have loops := eq_of_loopsAfter_eq_some count
    rw [loopBalance, ← Int.add_sub_assoc] at loops
    rw [← loops, ← line]

end LineBasic
