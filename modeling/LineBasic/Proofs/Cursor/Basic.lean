import LineBasic.Cursor.Basic
import LineBasic.Proofs.Token.Spelling

/-!
# Moving over the tokens of a text

A reading that succeeds has moved its cursor over some tokens. In the tokens of a
text there is always one to move over unless the cursor has come to the end of the
line, and two tokens make up a signed number just when they are a sign and a
number and the second begins in the column after the first.

## Main definitions

* `Token.Touches`: whether a token begins in the column after another.
* `Cursor.Passes`: whether two cursors have given tokens between them.
* `Cursor.OfText`: whether a cursor is in the tokens of a text.

## Main results

* `Cursor.OfText.passes_next`: before the end of the line there is a token to move over.
* `Cursor.OfText.atSignedNumber_iff`: what makes up a signed number.
-/

namespace LineBasic

/-- Whether a token begins in the column after the one in which another begins. -/
def Token.Touches (s t : Token) : Prop :=
  t.position.column = s.position.column + 1

namespace Cursor

/-- Whether given tokens lie between two cursors of one line. -/
structure Passes (c : Cursor) (ts : List Token) (d : Cursor) : Prop where
  rest : c.rest = ts ++ d.rest
  index : d.index = c.index + ts.length
  last : d.last = c.last

namespace Passes

variable {c d e : Cursor} {t : Token} {ts us : List Token}

theorem refl (c : Cursor) : c.Passes [] c :=
  ⟨rfl, rfl, rfl⟩

theorem trans (h : c.Passes ts d) (h' : d.Passes us e) : c.Passes (ts ++ us) e where
  rest := by rw [h.rest, h'.rest, List.append_assoc]
  index := by rw [h'.index, h.index, List.length_append, Nat.add_assoc]
  last := h'.last.trans h.last

/-- Tokens that lie between two cursors lead from the first only to the second. -/
theorem unique (h : c.Passes ts d) (h' : c.Passes ts e) : d = e := by
  have rest := List.append_cancel_left (h.rest.symm.trans h'.rest)
  have index := h.index.trans h'.index.symm
  have last := h.last.trans h'.last.symm
  cases d
  cases e
  exact Cursor.mk.injEq .. ▸ ⟨index, rest, last⟩

/-- Between two cursors there is one at every token. -/
theorem exists_between (h : c.Passes (ts ++ us) e) : ∃ d, c.Passes ts d ∧ d.Passes us e := by
  refine ⟨⟨c.index + ts.length, us ++ e.rest, c.last⟩, ⟨?_, rfl, rfl⟩, ⟨rfl, ?_, h.last⟩⟩
  · rw [h.rest, List.append_assoc]
  · rw [h.index, List.length_append, Nat.add_assoc]

theorem token_eq (h : c.Passes (t :: ts) e) : c.token = t := by
  rw [token, h.rest]
  rfl

theorem tag_eq (h : c.Passes (t :: ts) e) : c.tag = t.tag :=
  congrArg Token.tag h.token_eq

theorem not_isPastEnd (h : c.Passes (t :: ts) e) : ¬ c.isPastEnd = true := by
  rw [isPastEnd, h.rest]
  exact Bool.false_ne_true

theorem tail (h : c.Passes (t :: ts) e) : c.next.Passes ts e where
  rest := by rw [next, h.rest]; rfl
  index := by simp only [h.index, next, List.length_cons]; omega
  last := h.last

theorem cons (h : c.Passes [t] d) (h' : d.Passes ts e) : c.Passes (t :: ts) e :=
  h.trans h'

theorem eq_of_nil (h : c.Passes [] d) : c = d :=
  (refl c).unique h

end Passes

/-- Whether a cursor is in the tokens of a text, or has left them behind. -/
structure OfText (c : Cursor) : Prop where
  last : ∃ p, c.last = Token.endOfLine p
  rest : c.rest = [] ∨
    ∃ ts, c.rest = ts ++ [c.last] ∧ ∀ t ∈ ts, Spelling t.tag t.lexeme.toList

namespace OfText

variable {c d : Cursor} {ts : List Token}

theorem next (h : c.OfText) : c.next.OfText where
  last := h.last
  rest := by
    rcases h.rest with empty | ⟨ts, same, spelled⟩
    · exact .inl (congrArg List.tail empty)
    · cases ts with
      | nil => exact .inl (congrArg List.tail same)
      | cons t ts =>
        exact .inr ⟨ts, congrArg List.tail same, (List.forall_mem_cons.mp spelled).2⟩

theorem of_passes (h : c.OfText) (passes : c.Passes ts d) : d.OfText := by
  induction ts generalizing c with
  | nil => exact passes.eq_of_nil ▸ h
  | cons t ts ih => exact ih h.next passes.tail

/-- At the end of the line at most the token that ends it is left. -/
theorem rest_of_endOfLine (h : c.OfText) (stop : c.tag = .endOfLine) :
    c.rest = [] ∨ c.rest = [c.last] := by
  rcases h.rest with empty | ⟨ts, same, spelled⟩
  · exact .inl empty
  · cases ts with
    | nil => exact .inr same
    | cons t ts =>
      have here : c.token = t := by rw [token, same]; rfl
      have spelling := (List.forall_mem_cons.mp spelled).1
      exact absurd (here ▸ stop) spelling.tag_ne_endOfLine

/-- Before the end of the line there is a token to move over, and it is spelled as
its tag says. -/
theorem exists_token (h : c.OfText) (more : c.tag ≠ .endOfLine) :
    c.Passes [c.token] c.next ∧ Spelling c.tag c.token.lexeme.toList := by
  obtain ⟨p, last⟩ := h.last
  have lastTag : c.last.tag = .endOfLine := by rw [last]; rfl
  rcases h.rest with empty | ⟨ts, same, spelled⟩
  · -- behind all tokens the cursor shows the one that ends the line
    rw [tag, token, empty] at more
    exact absurd lastTag more
  · cases ts with
    | nil =>
      rw [tag, token, same] at more
      exact absurd lastTag more
    | cons t ts =>
      have here : c.token = t := by rw [token, same]; rfl
      have there : c.next.rest = ts ++ [c.last] := by rw [Cursor.next, same]; rfl
      rw [tag, here]
      exact ⟨⟨by rw [same, there]; rfl, rfl, rfl⟩, (List.forall_mem_cons.mp spelled).1⟩

/-- Before the end of the line there is a token to move over. -/
theorem passes_next (h : c.OfText) (more : c.tag ≠ .endOfLine) : c.Passes [c.token] c.next :=
  (h.exists_token more).1

/-- At the end of the line there are no characters. -/
theorem lexeme_of_endOfLine (h : c.OfText) (stop : c.tag = .endOfLine) :
    c.token.lexeme = "" ∧ c.next.tag = .endOfLine := by
  obtain ⟨p, last⟩ := h.last
  -- a step leaves the cursor at the end of the line, if it moves it at all
  have here : c.token = Token.endOfLine p ∧ c.next.token = Token.endOfLine p := by
    rcases h.rest_of_endOfLine stop with rest | rest <;> simp [token, Cursor.next, rest, last]
  rw [here.1, tag, here.2]
  exact ⟨rfl, rfl⟩

theorem isDigits_iff (h : c.OfText) :
    Lexeme.isDigits c.token.lexeme.toList = true ↔ c.tag = .number := by
  by_cases stop : c.tag = .endOfLine
  · rw [(h.lexeme_of_endOfLine stop).1, stop]
    decide
  · exact (h.exists_token stop).2.isDigits_iff

/-- A token that is no number makes up a number with the next one just when it is a
sign and the next one is a number. -/
theorem isNumber_iff (h : c.OfText) (notNumber : c.tag ≠ .number) :
    Lexeme.isNumber (c.token.lexeme.toList ++ c.next.token.lexeme.toList) = true ↔
      (c.tag = .plus ∨ c.tag = .minus) ∧ c.next.tag = .number := by
  by_cases stop : c.tag = .endOfLine
  · obtain ⟨empty, stop'⟩ := h.lexeme_of_endOfLine stop
    rw [empty, (h.next.lexeme_of_endOfLine stop').1, stop, stop']
    decide
  · rw [(h.exists_token stop).2.isNumber_append_iff notNumber, h.next.isDigits_iff]

theorem length_lexeme_of_isSign (h : c.OfText) (sign : c.tag = .plus ∨ c.tag = .minus) :
    c.token.lexeme.length = 1 := by
  have more : c.tag ≠ .endOfLine := by rcases sign with sign | sign <;> simp [sign]
  have spelling := (h.exists_token more).2
  rw [← String.length_toList]
  rcases sign with sign | sign
  · rw [spelling.eq_of_isSign.1 sign]
    rfl
  · rw [spelling.eq_of_isSign.2 sign]
    rfl

/-- A signed number is a sign and a number that touches it. -/
theorem atSignedNumber_iff (h : c.OfText) (notNumber : c.tag ≠ .number) :
    c.atSignedNumber = true ↔
      (c.tag = .plus ∨ c.tag = .minus) ∧ c.next.tag = .number ∧ c.token.Touches c.next.token := by
  rw [atSignedNumber, Bool.and_eq_true, decide_eq_true_eq, h.isNumber_iff notNumber]
  constructor
  · rintro ⟨adjacent, sign, number⟩
    rw [h.length_lexeme_of_isSign sign] at adjacent
    exact ⟨sign, number, adjacent.symm⟩
  · rintro ⟨sign, number, touch⟩
    rw [h.length_lexeme_of_isSign sign]
    exact ⟨touch.symm, sign, number⟩

end OfText

end Cursor

end LineBasic
