import LineBasic.Cursor.Basic
import LineBasic.Token.Sequence

/-!
# Lines

A line is a sequence of tokens that is not empty. The tokens of a text always
form one, since they close with an end-of-line token.
-/

namespace LineBasic

/-- The tokens of a line. -/
structure Line where
  tokens : List Token
  nonempty : tokens ≠ []

/-- The refusal to make a line of no tokens. -/
structure NoTokens where
  deriving DecidableEq, Repr

/-- The refusal in words. -/
def NoTokens.message (_ : NoTokens) : String :=
  "tuple index out of range"

theorem Token.sequence_ne_nil (p : Position) (cs : List Char) : Token.sequence p cs ≠ [] := by
  fun_induction Token.sequence p cs with
  | case1 => simp
  | case2 _ _ _ _ ih => exact ih
  | case3 => simp

theorem tokenize_ne_nil (number : Int) (text : String) : tokenize number text ≠ [] :=
  Token.sequence_ne_nil _ _

namespace Line

/-- The line that tokens form. -/
def ofTokens (tokens : List Token) : Except NoTokens Line :=
  if h : tokens = [] then .error ⟨⟩ else .ok ⟨tokens, h⟩

/-- The line of a text with a given number. -/
def ofText (number : Int) (text : String) : Line :=
  ⟨tokenize number text, tokenize_ne_nil number text⟩

/-- The place in a line with a given index. -/
def place (line : Line) (index : Nat) : Cursor :=
  -- past the end the cursor goes on showing the last token
  ⟨index, line.tokens.drop index, line.tokens.getLast line.nonempty⟩

end Line

end LineBasic
