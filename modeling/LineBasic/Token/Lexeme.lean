/-!
# Words and numbers

The texts that are identifiers, numbers and digits. Only ASCII letters and
digits count.
-/

namespace LineBasic.Lexeme

/-- A letter followed by letters and digits. -/
def isIdentifier : List Char → Bool
  | [] => false
  | c :: cs => c.isAlpha && cs.all Char.isAlphanum

/-- One or more digits. -/
def isDigits (cs : List Char) : Bool :=
  !cs.isEmpty && cs.all Char.isDigit

/-- The characters after a leading plus or minus, if there is one. -/
def dropSign : List Char → List Char
  | '+' :: cs => cs
  | '-' :: cs => cs
  | cs => cs

/-- One or more digits, perhaps after a sign. -/
def isNumber (cs : List Char) : Bool :=
  isDigits (dropSign cs)

/-- A single digit. -/
def isDigit : List Char → Bool
  | [c] => c.isDigit
  | _ => false

end LineBasic.Lexeme
