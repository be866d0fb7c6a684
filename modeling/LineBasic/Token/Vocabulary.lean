import LineBasic.Token.Tag

/-!
# The vocabulary of the language

The words and symbols with a meaning of their own, each with its tag, and the
categories into which tags fall.

## Main results

* `Tag.kind_eq`: the categories are those of the tables of tags.
-/

namespace LineBasic

namespace Vocabulary

/-- The words with a meaning of their own: the keywords in lower case and the
two truth values. -/
def words : List (String × Tag) :=
  [("if", .ifWord), ("while", .whileWord), ("endwhile", .endwhileWord), ("read", .readWord),
    ("write", .writeWord), ("goto", .gotoWord), ("gosub", .gosubWord), ("return", .returnWord),
    ("break", .breakWord), ("end", .endWord), ("true", .literal), ("false", .literal)]

/-- The symbols: operators, with `=` both comparing and assigning, then
punctuation. None is longer than two characters. -/
def symbols : List (String × Tag) :=
  [("+", .plus), ("-", .minus), ("*", .times), ("/", .divide), ("<", .less), (">", .greater),
    ("<=", .lessEqual), (">=", .greaterEqual), ("<>", .notEqual), ("=", .equals),
    ("(", .leftParen), (")", .rightParen), (";", .semicolon), (":", .colon)]

/-- The whole vocabulary. -/
def entries : List (String × Tag) :=
  words ++ symbols

/-- The characters of which symbols consist. -/
def symbolCharacters : List Char :=
  ['+', '-', '*', '/', '<', '>', '=', '(', ')', ';', ':']

/-- The line that ends a program. -/
def sentinel : String := "$$"

/-- The tag of a word of letters and digits: its own if the vocabulary holds it,
otherwise that of an identifier. -/
def wordTag (cs : List Char) : Tag :=
  (words.lookup (String.ofList cs)).getD .identifier

/-- The tag of a symbol, if there is such a symbol. -/
def symbolTag? (cs : List Char) : Option Tag :=
  symbols.lookup (String.ofList cs)

end Vocabulary

/-- The category of a token. -/
inductive Kind
  | identifier
  | number
  | keyword
  | operator
  | punctuation
  | endOfLine
  | unknown
  deriving DecidableEq, Repr

namespace Kind

/-- The name of a category. -/
def name : Kind → String
  | identifier => "identifier"
  | number => "number"
  | keyword => "keyword"
  | operator => "operator"
  | punctuation => "punctuation"
  | endOfLine => "eol"
  | unknown => "error"

end Kind

namespace Tag

/-- The category of a tag. The truth values count as keywords, and a foreign tag
falls into the same category as an unknown character. -/
def kind : Tag → Kind
  | identifier => .identifier
  | number => .number
  | literal | ifWord | whileWord | endwhileWord | readWord | writeWord | gotoWord | gosubWord
  | returnWord | breakWord | endWord => .keyword
  | plus | minus | times | divide | less | greater | lessEqual | greaterEqual | notEqual
  | equals => .operator
  | leftParen | rightParen | semicolon | colon => .punctuation
  | endOfLine => .endOfLine
  | unknown | foreign _ _ => .unknown

/-- The keywords that begin a statement or close a loop. -/
def keywords : List Tag :=
  [ifWord, whileWord, endwhileWord, readWord, writeWord, gotoWord, gosubWord, returnWord,
    breakWord, endWord]

/-- The tags of the truth values. -/
def literals : List Tag := [literal]

/-- The tags of the operators. -/
def operators : List Tag :=
  [plus, minus, times, divide, less, greater, lessEqual, greaterEqual, notEqual, equals]

/-- The tags of the punctuation. -/
def punctuations : List Tag := [leftParen, rightParen, semicolon, colon]

/-- The category of a tag is that of the table which holds it. Only names, numbers and the end
of a line have a category without being in a table. -/
theorem kind_eq (t : Tag) :
    t.kind =
      if t = identifier then .identifier
      else if t = number then .number
      else if t ∈ keywords ∨ t ∈ literals then .keyword
      else if t ∈ operators then .operator
      else if t ∈ punctuations then .punctuation
      else if t = endOfLine then .endOfLine
      else .unknown := by
  cases t <;> rfl

/-- Whether the tag is an arithmetic operator. -/
def isArithmetic : Tag → Bool
  | plus | minus | times | divide => true
  | _ => false

/-- Whether the tag compares two expressions. -/
def isRelational : Tag → Bool
  | less | greater | lessEqual | greaterEqual | notEqual | equals => true
  | _ => false

/-- Whether an expression can begin with the tag. -/
def startsExpression : Tag → Bool
  | identifier | number | plus | minus | leftParen => true
  | _ => false

/-- Whether a statement is over when the tag comes next. -/
def endsStatement : Tag → Bool
  | semicolon | endOfLine => true
  | _ => false

end Tag

end LineBasic
