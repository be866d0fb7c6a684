/-!
# Token tags

A tag says what a token is. The language reserves a name for each of its tags.
Tokens made by hand may carry any name for a tag; a name that is not reserved is
kept as it is, so that every name stands for exactly one tag.

## Main results

* `Tag.ofName_name`, `Tag.name_ofName`: tags and their names determine each other.
-/

namespace LineBasic

/-- The names of the tags of the language. -/
def reservedNames : List String :=
  ["IDENT", "NUMBER", "LITERAL", "IF", "WHILE", "ENDWHILE", "READ", "WRITE", "GOTO", "GOSUB",
    "RETURN", "BREAK", "END", "PLUS", "SUB", "MULT", "DIV", "LT", "GT", "LE", "GE", "NE",
    "EQUALS", "LPAREN", "RPAREN", "SEMI", "COLON", "ERROR", "EOL"]

/-- What a token is. -/
inductive Tag
  | identifier
  | number
  | literal
  | ifWord
  | whileWord
  | endwhileWord
  | readWord
  | writeWord
  | gotoWord
  | gosubWord
  | returnWord
  | breakWord
  | endWord
  | plus
  | minus
  | times
  | divide
  | less
  | greater
  | lessEqual
  | greaterEqual
  | notEqual
  | equals
  | leftParen
  | rightParen
  | semicolon
  | colon
  /-- A character that begins no word, number or symbol. -/
  | unknown
  | endOfLine
  /-- A tag outside the language. -/
  | foreign (name : String) (isForeign : name ∉ reservedNames)
  deriving DecidableEq

namespace Tag

/-- The name a tag is shown and compared by. -/
def name : Tag → String
  | identifier => "IDENT"
  | number => "NUMBER"
  | literal => "LITERAL"
  | ifWord => "IF"
  | whileWord => "WHILE"
  | endwhileWord => "ENDWHILE"
  | readWord => "READ"
  | writeWord => "WRITE"
  | gotoWord => "GOTO"
  | gosubWord => "GOSUB"
  | returnWord => "RETURN"
  | breakWord => "BREAK"
  | endWord => "END"
  | plus => "PLUS"
  | minus => "SUB"
  | times => "MULT"
  | divide => "DIV"
  | less => "LT"
  | greater => "GT"
  | lessEqual => "LE"
  | greaterEqual => "GE"
  | notEqual => "NE"
  | equals => "EQUALS"
  | leftParen => "LPAREN"
  | rightParen => "RPAREN"
  | semicolon => "SEMI"
  | colon => "COLON"
  | unknown => "ERROR"
  | endOfLine => "EOL"
  | foreign name _ => name

/-- The tags of the language, in the order of `reservedNames`. -/
def reserved : List Tag :=
  [identifier, number, literal, ifWord, whileWord, endwhileWord, readWord, writeWord, gotoWord,
    gosubWord, returnWord, breakWord, endWord, plus, minus, times, divide, less, greater,
    lessEqual, greaterEqual, notEqual, equals, leftParen, rightParen, semicolon, colon, unknown,
    endOfLine]

theorem map_name_reserved : reserved.map name = reservedNames := rfl

/-- The tag of a name. -/
def ofName (s : String) : Tag :=
  if h : s ∈ reservedNames then (reserved.find? fun t => t.name == s).getD unknown
  else foreign s h

theorem name_ofName (s : String) : (ofName s).name = s := by
  unfold ofName
  split
  case isFalse => rfl
  case isTrue h =>
    rw [← map_name_reserved, List.mem_map] at h
    obtain ⟨t, member, rfl⟩ := h
    cases found : reserved.find? fun u => u.name == t.name with
    | none => exact absurd (List.find?_eq_none.mp found t member) (by simp)
    | some u => simpa using List.find?_some found

theorem ofName_name (t : Tag) : ofName t.name = t := by
  cases t with
  | foreign name isForeign => exact dif_neg isForeign
  | _ => decide

theorem name_injective {s t : Tag} (h : s.name = t.name) : s = t := by
  rw [← ofName_name s, h, ofName_name]

end Tag

end LineBasic
