import LineBasic.Grammar.Basic

/-!
# The grammar of a line

The sentences of the grammar are the sequences of tag names that a line may
consist of. A sign that belongs to a number must touch its digits, which tag
names do not tell. Choices are factored so that one symbol decides each of them.
-/

namespace LineBasic

namespace Grammar

/-- The grammar of a line. -/
def ofLines : Grammar where
  rules :=
    [("line", [["IDENT", "after_ident"], ["keyword_stmt", "linetail"]]),
      ("after_ident", [["COLON", "stmt", "linetail"], ["EQUALS", "expr", "linetail"]]),
      ("stmt", [["IDENT", "EQUALS", "expr"], ["keyword_stmt"]]),
      ("keyword_stmt",
        [["IF", "boolean"], ["WHILE", "boolean"], ["ENDWHILE"], ["READ", "IDENT"],
          ["WRITE", "expr"], ["GOTO", "IDENT"], ["GOSUB", "IDENT"], ["RETURN"], ["BREAK"],
          ["END"]]),
      ("linetail", [["SEMI", "stmt", "linetail"], []]),
      ("expr", [["operand", "etail"]]),
      ("operand", [["IDENT"], ["NUMBER"], ["sign", "NUMBER"], ["LPAREN", "expr", "RPAREN"]]),
      ("sign", [["PLUS"], ["SUB"]]),
      ("etail", [["arith", "expr"], []]),
      ("arith", [["PLUS"], ["SUB"], ["MULT"], ["DIV"]]),
      ("boolean",
        [["LITERAL"], ["IDENT", "etail", "relop", "expr"], ["NUMBER", "etail", "relop", "expr"],
          ["sign", "NUMBER", "etail", "relop", "expr"], ["LPAREN", "pbool"]]),
      ("pbool", [["expr", "pbtail"]]),
      ("pbtail", [["relop", "expr", "RPAREN"], ["RPAREN", "etail", "relop", "expr"]]),
      ("relop", [["LT"], ["GT"], ["LE"], ["GE"], ["NE"], ["EQUALS"]])]
  distinct := by decide

/-- The symbol that stands for a whole line. -/
def lineSymbol : Symbol := "line"

end Grammar

end LineBasic
