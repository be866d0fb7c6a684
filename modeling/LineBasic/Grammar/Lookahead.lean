import LineBasic.Grammar.Follow
import LineBasic.Grammar.OfLines
import LineBasic.Token.Vocabulary

/-!
# The symbols that decide how a line is read

Reading a line looks at one tag to decide whether an expression begins, goes on
or is compared, and whether a statement is over. These decisions are read off the
grammar of a line.

## Main results

* `Tag.isArithmetic_iff`, `Tag.isRelational_iff`, `Tag.startsExpression_iff`,
  `Tag.endsStatement_iff`: the decisions about tags are those of the grammar.
-/

namespace LineBasic

namespace Grammar

/-- The terminals that an expression can begin with. -/
def expressionStart : SymbolSet := ofLines.first.get "expr"

/-- The arithmetic operators. -/
def arithmeticOperators : SymbolSet := ofLines.first.get "arith"

/-- The operators that compare. -/
def relationalOperators : SymbolSet := ofLines.first.get "relop"

/-- The terminals that can follow a statement. -/
def statementEnd : SymbolSet := (ofLines.follow lineSymbol).get "stmt"

/-- What the four sets hold. They are evaluated together because all are read off the
same pair of tables. -/
private theorem toList_sets :
    expressionStart.toList = ["IDENT", "LPAREN", "NUMBER", "PLUS", "SUB"] ∧
      arithmeticOperators.toList = ["DIV", "MULT", "PLUS", "SUB"] ∧
      relationalOperators.toList = ["EQUALS", "GE", "GT", "LE", "LT", "NE"] ∧
      statementEnd.toList = ["EOL", "SEMI"] := by
  decide +kernel

theorem toList_expressionStart :
    expressionStart.toList = ["IDENT", "LPAREN", "NUMBER", "PLUS", "SUB"] :=
  toList_sets.1

theorem toList_arithmeticOperators :
    arithmeticOperators.toList = ["DIV", "MULT", "PLUS", "SUB"] :=
  toList_sets.2.1

theorem toList_relationalOperators :
    relationalOperators.toList = ["EQUALS", "GE", "GT", "LE", "LT", "NE"] :=
  toList_sets.2.2.1

theorem toList_statementEnd : statementEnd.toList = ["EOL", "SEMI"] :=
  toList_sets.2.2.2

end Grammar

namespace Tag

/-- A decision about tags agrees with a set of names if it does so on the tags of
the language, is negative on all others, and the set names tags of the language
only. -/
private theorem decision_iff {decision : Tag → Bool} {set : SymbolSet} {names : List String}
    (toList_set : set.toList = names)
    (onReserved : ∀ t ∈ reserved, decision t = names.contains t.name)
    (onForeign : ∀ name isForeign, decision (foreign name isForeign) = false)
    (names_reserved : ∀ name ∈ names, name ∈ reservedNames) (t : Tag) :
    decision t = true ↔ t.name ∈ set := by
  rw [← SymbolSet.mem_toList, toList_set]
  by_cases member : t ∈ reserved
  · rw [onReserved t member, List.contains_iff_mem]
  · cases t with
    | foreign name isForeign =>
      rw [onForeign]
      exact ⟨(nomatch ·), fun h => absurd (names_reserved name h) isForeign⟩
    | _ => exact absurd (by decide) member

theorem startsExpression_iff (t : Tag) :
    t.startsExpression = true ↔ t.name ∈ Grammar.expressionStart :=
  decision_iff Grammar.toList_expressionStart (by decide) (fun _ _ => rfl) (by decide) t

theorem isArithmetic_iff (t : Tag) :
    t.isArithmetic = true ↔ t.name ∈ Grammar.arithmeticOperators :=
  decision_iff Grammar.toList_arithmeticOperators (by decide) (fun _ _ => rfl) (by decide) t

theorem isRelational_iff (t : Tag) :
    t.isRelational = true ↔ t.name ∈ Grammar.relationalOperators :=
  decision_iff Grammar.toList_relationalOperators (by decide) (fun _ _ => rfl) (by decide) t

theorem endsStatement_iff (t : Tag) :
    t.endsStatement = true ↔ t.name ∈ Grammar.statementEnd :=
  decision_iff Grammar.toList_statementEnd (by decide) (fun _ _ => rfl) (by decide) t

end Tag

end LineBasic
