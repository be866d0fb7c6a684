import LineBasic.Grammar.Follow

/-!
# Choosing a production by one symbol

PREDICT of a production holds the terminals that call for it when its
nonterminal is to be read. If the sets of no two productions of a nonterminal
meet, one symbol of the input decides every choice, and the grammar is LL(1).

## Main definitions

* `Grammar.predict`: PREDICT of every production.
* `Grammar.conflicts`: the pairs of productions whose sets meet.
* `Grammar.isLL1`: whether there is no such pair.
-/

namespace LineBasic

/-- Two productions of a nonterminal that some terminals both call for. -/
structure Conflict where
  nonterminal : Symbol
  left : Production
  right : Production
  overlap : SymbolSet
  deriving DecidableEq

/-- The conflicts of one production with those listed after it. -/
def conflictsWith (s : Symbol) (row : Production × SymbolSet) (rows : List (Production × SymbolSet)) :
    List Conflict :=
  rows.filterMap fun other =>
    let overlap := row.2.inter other.2
    if overlap.isEmpty then none else some ⟨s, row.1, other.1, overlap⟩

/-- The conflicts among the productions of a nonterminal, in the order of the
productions. -/
def conflictsAmong (s : Symbol) : List (Production × SymbolSet) → List Conflict
  | [] => []
  | row :: rows => conflictsWith s row rows ++ conflictsAmong s rows

namespace Grammar

/-- PREDICT of every production, nonterminal by nonterminal. -/
def predict (g : Grammar) (start : Symbol) : List (Symbol × List (Production × SymbolSet)) :=
  let first := g.first
  let follow := g.follow start
  g.rules.map fun rule =>
    (rule.1, rule.2.map fun production =>
      (production, startsOf first (follow.get rule.1) production))

/-- All conflicts, in the order of the grammar. -/
def conflicts (g : Grammar) (start : Symbol) : List Conflict :=
  (g.predict start).flatMap fun entry => conflictsAmong entry.1 entry.2

/-- Whether one symbol of the input always decides which production to take. -/
def isLL1 (g : Grammar) (start : Symbol) : Bool :=
  (g.conflicts start).isEmpty

end Grammar

end LineBasic
