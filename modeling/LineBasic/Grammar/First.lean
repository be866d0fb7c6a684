import LineBasic.Grammar.Basic

/-!
# FIRST sets

FIRST of a symbol holds the terminals that what it derives can begin with, and
`ε` if it derives the empty sequence. The sets are found by starting with empty
ones and adding what the productions yield until nothing is missing.

## Main definitions

* `firstOfSequence`: FIRST of a sequence, given FIRST of its symbols.
* `Grammar.first`: FIRST of every nonterminal.
-/

namespace LineBasic

/-- FIRST of a symbol, given the sets of the nonterminals: a symbol without a set
is a terminal and begins with itself. -/
def firstOfSymbol (first : SetTable) (s : Symbol) : SymbolSet :=
  (first.lookup s).getD (.singleton s)

/-- FIRST of a sequence of symbols. A later symbol counts only if all symbols
before it can be empty, and the sequence can be empty if all of them can. -/
def firstOfSequence (first : SetTable) : List Symbol → SymbolSet
  | [] => .singleton epsilon
  | s :: rest =>
    let here := firstOfSymbol first s
    if epsilon ∈ here then here.erase epsilon ∪ firstOfSequence first rest else here

namespace Grammar

/-- FIRST of a nonterminal holds FIRST of each of its productions. -/
def firstRequirements (g : Grammar) : List Requirement :=
  g.entries.map fun entry => ⟨entry.1, fun first => firstOfSequence first entry.2⟩

/-- FIRST of every nonterminal. -/
def first (g : Grammar) : SetTable :=
  saturate g.firstRequirements (g.capacity + 1) g.emptyTable

end Grammar

end LineBasic
