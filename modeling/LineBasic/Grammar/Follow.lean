import LineBasic.Grammar.First

/-!
# FOLLOW sets

FOLLOW of a nonterminal holds the terminals that can come right after it in what
the start symbol or any other nonterminal derives; the whole input is followed
by the end marker. A start symbol has to be a nonterminal.

## Main definitions

* `startsOf`: what a sequence can begin with where something follows it.
* `Grammar.follow`: FOLLOW of every nonterminal.
-/

namespace LineBasic

/-- The terminals that a sequence can begin with, together with those that follow
it if the sequence can be empty. -/
def startsOf (first : SetTable) (following : SymbolSet) (symbols : List Symbol) : SymbolSet :=
  let begins := firstOfSequence first symbols
  if epsilon ∈ begins then begins.erase epsilon ∪ following else begins

/-- What a production of `s` asks of the sets of its symbols: each holds what can
begin the symbols after it, and what follows `s` if these can be empty. Only
nonterminals have sets to which this can be added. -/
def followRequirementsIn (first : SetTable) (s : Symbol) : Production → List Requirement
  | [] => []
  | t :: rest =>
    ⟨t, fun follow => startsOf first (follow.get s) rest⟩ :: followRequirementsIn first s rest

/-- The refusal to start from a symbol that is no nonterminal. -/
structure UnknownStart where
  start : Symbol
  deriving DecidableEq, Repr

namespace Grammar

/-- What all productions ask of the sets of their symbols, production by
production. -/
def followRequirements (g : Grammar) (first : SetTable) : List Requirement :=
  g.entries.flatMap fun entry => followRequirementsIn first entry.1 entry.2

/-- FOLLOW of every nonterminal, for a start symbol. The search begins with the
end marker after the start symbol. -/
def follow (g : Grammar) (start : Symbol) : SetTable :=
  let first := g.first
  saturate (g.followRequirements first) (g.capacity + 1)
    (g.emptyTable.add start (.singleton endMarker))

/-- A result that makes sense only for a start symbol that is a nonterminal. -/
def from? {α : Type} (g : Grammar) (start : Symbol) (result : Symbol → α) :
    Except UnknownStart α :=
  if g.isNonterminal start then .ok (result start) else .error ⟨start⟩

end Grammar

end LineBasic
