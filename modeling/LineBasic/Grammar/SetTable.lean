import LineBasic.Grammar.SymbolSet

/-!
# Tables of sets

The sets of a grammar are found by filling a table that starts out empty. What
has to be in a set depends on the other sets, so the requirements are met one
after another, again and again, until a whole pass over them adds nothing.

## Main definitions

* `Requirement`: what one set has to hold, given the sets found so far.
* `SetTable.meetAll`: one pass over a list of requirements.
* `saturate`: passes until one of them adds nothing.
-/

namespace LineBasic

/-- One set of symbols for each of several symbols. -/
abbrev SetTable := List (Symbol × SymbolSet)

namespace SetTable

/-- The symbols that have a set. -/
def keys (table : SetTable) : List Symbol :=
  table.map Prod.fst

/-- The set of a symbol, empty if the table has none. -/
def get (table : SetTable) (s : Symbol) : SymbolSet :=
  (table.lookup s).getD ∅

/-- Add symbols to the set of a symbol. Nothing happens if the table has no set
for it. -/
def add (table : SetTable) (s : Symbol) (more : SymbolSet) : SetTable :=
  table.map fun entry => if entry.1 = s then (entry.1, entry.2 ∪ more) else entry

end SetTable

/-- What the set of one symbol has to hold, given the sets found so far. -/
structure Requirement where
  owner : Symbol
  members : SetTable → SymbolSet

/-- Add what a requirement asks for. -/
def Requirement.meet (r : Requirement) (table : SetTable) : SetTable :=
  table.add r.owner (r.members table)

/-- Meet requirements one after another. Each is read in the table as the ones
before it leave it. -/
def SetTable.meetAll (requirements : List Requirement) (table : SetTable) : SetTable :=
  requirements.foldl (fun table r => r.meet table) table

/-- Pass over requirements again and again until a pass adds nothing, at most a
given number of times. -/
def saturate (requirements : List Requirement) : Nat → SetTable → SetTable
  | 0, table => table
  | passes + 1, table =>
    let filled := table.meetAll requirements
    -- no later pass adds what this one has not added
    if filled = table then table else saturate requirements passes filled

end LineBasic
