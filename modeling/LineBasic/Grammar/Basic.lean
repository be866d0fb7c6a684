import LineBasic.Grammar.SetTable

/-!
# Grammars

A grammar lists its nonterminals, each once and each with its productions. Every
other symbol that occurs is a terminal. The symbol `ε` stands for the empty
sequence wherever it is not itself a nonterminal.
-/

namespace LineBasic

/-- What a nonterminal may be replaced by. -/
abbrev Production := List Symbol

/-- The symbol that stands for the empty sequence. -/
def epsilon : Symbol := "ε"

/-- The terminal that follows the whole input. -/
def endMarker : Symbol := "EOL"

/-- A grammar: its nonterminals in order, each with its productions in order. -/
structure Grammar where
  rules : List (Symbol × List Production)
  distinct : (rules.map Prod.fst).Nodup
  deriving DecidableEq

namespace Grammar

/-- The nonterminals. -/
def nonterminals (g : Grammar) : List Symbol :=
  g.rules.map Prod.fst

/-- Whether a symbol is a nonterminal. -/
def isNonterminal (g : Grammar) (s : Symbol) : Bool :=
  g.nonterminals.contains s

/-- The productions of a symbol; a terminal has none. -/
def productions (g : Grammar) (s : Symbol) : List Production :=
  (g.rules.lookup s).getD []

/-- Every production together with its nonterminal, in the order of the grammar. -/
def entries (g : Grammar) : List (Symbol × Production) :=
  g.rules.flatMap fun rule => rule.2.map fun production => (rule.1, production)

/-- A table that gives every nonterminal the empty set. -/
def emptyTable (g : Grammar) : SetTable :=
  g.rules.map fun rule => (rule.1, ∅)

/-- The grammar without rules. -/
def empty : Grammar := ⟨[], .nil⟩

/-- Give a nonterminal its productions, in its place if it has some already and
behind all others if it has none. -/
def define (g : Grammar) (s : Symbol) (productions : List Production) : Grammar :=
  if h : s ∈ g.nonterminals then
    ⟨g.rules.map fun rule => if rule.1 = s then (s, productions) else rule, by
      have keys : (g.rules.map fun rule => if rule.1 = s then (s, productions) else rule).map
          Prod.fst = g.rules.map Prod.fst := by
        rw [List.map_map]
        refine List.map_congr_left fun rule _ => ?_
        simp only [Function.comp_apply]
        split <;> simp_all
      rw [keys]
      exact g.distinct⟩
  else
    ⟨g.rules ++ [(s, productions)], by
      rw [List.map_append, List.nodup_append]
      refine ⟨g.distinct, by simp, fun a ha b hb => ?_⟩
      rw [List.map_singleton, List.mem_singleton] at hb
      rintro rfl
      subst hb
      exact h ha⟩

/-- The grammar with given rules. Of several lists of productions for one
nonterminal the last counts. -/
def ofRules (rules : List (Symbol × List Production)) : Grammar :=
  rules.foldl (fun g rule => g.define rule.1 rule.2) empty

/-- Every occurrence of a symbol in a production. -/
def occurrences (g : Grammar) : List Symbol :=
  g.entries.flatMap Prod.snd

/-- How many times symbols can be added to sets of the grammar, one set for each
nonterminal. Besides the symbols that occur, a set can hold `ε` or the end
marker, never both. -/
def capacity (g : Grammar) : Nat :=
  g.rules.length * (g.occurrences.length + 1)

end Grammar

end LineBasic
