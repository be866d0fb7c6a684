import LineBasic.Proofs.Grammar.Unambiguity

/-!
# LL(1) grammars are not left recursive

A nonterminal that derives a form beginning with itself can be read in two ways: as what it
derives at once, or as that with something behind it. Both begin with the same input. In an LL(1)
grammar the next symbol settles every choice, so the second reading would have to be the first,
although going round has put more nodes into its parse tree.

The symbols that the nonterminal has to pass before it comes to itself again may all vanish. Which
production gives it away, and at which nonterminal, plays no part in the comparison of the trees.

## Main definitions

* `Grammar.IsReduced`: whether every nonterminal is of use.
* `Grammar.IsLeftRecursive`: whether a nonterminal derives a form that begins with itself.

## Main results

* `exists_forest_of_transGen`: undoing steps of a derivation adds nodes.
* `not_isLeftRecursive`: no nonterminal of a reduced LL(1) grammar is left recursive.
-/

namespace LineBasic.Grammar

variable {g : Grammar} {start n s : Symbol} {u v w : List Symbol}

/-- Whether every nonterminal is of use: it stands in a form that the start symbol derives, and
it derives a sequence of terminals. A nonterminal that is of no use can be left recursive without
a conflict. -/
structure IsReduced (g : Grammar) (start : Symbol) : Prop where
  reachable : ∀ s, g.isNonterminal s = true →
    ∃ before after, g.Derives [start] (before ++ s :: after)
  productive : ∀ s, g.isNonterminal s = true →
    ∃ w, (∀ t ∈ w, g.IsTerminal t) ∧ g.Derives [s] w

/-- Whether a symbol derives, in one step or more, a form that begins with itself. -/
def IsLeftRecursive (g : Grammar) (s : Symbol) : Prop :=
  ∃ rest, Relation.TransGen g.Rewrites [s] (s :: rest)

theorem IsLeftRecursive.isNonterminal (h : g.IsLeftRecursive s) : g.isNonterminal s = true := by
  obtain ⟨rest, cycle⟩ := h
  obtain ⟨form, step, -⟩ := Relation.TransGen.head'_iff.mp cycle
  obtain ⟨t, member, known⟩ := step.exists_isNonterminal
  exact List.mem_singleton.mp member ▸ known

/-! ### Symbols of use -/

/-- What derives a form with a nonterminal in it is a nonterminal. -/
theorem isNonterminal_of_derives (known : g.isNonterminal s = true)
    (h : g.Derives [start] (u ++ s :: v)) : g.isNonterminal start = true := by
  rcases Relation.ReflTransGen.cases_head h with same | ⟨form, step, -⟩
  · have member : s ∈ [start] := same ▸ List.mem_append_right u List.mem_cons_self
    exact List.mem_singleton.mp member ▸ known
  · obtain ⟨t, member, nonterminal⟩ := step.exists_isNonterminal
    exact List.mem_singleton.mp member ▸ nonterminal

/-- In a reduced grammar every form derives a sequence of terminals. -/
theorem IsReduced.exists_terminals (reduced : g.IsReduced start) (full : epsilon ∉ u) :
    ∃ w, (∀ t ∈ w, g.IsTerminal t) ∧ g.Derives u w := by
  induction u with
  | nil => exact ⟨[], fun _ member => absurd member List.not_mem_nil, .refl []⟩
  | cons s u ih =>
    rw [List.mem_cons, not_or] at full
    obtain ⟨w, terminals, later⟩ := ih full.2
    cases known : g.isNonterminal s with
    | true =>
      obtain ⟨v, terminals', here⟩ := reduced.productive s known
      exact ⟨v ++ w, List.forall_mem_append.mpr ⟨terminals', terminals⟩, here.append later⟩
    | false =>
      have terminal : g.IsTerminal s := ⟨Ne.symm full.1, known⟩
      exact ⟨s :: w, List.forall_mem_cons.mpr ⟨terminal, terminals⟩,
        (Derives.refl [s]).append later⟩

/-- In a reduced grammar what stands behind a symbol derives a sequence of terminals. -/
theorem IsReduced.exists_terminals_behind (reduced : g.IsReduced start)
    (noEpsilon : g.isNonterminal epsilon = false) (known : g.isNonterminal n = true)
    (h : g.Derives [n] (u ++ s :: v)) : ∃ w, (∀ t ∈ w, g.IsTerminal t) ∧ g.Derives v w := by
  have full : epsilon ∉ [n] := by
    intro member
    rw [List.mem_singleton.mp member, known] at noEpsilon
    cases noEpsilon
  refine reduced.exists_terminals fun member => h.epsilon_not_mem full ?_
  exact List.mem_append_right u (List.mem_cons_of_mem s member)

/-! ### What follows a nonterminal -/

/-- Behind a nonterminal in a form that the start symbol derives, the next terminal follows it,
or the end marker if there is none. -/
theorem followed_of_derives (noEpsilon : g.isNonterminal epsilon = false)
    (hstart : g.isNonterminal start = true) (known : g.isNonterminal s = true)
    (terminals : ∀ t ∈ w, g.IsTerminal t) (h : g.Derives [start] (u ++ s :: w)) :
    g.Followed start [s] (lookahead id w) := by
  have follows : g.Follows start s (lookahead id w) := by
    cases w with
    | nil => exact .inr ⟨rfl, u, h⟩
    | cons t w => exact .inl ⟨terminals t List.mem_cons_self, start, u, w, hstart, h⟩
  refine (followedBy_singleton_iff known).mpr fun t same => ?_
  rw [SymbolSet.mem_singleton.mp same]
  exact follows.mem_get_follow noEpsilon hstart known

/-- In an LL(1) grammar a parse tree does not change when more of the input belongs to it, as long
as both ends of it may be followed by what comes next. -/
theorem eq_of_yield_eq_append {f f' : Forest Symbol} (noEpsilon : g.isNonterminal epsilon = false)
    (certified : g.isLL1 start = true) (tree : g.IsParseTree id s f)
    (tree' : g.IsParseTree id s f') (longer : f'.yield = f.yield ++ v)
    (followed : g.Followed start [s] (lookahead id (v ++ w)))
    (followed' : g.Followed start [s] (lookahead id w)) : f = f' := by
  have sameInput : f.yield ++ (v ++ w) = f'.yield ++ w := by rw [longer, List.append_assoc]
  exact (Forest.eq_of_yield_append_eq noEpsilon certified tree.2 tree'.2
    (tree.1.trans tree'.1.symm) sameInput (tree.1.symm ▸ followed) (tree'.1.symm ▸ followed')).1

/-! ### Going round -/

theorem exists_forest_of_derives (terminals : ∀ t ∈ w, g.IsTerminal t) (h : g.Derives u w) :
    ∃ f : Forest Symbol, f.Valid g id ∧ f.roots id = u ∧ f.yield = w := by
  rw [← List.map_id w] at h
  exact (@derives_iff_exists_forest Symbol id g u w terminals).mp h

/-- Undoing the steps of a derivation adds nodes above the trees of its last form. -/
theorem exists_forest_of_transGen {τ : Type} {label : τ → Symbol}
    (h : Relation.TransGen g.Rewrites u v) {f : Forest τ} (valid : f.Valid g label)
    (roots : f.roots label = v) :
    ∃ f' : Forest τ, f'.Valid g label ∧ f'.roots label = u ∧ f'.yield = f.yield ∧
      f.nodes < f'.nodes := by
  induction h using Relation.TransGen.head_induction_on with
  | single step =>
    obtain ⟨f', valid', roots', same, nodes⟩ := step.exists_forest valid roots
    exact ⟨f', valid', roots', same, nodes ▸ Nat.lt_succ_self _⟩
  | head step _ ih =>
    obtain ⟨f₁, valid₁, roots₁, same₁, more⟩ := ih
    obtain ⟨f₂, valid₂, roots₂, same₂, nodes⟩ := step.exists_forest valid₁ roots₁
    exact ⟨f₂, valid₂, roots₂, same₂.trans same₁, by omega⟩

/-- Of a left recursive nonterminal there is a tree over what it derives, and one with more nodes
over the same and what going round leaves behind it. -/
theorem exists_trees_of_transGen {rest : List Symbol}
    (cycle : Relation.TransGen g.Rewrites [s] (s :: rest)) (terminals : ∀ t ∈ v, g.IsTerminal t)
    (h : g.Derives [s] v) (terminals' : ∀ t ∈ w, g.IsTerminal t) (h' : g.Derives rest w) :
    ∃ f f' : Forest Symbol, g.IsParseTree id s f ∧ g.IsParseTree id s f' ∧
      f'.yield = f.yield ++ w ∧ f.nodes < f'.nodes := by
  obtain ⟨f, valid, roots, -⟩ := exists_forest_of_derives terminals h
  obtain ⟨e, validRest, rootsRest, yieldRest⟩ := exists_forest_of_derives terminals' h'
  have rootsBoth : (f.append e).roots id = s :: rest := by
    rw [Forest.roots_append, roots, rootsRest, List.singleton_append]
  obtain ⟨f', valid', roots', yield', more⟩ :=
    exists_forest_of_transGen cycle (Forest.valid_append.mpr ⟨valid, validRest⟩) rootsBoth
  rw [Forest.yield_append, yieldRest] at yield'
  rw [Forest.nodes_append] at more
  exact ⟨f, f', ⟨roots, valid⟩, ⟨roots', valid'⟩, yield', by omega⟩

/-- No nonterminal of a reduced LL(1) grammar derives, in one step or more, a form that begins
with itself. -/
theorem not_isLeftRecursive (noEpsilon : g.isNonterminal epsilon = false)
    (reduced : g.IsReduced start) (certified : g.isLL1 start = true) (s : Symbol) :
    ¬ g.IsLeftRecursive s := by
  intro recursive
  have known := recursive.isNonterminal
  obtain ⟨rest, cycle⟩ := recursive
  have round : g.Derives [s] (s :: rest) := cycle.to_reflTransGen
  obtain ⟨before, after, reached⟩ := reduced.reachable s known
  have hstart := isNonterminal_of_derives known reached
  -- terminals from the nonterminal, from what going round leaves behind it, and from what follows
  obtain ⟨xs, terminals, derives⟩ := reduced.productive s known
  obtain ⟨ys, terminals', derives'⟩ :=
    reduced.exists_terminals_behind noEpsilon known (u := []) round
  obtain ⟨zs, terminals'', derives''⟩ := reduced.exists_terminals_behind noEpsilon hstart reached
  have once : g.Derives [start] (before ++ s :: zs) :=
    reached.trans ((Derives.refl before).append ((Derives.refl [s]).append derives''))
  have twice : g.Derives [start] (before ++ s :: (ys ++ zs)) := by
    refine once.trans ((Derives.refl before).append ?_)
    exact (round.trans ((Derives.refl [s]).append derives')).append (.refl zs)
  have followed := followed_of_derives noEpsilon hstart known
    (List.forall_mem_append.mpr ⟨terminals', terminals''⟩) twice
  have followed' := followed_of_derives noEpsilon hstart known terminals'' once
  obtain ⟨f, f', tree, tree', longer, more⟩ :=
    exists_trees_of_transGen cycle terminals derives terminals' derives'
  -- one symbol decides, so the two trees are one
  obtain rfl := eq_of_yield_eq_append noEpsilon certified tree tree' longer followed followed'
  exact Nat.lt_irrefl _ more

/-- A grammar in which a nonterminal comes round again behind one that may vanish, but not before
a terminal. -/
def guarded : Grammar where
  rules := [("s", [["t", "a", "s"], ["b"]]), ("t", [["c"], ["ε"]])]
  distinct := by decide

theorem not_isLeftRecursive_guarded :
    guarded.isNonterminal epsilon = false ∧ guarded.IsReduced "s" ∧
      guarded.isLL1 "s" = true ∧ ¬ guarded.IsLeftRecursive "s" := by
  have noEpsilon : guarded.isNonterminal epsilon = false := by decide
  have certified : guarded.isLL1 "s" = true := by decide +kernel
  have around : guarded.Derives ["s"] ["t", "a", "s"] :=
    derives_of_mem_productions (p := ["t", "a", "s"]) (by decide)
  have last : guarded.Derives ["s"] ["b"] := derives_of_mem_productions (p := ["b"]) (by decide)
  have filled : guarded.Derives ["t"] ["c"] := derives_of_mem_productions (p := ["c"]) (by decide)
  have cases_of (s : Symbol) (known : guarded.isNonterminal s = true) : s = "s" ∨ s = "t" := by
    have listed : s ∈ ["s", "t"] := isNonterminal_iff.mp known
    simpa using listed
  have reduced : guarded.IsReduced "s" := by
    constructor
    · intro s known
      rcases cases_of s known with rfl | rfl
      · exact ⟨[], [], .refl _⟩
      · exact ⟨[], ["a", "s"], around⟩
    · intro s known
      rcases cases_of s known with rfl | rfl
      · exact ⟨["b"], by decide, last⟩
      · exact ⟨["c"], by decide, filled⟩
  exact ⟨noEpsilon, reduced, certified, not_isLeftRecursive noEpsilon reduced certified "s"⟩

end LineBasic.Grammar
