import LineBasic.Proofs.Grammar.Saturation
import LineBasic.Grammar.Basic
import Mathlib.Logic.Relation

/-!
# Derivations

A grammar rewrites a form, which is a sequence of symbols, by putting one of its
productions in the place of a nonterminal. What a form can become in any number
of such steps it derives.

## Main definitions

* `Grammar.Rewrites`: one step of rewriting.
* `Grammar.Derives`: any number of steps.
-/

namespace LineBasic

/-- The symbols that a production puts in the place of its nonterminal: `ε` stands
for none. -/
def spelled (p : Production) : List Symbol :=
  p.filter (· ≠ epsilon)

@[simp] theorem spelled_nil : spelled [] = [] := rfl

theorem spelled_cons (s : Symbol) (p : Production) :
    spelled (s :: p) = if s = epsilon then spelled p else s :: spelled p := by
  rw [spelled, List.filter_cons]
  by_cases empty : s = epsilon <;> simp [empty, spelled]

theorem spelled_cons_of_ne {s : Symbol} (h : s ≠ epsilon) (p : Production) :
    spelled (s :: p) = s :: spelled p := by
  rw [spelled_cons, if_neg h]

@[simp] theorem spelled_epsilon_cons (p : Production) : spelled (epsilon :: p) = spelled p := by
  rw [spelled_cons, if_pos rfl]

theorem epsilon_not_mem_spelled (p : Production) : epsilon ∉ spelled p :=
  fun member => of_decide_eq_true (List.mem_filter.mp member).2 rfl

namespace Grammar

variable {g : Grammar} {s t : Symbol} {p : Production} {u v w x : List Symbol}

theorem isNonterminal_iff : g.isNonterminal s = true ↔ s ∈ g.nonterminals := by
  rw [isNonterminal, List.contains_iff_mem]

/-- The productions listed for a nonterminal are its productions. -/
theorem productions_eq_of_mem {rule : Symbol × List Production} (listed : rule ∈ g.rules) :
    g.productions rule.1 = rule.2 := by
  rw [productions, (lookup_eq_some_iff_mem g.distinct).mpr listed, Option.getD_some]

/-- A symbol that has a production is listed with its productions. -/
theorem mem_rules_of_mem_productions (h : p ∈ g.productions s) :
    (s, g.productions s) ∈ g.rules := by
  rw [productions] at h ⊢
  cases found : g.rules.lookup s with
  | none => rw [found] at h; exact absurd h List.not_mem_nil
  | some ps => exact (lookup_eq_some_iff_mem g.distinct).mp found

theorem isNonterminal_of_mem_productions (h : p ∈ g.productions s) :
    g.isNonterminal s = true :=
  isNonterminal_iff.mpr (List.mem_map.mpr ⟨_, mem_rules_of_mem_productions h, rfl⟩)

theorem mem_entries : (s, p) ∈ g.entries ↔ p ∈ g.productions s := by
  rw [entries, List.mem_flatMap]
  constructor
  · rintro ⟨rule, listed, member⟩
    obtain ⟨q, chosen, same⟩ := List.mem_map.mp member
    obtain ⟨rfl, rfl⟩ := Prod.mk.inj same
    rw [productions_eq_of_mem listed]
    exact chosen
  · intro h
    exact ⟨_, mem_rules_of_mem_productions h, List.mem_map.mpr ⟨p, h, rfl⟩⟩

theorem mem_occurrences (h : p ∈ g.productions s) (member : t ∈ p) : t ∈ g.occurrences :=
  List.mem_flatMap.mpr ⟨(s, p), mem_entries.mpr h, member⟩

/-- Put one production in the place of its nonterminal. -/
inductive Rewrites (g : Grammar) : List Symbol → List Symbol → Prop
  | replace {s : Symbol} {p : Production} (before after : List Symbol)
      (h : p ∈ g.productions s) :
      g.Rewrites (before ++ s :: after) (before ++ spelled p ++ after)

/-- What a form can become by rewriting it any number of times. -/
def Derives (g : Grammar) : List Symbol → List Symbol → Prop :=
  Relation.ReflTransGen g.Rewrites

theorem Rewrites.extend (h : g.Rewrites u v) (before after : List Symbol) :
    g.Rewrites (before ++ u ++ after) (before ++ v ++ after) := by
  obtain ⟨left, right, rule⟩ := h
  simpa only [List.append_assoc, List.cons_append] using
    Rewrites.replace (before ++ left) (right ++ after) rule

/-- Only forms in which a nonterminal stands can be rewritten. -/
theorem Rewrites.exists_isNonterminal (h : g.Rewrites u v) :
    ∃ s ∈ u, g.isNonterminal s = true := by
  obtain ⟨before, after, rule⟩ := h
  exact ⟨_, List.mem_append_right _ List.mem_cons_self, isNonterminal_of_mem_productions rule⟩

/-- No step of rewriting puts `ε` into a form. -/
theorem Rewrites.epsilon_not_mem (h : g.Rewrites u v) (full : epsilon ∉ u) : epsilon ∉ v := by
  obtain @⟨s, p, before, after, -⟩ := h
  simp only [List.mem_append, List.mem_cons, not_or] at full ⊢
  exact ⟨⟨full.1, epsilon_not_mem_spelled p⟩, full.2.2⟩

theorem Derives.refl (u : List Symbol) : g.Derives u u := Relation.ReflTransGen.refl

theorem Derives.trans (h : g.Derives u v) (h' : g.Derives v w) : g.Derives u w :=
  Relation.ReflTransGen.trans h h'

theorem Derives.extend (h : g.Derives u v) (before after : List Symbol) :
    g.Derives (before ++ u ++ after) (before ++ v ++ after) := by
  induction h with
  | refl => exact .refl _
  | tail _ step ih => exact ih.tail (step.extend before after)

theorem Derives.epsilon_not_mem (h : g.Derives u v) (full : epsilon ∉ u) : epsilon ∉ v := by
  induction h with
  | refl => exact full
  | tail _ step ih => exact step.epsilon_not_mem ih

/-- The parts of a form derive what they derive side by side. -/
theorem Derives.append (h : g.Derives u v) (h' : g.Derives w x) :
    g.Derives (u ++ w) (v ++ x) := by
  have first := h.extend [] w
  have second := h'.extend v []
  rw [List.append_nil, List.append_nil] at second
  exact first.trans second

/-- A nonterminal derives each of its productions. -/
theorem derives_of_mem_productions (h : p ∈ g.productions s) : g.Derives [s] (spelled p) := by
  have step := Rewrites.replace [] [] h
  rw [List.nil_append, List.nil_append, List.append_nil] at step
  exact .single step

end Grammar

end LineBasic
