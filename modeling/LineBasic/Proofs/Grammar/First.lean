import LineBasic.Grammar.First
import LineBasic.Proofs.Grammar.Derivation

/-!
# FIRST sets are exact

The FIRST set of a nonterminal holds a terminal just when the nonterminal derives
a form that begins with it, and `ε` just when the nonterminal derives the empty
form. Nothing else is ever added while the sets are being filled, and once they
are filled, undoing a step of a derivation keeps what the form can begin with.

## Main results

* `mem_firstOfSequence_append`: FIRST of two sequences in a row.
* `meets_first`: the sets are filled when the search for them ends.
* `firstOfSequence_subset_of_derives`: a form begins with all that what it
  derives begins with.
-/

namespace LineBasic

section Sequences

variable {first : SetTable} {s t : Symbol} {xs ys : List Symbol}

theorem firstOfSymbol_of_key (key : s ∈ first.keys) : firstOfSymbol first s = first.get s := by
  cases found : first.lookup s with
  | none => exact absurd key (SetTable.lookup_eq_none_iff.mp found)
  | some set => rw [firstOfSymbol, SetTable.get, found, Option.getD_some, Option.getD_some]

theorem firstOfSymbol_of_not_key (h : s ∉ first.keys) :
    firstOfSymbol first s = .singleton s := by
  rw [firstOfSymbol, SetTable.lookup_eq_none_iff.mpr h, Option.getD_none]

@[simp] theorem mem_firstOfSequence_nil : t ∈ firstOfSequence first [] ↔ t = epsilon :=
  SymbolSet.mem_singleton

/-- What stands behind something counts only where that can be empty, and then decides
whether both can be. -/
theorem mem_ite_erase_union {here behind : SymbolSet} :
    t ∈ (if epsilon ∈ here then here.erase epsilon ∪ behind else here) ↔
      t ≠ epsilon ∧ t ∈ here ∨ epsilon ∈ here ∧ t ∈ behind := by
  split
  case isTrue empty =>
    simp only [SymbolSet.mem_union, SymbolSet.mem_erase, empty, true_and]
    exact or_congr_left and_comm
  case isFalse full =>
    simp only [full, false_and, or_false]
    exact ⟨fun member => ⟨fun same => full (same ▸ member), member⟩, fun h => h.2⟩

theorem mem_firstOfSequence_cons :
    t ∈ firstOfSequence first (s :: xs) ↔
      t ≠ epsilon ∧ t ∈ firstOfSymbol first s ∨
        epsilon ∈ firstOfSymbol first s ∧ t ∈ firstOfSequence first xs :=
  mem_ite_erase_union

/-- A sequence begins as its first part does, and as the second does if the first
can be empty. -/
theorem mem_firstOfSequence_append :
    t ∈ firstOfSequence first (xs ++ ys) ↔
      t ≠ epsilon ∧ t ∈ firstOfSequence first xs ∨
        epsilon ∈ firstOfSequence first xs ∧ t ∈ firstOfSequence first ys := by
  induction xs with
  | nil => simp +contextual
  | cons s xs ih =>
    simp only [List.cons_append, mem_firstOfSequence_cons, ih]
    tauto

/-- What a sequence begins with is `ε`, one of its symbols, or in some set of the
table. -/
theorem eq_epsilon_or_mem_of_mem_firstOfSequence (h : t ∈ firstOfSequence first xs) :
    t = epsilon ∨ t ∈ xs ∨ ∃ s, t ∈ first.get s := by
  induction xs with
  | nil => exact .inl (mem_firstOfSequence_nil.mp h)
  | cons s xs ih =>
    rcases mem_firstOfSequence_cons.mp h with ⟨-, here⟩ | ⟨-, later⟩
    · by_cases key : s ∈ first.keys
      · rw [firstOfSymbol_of_key key] at here
        exact .inr (.inr ⟨s, here⟩)
      · rw [firstOfSymbol_of_not_key key, SymbolSet.mem_singleton] at here
        exact .inr (.inl (here ▸ List.mem_cons_self))
    · rcases ih later with empty | member | inTable
      · exact .inl empty
      · exact .inr (.inl (List.mem_cons_of_mem _ member))
      · exact .inr (.inr inTable)

/-- Leaving out `ε` does not change what a sequence begins with. -/
theorem mem_firstOfSequence_spelled (h : epsilon ∉ first.keys) :
    t ∈ firstOfSequence first (spelled xs) ↔ t ∈ firstOfSequence first xs := by
  induction xs with
  | nil => rfl
  | cons s xs ih =>
    by_cases empty : s = epsilon
    · subst empty
      rw [spelled_epsilon_cons, mem_firstOfSequence_cons, firstOfSymbol_of_not_key h, ih]
      simp
    · rw [spelled_cons_of_ne empty, mem_firstOfSequence_cons, mem_firstOfSequence_cons, ih]

end Sequences

namespace Grammar

variable {g : Grammar} {s t : Symbol} {p : Production} {u v : List Symbol}

/-- A symbol that stands for itself in what the grammar derives. -/
def IsTerminal (g : Grammar) (t : Symbol) : Prop :=
  t ≠ epsilon ∧ g.isNonterminal t = false

instance : Decidable (g.IsTerminal t) :=
  inferInstanceAs (Decidable (_ ∧ _))

/-- What a form can begin with: a terminal at the front of a form that it derives,
or `ε` if it derives the empty form. -/
def Begins (g : Grammar) (u : List Symbol) (t : Symbol) : Prop :=
  (g.IsTerminal t ∧ ∃ rest, g.Derives u (t :: rest)) ∨ (t = epsilon ∧ g.Derives u [])

theorem Begins.of_derives (h : g.Begins v t) (derives : g.Derives u v) : g.Begins u t := by
  rcases h with ⟨terminal, rest, h⟩ | ⟨empty, h⟩
  · exact .inl ⟨terminal, rest, derives.trans h⟩
  · exact .inr ⟨empty, derives.trans h⟩

theorem Begins.append_right (h : g.Begins u t) (full : t ≠ epsilon) (v : List Symbol) :
    g.Begins (u ++ v) t := by
  rcases h with ⟨terminal, rest, h⟩ | ⟨empty, -⟩
  · exact .inl ⟨terminal, rest ++ v, h.append (.refl v)⟩
  · exact absurd empty full

theorem derives_nil_of_begins_epsilon (h : g.Begins u epsilon) : g.Derives u [] := by
  rcases h with ⟨terminal, -⟩ | ⟨-, h⟩
  · exact absurd rfl terminal.1
  · exact h

/-! ### Nothing too much -/

/-- Tables with a set for each nonterminal that holds only what the nonterminal
can begin with. -/
structure SoundFirst (g : Grammar) (first : SetTable) : Prop where
  keys : first.keys = g.nonterminals
  begins : ∀ s, ∀ t ∈ first.get s, g.Begins [s] t

/-- In a sound table every sequence begins only with what it can begin with. -/
theorem SoundFirst.begins_of_mem_firstOfSequence {first : SetTable} (sound : g.SoundFirst first)
    (noEpsilon : g.isNonterminal epsilon = false) (h : t ∈ firstOfSequence first p) :
    g.Begins (spelled p) t := by
  have key_iff (s : Symbol) : s ∈ first.keys ↔ g.isNonterminal s = true := by
    rw [sound.keys, isNonterminal_iff]
  induction p with
  | nil => exact .inr ⟨mem_firstOfSequence_nil.mp h, .refl []⟩
  | cons s p ih =>
    by_cases key : s ∈ first.keys
    · -- a nonterminal: either it begins with `t`, or it vanishes and the rest does
      have full : s ≠ epsilon := by
        rintro rfl
        exact Bool.noConfusion (noEpsilon.symm.trans ((key_iff _).mp key))
      rw [mem_firstOfSequence_cons, firstOfSymbol_of_key key] at h
      rw [spelled_cons_of_ne full]
      rcases h with ⟨notEmpty, here⟩ | ⟨empty, later⟩
      · exact (sound.begins s t here).append_right notEmpty (spelled p)
      · have vanishes := derives_nil_of_begins_epsilon (sound.begins s epsilon empty)
        exact (ih later).of_derives (vanishes.append (.refl (spelled p)))
    · -- any other symbol begins with itself, and `ε` stands for nothing
      rw [mem_firstOfSequence_cons, firstOfSymbol_of_not_key key, SymbolSet.mem_singleton,
        SymbolSet.mem_singleton] at h
      rcases h with ⟨full, rfl⟩ | ⟨rfl, later⟩
      · have terminal : g.IsTerminal t :=
          ⟨full, Bool.eq_false_iff.mpr fun nonterminal => key ((key_iff _).mpr nonterminal)⟩
        rw [spelled_cons_of_ne full]
        exact .inl ⟨terminal, spelled p, .refl _⟩
      · rw [spelled_epsilon_cons]
        exact ih later

theorem keys_emptyTable : g.emptyTable.keys = g.nonterminals := by
  rw [SetTable.keys, emptyTable, List.map_map]
  rfl

theorem get_emptyTable (s : Symbol) : g.emptyTable.get s = ∅ := by
  rw [SetTable.get, emptyTable]
  induction g.rules with
  | nil => rfl
  | cons rule rules ih =>
    rw [List.map_cons, List.lookup_cons]
    split
    · rfl
    · exact ih

theorem not_mem_get_emptyTable : t ∉ g.emptyTable.get s := by
  rw [get_emptyTable]
  exact SymbolSet.not_mem_empty t

/-- Every requirement of the FIRST sets comes from a production. -/
theorem mem_firstRequirements {r : Requirement} :
    r ∈ g.firstRequirements ↔
      ∃ s, ∃ p ∈ g.productions s, r = ⟨s, fun first => firstOfSequence first p⟩ := by
  rw [firstRequirements, List.mem_map]
  constructor
  · rintro ⟨⟨s, p⟩, listed, rfl⟩
    exact ⟨s, p, mem_entries.mp listed, rfl⟩
  · rintro ⟨s, p, chosen, rfl⟩
    exact ⟨(s, p), mem_entries.mpr chosen, rfl⟩

/-- Meeting the requirement of one production keeps a table sound. -/
theorem SoundFirst.meet {first : SetTable} (sound : g.SoundFirst first)
    (noEpsilon : g.isNonterminal epsilon = false) {r : Requirement}
    (listed : r ∈ g.firstRequirements) : g.SoundFirst (r.meet first) := by
  obtain ⟨s, p, chosen, rfl⟩ := mem_firstRequirements.mp listed
  refine ⟨SetTable.keys_add.trans sound.keys, fun u t member => ?_⟩
  rcases SetTable.mem_get_add.mp member with old | ⟨rfl, -, new⟩
  · exact sound.begins u t old
  · exact (sound.begins_of_mem_firstOfSequence noEpsilon new).of_derives
      (derives_of_mem_productions chosen)

theorem soundFirst_first (noEpsilon : g.isNonterminal epsilon = false) :
    g.SoundFirst g.first :=
  SetTable.saturate_induction ⟨keys_emptyTable, fun _ _ h => absurd h not_mem_get_emptyTable⟩
    (fun _ listed _ sound => sound.meet noEpsilon listed) _

/-! ### Nothing missing -/

theorem keys_first : g.first.keys = g.nonterminals :=
  (SetTable.keys_saturate _).trans keys_emptyTable

theorem within_emptyTable (symbols : List Symbol) : g.emptyTable.Within symbols :=
  fun _ _ h => absurd h not_mem_get_emptyTable

/-- Besides `ε` only symbols that occur in the grammar are ever asked for. -/
theorem asksWithin_of_mem_firstRequirements {r : Requirement} (listed : r ∈ g.firstRequirements) :
    SetTable.AsksWithin r (epsilon :: g.occurrences) := by
  intro table within t asked
  obtain ⟨s, p, chosen, rfl⟩ := mem_firstRequirements.mp listed
  rcases eq_epsilon_or_mem_of_mem_firstOfSequence asked with rfl | member | ⟨u, inTable⟩
  · exact List.mem_cons_self
  · exact List.mem_cons_of_mem _ (mem_occurrences chosen member)
  · exact within u t inTable

theorem within_first : g.first.Within (epsilon :: g.occurrences) :=
  (within_emptyTable _).saturate (fun _ => asksWithin_of_mem_firstRequirements) _

theorem length_keys_lt_capacity (s : Symbol) :
    g.emptyTable.keys.length * (s :: g.occurrences).length < g.capacity + 1 := by
  rw [keys_emptyTable, nonterminals, List.length_map, List.length_cons]
  exact Nat.lt_succ_self _

/-- The search for the FIRST sets ends because nothing is left to add. -/
theorem meets_first : g.first.Meets g.firstRequirements :=
  (within_emptyTable _).meets_saturate (fun _ => asksWithin_of_mem_firstRequirements)
    (keys_emptyTable ▸ g.distinct) (length_keys_lt_capacity epsilon)

theorem mem_keys_first : s ∈ g.first.keys ↔ g.isNonterminal s = true := by
  rw [keys_first, isNonterminal_iff]

theorem epsilon_not_mem_keys_first (noEpsilon : g.isNonterminal epsilon = false) :
    epsilon ∉ g.first.keys := by
  rw [mem_keys_first, noEpsilon]
  exact Bool.false_ne_true

/-- A nonterminal begins with all that its productions begin with. -/
theorem mem_get_first_of_mem_productions (chosen : p ∈ g.productions s)
    (h : t ∈ firstOfSequence g.first p) : t ∈ g.first.get s :=
  meets_first.mem_get (mem_firstRequirements.mpr ⟨s, p, chosen, rfl⟩)
    (mem_keys_first.mpr (isNonterminal_of_mem_productions chosen)) h

/-- Undoing one step of a derivation keeps what a form begins with. -/
theorem Rewrites.mem_firstOfSequence (h : g.Rewrites u v)
    (noEpsilon : g.isNonterminal epsilon = false) (member : t ∈ firstOfSequence g.first v) :
    t ∈ firstOfSequence g.first u := by
  obtain @⟨s, p, before, after, chosen⟩ := h
  have key := mem_keys_first.mpr (isNonterminal_of_mem_productions chosen)
  have fromProduction {x : Symbol} (h : x ∈ firstOfSequence g.first (spelled p)) :
      x ∈ firstOfSymbol g.first s := by
    rw [firstOfSymbol_of_key key]
    rw [mem_firstOfSequence_spelled (epsilon_not_mem_keys_first noEpsilon)] at h
    exact mem_get_first_of_mem_productions chosen h
  rw [List.append_assoc, mem_firstOfSequence_append, mem_firstOfSequence_append] at member
  rw [mem_firstOfSequence_append, mem_firstOfSequence_cons]
  -- `t` begins what stands before the production, the production, or what stands behind it
  rcases member with here | ⟨empty, ⟨full, replaced⟩ | ⟨vanishes, later⟩⟩
  · exact .inl here
  · exact .inr ⟨empty, .inl ⟨full, fromProduction replaced⟩⟩
  · exact .inr ⟨empty, .inr ⟨fromProduction vanishes, later⟩⟩

/-- A form begins with all that the forms it derives begin with. -/
theorem firstOfSequence_subset_of_derives (noEpsilon : g.isNonterminal epsilon = false)
    (h : g.Derives u v) (member : t ∈ firstOfSequence g.first v) :
    t ∈ firstOfSequence g.first u := by
  induction h with
  | refl => exact member
  | tail _ step ih => exact ih (step.mem_firstOfSequence noEpsilon member)

theorem mem_firstOfSequence_of_isTerminal (terminal : g.IsTerminal t) (rest : List Symbol) :
    t ∈ firstOfSequence g.first (t :: rest) := by
  have notKey : t ∉ g.first.keys := by
    rw [mem_keys_first, terminal.2]
    exact Bool.false_ne_true
  rw [mem_firstOfSequence_cons, firstOfSymbol_of_not_key notKey]
  exact .inl ⟨terminal.1, SymbolSet.mem_singleton.mpr rfl⟩

/-- What a form can begin with is in its FIRST set. -/
theorem Begins.mem_firstOfSequence (h : g.Begins u t)
    (noEpsilon : g.isNonterminal epsilon = false) : t ∈ firstOfSequence g.first u := by
  rcases h with ⟨terminal, rest, derives⟩ | ⟨rfl, derives⟩
  · exact firstOfSequence_subset_of_derives noEpsilon derives
      (mem_firstOfSequence_of_isTerminal terminal rest)
  · exact firstOfSequence_subset_of_derives noEpsilon derives (mem_firstOfSequence_nil.mpr rfl)

theorem mem_firstOfSequence_singleton (known : g.isNonterminal s = true) :
    t ∈ firstOfSequence g.first [s] ↔ t ∈ g.first.get s := by
  rw [mem_firstOfSequence_cons, firstOfSymbol_of_key (mem_keys_first.mpr known),
    mem_firstOfSequence_nil]
  constructor
  · rintro (⟨-, member⟩ | ⟨member, rfl⟩) <;> exact member
  · intro member
    by_cases empty : t = epsilon
    · exact .inr ⟨empty ▸ member, empty⟩
    · exact .inl ⟨empty, member⟩

/-- FIRST of a nonterminal holds exactly what the nonterminal can begin with. -/
theorem mem_get_first_iff (noEpsilon : g.isNonterminal epsilon = false)
    (known : g.isNonterminal s = true) : t ∈ g.first.get s ↔ g.Begins [s] t :=
  ⟨(soundFirst_first noEpsilon).begins s t, fun h =>
    (mem_firstOfSequence_singleton known).mp (h.mem_firstOfSequence noEpsilon)⟩

/-- The search for the FIRST sets comes to an end. The set of a nonterminal then
holds a symbol other than `ε` just when this is a terminal and the nonterminal
derives a form that begins with it, and `ε` just when the nonterminal derives the
empty form. -/
theorem first_exact (noEpsilon : g.isNonterminal epsilon = false) :
    SetTable.Settles g.firstRequirements g.emptyTable g.first ∧
      ∀ s, g.isNonterminal s = true →
        (∀ t, t ≠ epsilon → (t ∈ g.first.get s ↔
          g.isNonterminal t = false ∧ ∃ rest, g.Derives [s] (t :: rest))) ∧
        (epsilon ∈ g.first.get s ↔ g.Derives [s] []) := by
  refine ⟨SetTable.settles_saturate meets_first, fun s known => ⟨fun t full => ?_, ?_⟩⟩
  · rw [mem_get_first_iff noEpsilon known]
    constructor
    · rintro (⟨terminal, derives⟩ | ⟨empty, -⟩)
      · exact ⟨terminal.2, derives⟩
      · exact absurd empty full
    · rintro ⟨terminal, derives⟩
      exact .inl ⟨⟨full, terminal⟩, derives⟩
  · rw [mem_get_first_iff noEpsilon known]
    exact ⟨derives_nil_of_begins_epsilon, fun derives => .inr ⟨rfl, derives⟩⟩

/-- Two nonterminals that begin with each other and with themselves. -/
def entangled : Grammar where
  rules := [("s", [["s", "a"], ["t", "s"], ["b"]]), ("t", [["t", "t"], ["s", "c"], ["ε"]]),
    ("u", [["u", "d"]])]
  distinct := by decide

theorem first_exact_entangled :
    entangled.isNonterminal epsilon = false ∧ entangled.isNonterminal "t" = true ∧
      (∃ rest, entangled.Derives ["t"] ("b" :: rest)) ∧ entangled.Derives ["t"] [] ∧
      ¬ ∃ rest, entangled.Derives ["t"] ("a" :: rest) := by
  have noEpsilon : entangled.isNonterminal epsilon = false := by decide
  obtain ⟨terminals, empty⟩ := (first_exact noEpsilon).2 "t" (by decide)
  refine ⟨noEpsilon, by decide, ?_, empty.mp (by decide +kernel), ?_⟩
  · exact ((terminals "b" (by decide)).mp (by decide +kernel)).2
  · intro derives
    exact absurd ((terminals "a" (by decide)).mpr ⟨by decide, derives⟩) (by decide +kernel)

end Grammar

end LineBasic
