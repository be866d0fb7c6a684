import LineBasic.Proofs.Grammar.First

/-!
# Parse trees

A parse tree shows how a grammar derives a sequence of tokens from a symbol: every
node takes one of the productions of its nonterminal, and every leaf is a token
whose label is a terminal. The trees under a node stand side by side, so trees
are defined together with sequences of trees.

## Main definitions

* `Forest`: parse trees side by side.
* `Forest.roots`, `Forest.yield`, `Forest.nodes`: the symbols they are rooted at, the
  tokens at their leaves, and the number of their nodes.
* `Forest.Valid`: whether they follow a grammar.
* `Grammar.IsParseTree`: whether a forest is one tree rooted at a symbol.

## Main results

* `derives_iff_exists_forest`: a form derives a sequence of terminals just when
  there are parse trees over it.
-/

namespace LineBasic

/-- Parse trees side by side, from left to right. A leaf holds one token; a node
says which of the productions of its nonterminal it takes, counted from zero. -/
inductive Forest (τ : Type)
  | nil
  | leaf (token : τ) (rest : Forest τ)
  | node (symbol : Symbol) (choice : Nat) (children rest : Forest τ)
  deriving DecidableEq

namespace Forest

variable {τ : Type} {label : τ → Symbol} {g : Grammar} {e f : Forest τ}

/-- The symbols that the trees are rooted at. -/
def roots (label : τ → Symbol) : Forest τ → List Symbol
  | nil => []
  | leaf token rest => label token :: rest.roots label
  | node symbol _ _ rest => symbol :: rest.roots label

/-- The tokens at the leaves. -/
def yield : Forest τ → List τ
  | nil => []
  | leaf token rest => token :: rest.yield
  | node _ _ children rest => children.yield ++ rest.yield

/-- How many nodes there are. -/
def nodes : Forest τ → Nat
  | nil => 0
  | leaf _ rest => rest.nodes
  | node _ _ children rest => children.nodes + rest.nodes + 1

/-- Whether each leaf is a terminal and each node takes a production of its
nonterminal, with one tree for each symbol of the production. -/
def Valid (g : Grammar) (label : τ → Symbol) : Forest τ → Prop
  | nil => True
  | leaf token rest => g.IsTerminal (label token) ∧ rest.Valid g label
  | node symbol choice children rest =>
    (g.productions symbol)[choice]?.map spelled = some (children.roots label) ∧
      children.Valid g label ∧ rest.Valid g label

instance decidableValid (g : Grammar) (label : τ → Symbol) :
    (f : Forest τ) → Decidable (f.Valid g label)
  | nil => inferInstanceAs (Decidable True)
  | leaf _ rest =>
    have := decidableValid g label rest
    inferInstanceAs (Decidable (_ ∧ _))
  | node _ _ children rest =>
    have := decidableValid g label children
    have := decidableValid g label rest
    inferInstanceAs (Decidable (_ ∧ _ ∧ _))

/-- One forest after another. -/
def append : Forest τ → Forest τ → Forest τ
  | nil, f => f
  | leaf token rest, f => leaf token (rest.append f)
  | node symbol choice children rest, f => node symbol choice children (rest.append f)

/-- A forest of leaves only. -/
def leaves : List τ → Forest τ
  | [] => nil
  | token :: tokens => leaf token (leaves tokens)

@[simp] theorem roots_append : (e.append f).roots label = e.roots label ++ f.roots label := by
  induction e with
  | nil => rfl
  | leaf token rest ih => exact congrArg (label token :: ·) ih
  | node symbol choice children rest _ ih => exact congrArg (symbol :: ·) ih

@[simp] theorem yield_append : (e.append f).yield = e.yield ++ f.yield := by
  induction e with
  | nil => rfl
  | leaf token rest ih => exact congrArg (token :: ·) ih
  | node symbol choice children rest _ ih => simp [append, yield, ih]

@[simp] theorem nodes_append : (e.append f).nodes = e.nodes + f.nodes := by
  induction e with
  | nil => exact (Nat.zero_add _).symm
  | leaf token rest ih => exact ih
  | node symbol choice children rest _ ih =>
    simp only [append, nodes, ih]
    omega

@[simp] theorem valid_append :
    (e.append f).Valid g label ↔ e.Valid g label ∧ f.Valid g label := by
  induction e with
  | nil => simp [append, Valid]
  | leaf token rest ih => simp [append, Valid, ih, and_assoc]
  | node symbol choice children rest _ ih => simp [append, Valid, ih, and_assoc]

@[simp] theorem roots_leaves (tokens : List τ) : (leaves tokens).roots label = tokens.map label := by
  induction tokens with
  | nil => rfl
  | cons token tokens ih => exact congrArg (label token :: ·) ih

@[simp] theorem yield_leaves (tokens : List τ) : (leaves tokens).yield = tokens := by
  induction tokens with
  | nil => rfl
  | cons token tokens ih => exact congrArg (token :: ·) ih

theorem valid_leaves {tokens : List τ} (h : ∀ token ∈ tokens, g.IsTerminal (label token)) :
    (leaves tokens).Valid g label := by
  induction tokens with
  | nil => trivial
  | cons token tokens ih =>
    obtain ⟨here, later⟩ := List.forall_mem_cons.mp h
    exact ⟨here, ih later⟩

/-- A forest over two sequences of symbols consists of one over each. -/
theorem exists_append_of_roots_eq {u v : List Symbol} (h : f.roots label = u ++ v) :
    ∃ f₁ f₂ : Forest τ, f = f₁.append f₂ ∧ f₁.roots label = u ∧ f₂.roots label = v := by
  induction f generalizing u with
  | nil =>
    obtain ⟨rfl, rfl⟩ := List.append_eq_nil_iff.mp h.symm
    exact ⟨nil, nil, rfl, rfl, rfl⟩
  | leaf token rest ih =>
    cases u with
    | nil => exact ⟨nil, leaf token rest, rfl, rfl, h⟩
    | cons s u =>
      obtain ⟨rfl, later⟩ := List.cons.inj h
      obtain ⟨f₁, f₂, rfl, roots₁, roots₂⟩ := ih later
      exact ⟨leaf token f₁, f₂, rfl, congrArg (label token :: ·) roots₁, roots₂⟩
  | node symbol choice children rest _ ih =>
    cases u with
    | nil => exact ⟨nil, node symbol choice children rest, rfl, rfl, h⟩
    | cons s u =>
      obtain ⟨rfl, later⟩ := List.cons.inj h
      obtain ⟨f₁, f₂, rfl, roots₁, roots₂⟩ := ih later
      exact ⟨node symbol choice children f₁, f₂, rfl, congrArg (symbol :: ·) roots₁, roots₂⟩

/-- The tokens of a valid forest are terminals. -/
theorem Valid.isTerminal (valid : f.Valid g label) :
    ∀ token ∈ f.yield, g.IsTerminal (label token) := by
  induction f with
  | nil => exact fun _ member => absurd member List.not_mem_nil
  | leaf token rest ih => exact List.forall_mem_cons.mpr ⟨valid.1, ih valid.2⟩
  | node symbol choice children rest ihChildren ihRest =>
    intro token member
    rcases List.mem_append.mp member with inChildren | inRest
    · exact ihChildren valid.2.1 token inChildren
    · exact ihRest valid.2.2 token inRest

/-- A node takes a production of its nonterminal. -/
theorem Valid.exists_production {symbol : Symbol} {choice : Nat}
    (valid : (node symbol choice e f).Valid g label) :
    ∃ p, (g.productions symbol)[choice]? = some p ∧ e.roots label = spelled p := by
  obtain ⟨p, chosen, roots⟩ := Option.map_eq_some_iff.mp valid.1
  exact ⟨p, chosen, roots.symm⟩

/-- The symbols a valid forest is rooted at derive the tokens at its leaves. -/
theorem Valid.derives (valid : f.Valid g label) :
    g.Derives (f.roots label) (f.yield.map label) := by
  induction f with
  | nil => exact .refl []
  | leaf token rest ih => exact (Grammar.Derives.refl [label token]).append (ih valid.2)
  | node symbol choice children rest ihChildren ihRest =>
    obtain ⟨p, chosen, roots⟩ := valid.exists_production
    have expands := Grammar.derives_of_mem_productions (List.mem_of_getElem? chosen)
    rw [← roots] at expands
    rw [yield, List.map_append]
    exact (expands.trans (ihChildren valid.2.1)).append (ihRest valid.2.2)

end Forest

namespace Grammar

variable {τ : Type} {label : τ → Symbol} {g : Grammar} {u v : List Symbol}

/-- Whether a forest is a single parse tree rooted at a symbol. -/
def IsParseTree (g : Grammar) (label : τ → Symbol) (s : Symbol) (f : Forest τ) : Prop :=
  f.roots label = [s] ∧ f.Valid g label

instance (s : Symbol) (f : Forest τ) : Decidable (g.IsParseTree label s f) :=
  inferInstanceAs (Decidable (_ ∧ _))

/-- Undoing one step of a derivation puts a node above the trees of the
production. -/
theorem Rewrites.exists_forest (h : g.Rewrites u v) {f : Forest τ} (valid : f.Valid g label)
    (roots : f.roots label = v) :
    ∃ f' : Forest τ, f'.Valid g label ∧ f'.roots label = u ∧ f'.yield = f.yield ∧
      f'.nodes = f.nodes + 1 := by
  obtain @⟨s, p, before, after, chosen⟩ := h
  -- the trees of the production have others on their left and right
  obtain ⟨front, right, rfl, frontRoots, rightRoots⟩ := Forest.exists_append_of_roots_eq roots
  obtain ⟨left, children, rfl, leftRoots, childrenRoots⟩ :=
    Forest.exists_append_of_roots_eq frontRoots
  obtain ⟨choice, place⟩ := List.mem_iff_getElem?.mp chosen
  rw [Forest.valid_append, Forest.valid_append] at valid
  obtain ⟨⟨leftValid, childrenValid⟩, rightValid⟩ := valid
  refine ⟨left.append (.node s choice children right), ?_, ?_, ?_, ?_⟩
  · refine Forest.valid_append.mpr ⟨leftValid, ?_, childrenValid, rightValid⟩
    rw [place, Option.map_some, childrenRoots]
  · rw [Forest.roots_append, Forest.roots, leftRoots, rightRoots]
  · simp only [Forest.yield_append, Forest.yield, List.append_assoc]
  · simp only [Forest.nodes_append, Forest.nodes]
    omega

/-- A form derives a sequence of terminals just when there are parse trees over
it that are rooted at the symbols of the form. -/
theorem derives_iff_exists_forest {tokens : List τ}
    (terminals : ∀ token ∈ tokens, g.IsTerminal (label token)) :
    g.Derives u (tokens.map label) ↔
      ∃ f : Forest τ, f.Valid g label ∧ f.roots label = u ∧ f.yield = tokens := by
  constructor
  · intro derives
    -- from the last step, where all trees are leaves, back to the first
    induction derives using Relation.ReflTransGen.head_induction_on with
    | refl =>
      exact ⟨.leaves tokens, Forest.valid_leaves terminals, Forest.roots_leaves tokens,
        Forest.yield_leaves tokens⟩
    | head step _ ih =>
      obtain ⟨f, valid, roots, same⟩ := ih
      obtain ⟨f', valid', roots', same', -⟩ := step.exists_forest valid roots
      exact ⟨f', valid', roots', same'.trans same⟩
  · rintro ⟨f, valid, rfl, rfl⟩
    exact valid.derives

end Grammar

end LineBasic
