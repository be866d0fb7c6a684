import LineBasic.Grammar.OfLines
import LineBasic.Grammar.Predict
import LineBasic.Proofs.Grammar.Follow
import LineBasic.Proofs.Grammar.ParseForest

/-!
# LL(1) grammars are unambiguous

In a valid parse tree the next terminal of the input, or the end marker when no
input is left, is in the PREDICT set of the production that a node takes. If the
PREDICT sets of a nonterminal do not meet, two parse trees over the same input
therefore take the same production at every node, one node after another from
the left.

## Main results

* `predict_disjoint`: in an LL(1) grammar the next symbol settles the production.
* `Forest.eq_of_yield_append_eq`: forests with the same roots over the same input
  are equal.
-/

namespace LineBasic

/-- The label of the next token, or the end marker if there is none. -/
def lookahead {τ : Type} (label : τ → Symbol) : List τ → Symbol
  | [] => endMarker
  | token :: _ => label token

/-- Among rows without conflicts a symbol is in the set of one at most. -/
theorem eq_of_conflictsAmong_eq_nil {s x : Symbol} {rows : List (Production × SymbolSet)}
    (h : conflictsAmong s rows = []) {i j : Nat} {row row' : Production × SymbolSet}
    (hi : rows[i]? = some row) (hj : rows[j]? = some row') (member : x ∈ row.2)
    (member' : x ∈ row'.2) : i = j := by
  have disjoint : rows.Pairwise fun row row' => ∀ x ∈ row.2, x ∉ row'.2 := by
    clear hi hj
    induction rows with
    | nil => exact .nil
    | cons row rows ih =>
      obtain ⟨here, later⟩ := List.append_eq_nil_iff.mp h
      refine List.pairwise_cons.mpr ⟨fun other listed x member member' => ?_, ih later⟩
      have noConflict := List.filterMap_eq_nil_iff.mp here other listed
      dsimp only at noConflict
      split at noConflict
      case isTrue empty =>
        exact SymbolSet.isEmpty_iff.mp empty x (SymbolSet.mem_inter.mpr ⟨member, member'⟩)
      case isFalse => exact nomatch noConflict
  obtain ⟨inBounds, rfl⟩ := List.getElem?_eq_some_iff.mp hi
  obtain ⟨inBounds', rfl⟩ := List.getElem?_eq_some_iff.mp hj
  -- of two different rows the earlier one excludes the later one
  rcases Nat.lt_trichotomy i j with less | same | greater
  · exact absurd member' (List.pairwise_iff_getElem.mp disjoint i j _ _ less x member)
  · exact same
  · exact absurd member (List.pairwise_iff_getElem.mp disjoint j i _ _ greater x member')

namespace Grammar

variable {g : Grammar} {start s t x : Symbol} {p q : Production} {i j : Nat}

/-- In an LL(1) grammar the PREDICT sets of two productions of a nonterminal do
not meet. -/
theorem predict_disjoint (certified : g.isLL1 start = true)
    (hi : (g.productions s)[i]? = some p) (hj : (g.productions s)[j]? = some q)
    (member : x ∈ startsOf g.first ((g.follow start).get s) p)
    (member' : x ∈ startsOf g.first ((g.follow start).get s) q) : i = j := by
  have listed := mem_rules_of_mem_productions (List.mem_of_getElem? hi)
  have noConflict := List.flatMap_eq_nil_iff.mp (List.isEmpty_iff.mp certified) _
    (List.mem_map.mpr ⟨_, listed, rfl⟩)
  have row {k : Nat} {r : Production} (h : (g.productions s)[k]? = some r) :
      ((g.productions s).map fun production =>
          (production, startsOf g.first ((g.follow start).get s) production))[k]? =
        some (r, startsOf g.first ((g.follow start).get s) r) := by
    rw [List.getElem?_map, h, Option.map_some]
  exact eq_of_conflictsAmong_eq_nil noConflict (row hi) (row hj) member member'

/-- Whether all that can come right after a nonterminal in `u`, given what comes
after `u`, is in the FOLLOW set of the nonterminal. -/
def Followed (g : Grammar) (start : Symbol) (u : List Symbol) (x : Symbol) : Prop :=
  ∀ before t after, u = before ++ t :: after → g.isNonterminal t = true →
    ∀ y ∈ startsOf g.first (.singleton x) after, y ∈ (g.follow start).get t

theorem Followed.tail {u : List Symbol} (h : g.Followed start (s :: u) x) :
    g.Followed start u x :=
  fun before t after split => h (s :: before) t after (split ▸ rfl)

/-- The symbols of a production are followed if what comes after the production
follows its nonterminal. -/
theorem followed_spelled (noEpsilon : g.isNonterminal epsilon = false)
    (chosen : p ∈ g.productions s) (follows : x ∈ (g.follow start).get s) :
    g.Followed start (spelled p) x :=
  (followedBy_spelled noEpsilon chosen).mono fun _ same =>
    SymbolSet.mem_singleton.mp same ▸ follows

theorem followed_start (known : g.isNonterminal start = true) :
    g.Followed start [start] endMarker :=
  followedBy_start known

end Grammar

namespace Forest

variable {τ : Type} {label : τ → Symbol} {g : Grammar} {start x : Symbol} {e f f' : Forest τ}
  {rest rest' : List τ}

/-- The next token of the input is one that the roots can begin with, or one that
may follow them. -/
theorem Valid.lookahead_mem_startsOf (valid : f.Valid g label)
    (noEpsilon : g.isNonterminal epsilon = false) {following : SymbolSet}
    (h : lookahead label rest ∈ following) :
    lookahead label (f.yield ++ rest) ∈ startsOf g.first following (f.roots label) := by
  rw [mem_startsOf]
  have derives := valid.derives
  cases tokens : f.yield with
  | nil =>
    rw [tokens] at derives
    exact .inr ⟨Grammar.firstOfSequence_subset_of_derives noEpsilon derives
      (mem_firstOfSequence_nil.mpr rfl), h⟩
  | cons token more =>
    rw [tokens] at derives
    have terminal := valid.isTerminal token (tokens ▸ List.mem_cons_self)
    exact .inl ⟨terminal.1, Grammar.firstOfSequence_subset_of_derives noEpsilon derives
      (Grammar.mem_firstOfSequence_of_isTerminal terminal _)⟩

theorem Valid.isNonterminal {symbol : Symbol} {choice : Nat}
    (valid : (node symbol choice e f).Valid g label) : g.isNonterminal symbol = true := by
  obtain ⟨p, chosen, -⟩ := valid.exists_production
  exact Grammar.isNonterminal_of_mem_productions (List.mem_of_getElem? chosen)

theorem Valid.ne_label {symbol : Symbol} {choice : Nat} {token : τ}
    (valid : (node symbol choice e f).Valid g label) (terminal : g.IsTerminal (label token)) :
    symbol ≠ label token := by
  rintro rfl
  exact Bool.noConfusion (terminal.2.symm.trans valid.isNonterminal)

/-- What comes after the children of a node follows its nonterminal. -/
theorem Valid.lookahead_mem_get_follow {symbol : Symbol} {choice : Nat}
    (valid : (node symbol choice e f).Valid g label)
    (noEpsilon : g.isNonterminal epsilon = false)
    (followed : g.Followed start ((node symbol choice e f).roots label) (lookahead label rest)) :
    lookahead label (f.yield ++ rest) ∈ (g.follow start).get symbol :=
  followed [] symbol (f.roots label) rfl valid.isNonterminal _
    (valid.2.2.lookahead_mem_startsOf noEpsilon (SymbolSet.mem_singleton.mpr rfl))

/-- The next token of the input is in the PREDICT set of the production that a
node takes. -/
theorem Valid.lookahead_mem_predict {symbol : Symbol} {choice : Nat} {p : Production}
    (valid : (node symbol choice e f).Valid g label)
    (noEpsilon : g.isNonterminal epsilon = false) (roots : e.roots label = spelled p)
    (follows : lookahead label (f.yield ++ rest) ∈ (g.follow start).get symbol) :
    lookahead label (e.yield ++ (f.yield ++ rest)) ∈
      startsOf g.first ((g.follow start).get symbol) p := by
  have begins := valid.2.1.lookahead_mem_startsOf noEpsilon follows
  rw [roots] at begins
  exact (mem_startsOf_spelled (Grammar.epsilon_not_mem_keys_first noEpsilon)).mp begins

/-- In an LL(1) grammar two forests with the same roots, each at the beginning of
the same input and with what may follow it behind, are equal and end at the same
place. -/
theorem eq_of_yield_append_eq (noEpsilon : g.isNonterminal epsilon = false)
    (certified : g.isLL1 start = true) (valid : f.Valid g label) (valid' : f'.Valid g label)
    (sameRoots : f.roots label = f'.roots label) (sameInput : f.yield ++ rest = f'.yield ++ rest')
    (followed : g.Followed start (f.roots label) (lookahead label rest))
    (followed' : g.Followed start (f'.roots label) (lookahead label rest')) :
    f = f' ∧ rest = rest' := by
  -- the forests are read from the left; what is left to read stays the same for both
  induction f generalizing f' rest rest' with
  | nil =>
    cases f' with
    | nil => exact ⟨rfl, sameInput⟩
    | leaf | node => exact nomatch sameRoots
  | leaf token more ih =>
    cases f' with
    | nil => exact nomatch sameRoots
    | leaf token' more' =>
      obtain ⟨rfl, sameLater⟩ := List.cons.inj sameInput
      obtain ⟨rfl, rfl⟩ := ih valid.2 valid'.2 (List.cons.inj sameRoots).2 sameLater
        followed.tail followed'.tail
      exact ⟨rfl, rfl⟩
    | node symbol' choice' children' more' =>
      exact absurd (List.cons.inj sameRoots).1.symm (valid'.ne_label valid.1)
  | node symbol choice children more ihChildren ihMore =>
    cases f' with
    | nil => exact nomatch sameRoots
    | leaf token' more' => exact absurd (List.cons.inj sameRoots).1 (valid.ne_label valid'.1)
    | node symbol' choice' children' more' =>
      obtain ⟨rfl, sameRest⟩ := List.cons.inj sameRoots
      rw [yield, yield, List.append_assoc, List.append_assoc] at sameInput
      obtain ⟨p, chosen, roots⟩ := valid.exists_production
      obtain ⟨p', chosen', roots'⟩ := valid'.exists_production
      have follows := valid.lookahead_mem_get_follow noEpsilon followed
      have follows' := valid'.lookahead_mem_get_follow noEpsilon followed'
      have predicted := valid.lookahead_mem_predict noEpsilon roots follows
      have predicted' := valid'.lookahead_mem_predict noEpsilon roots' follows'
      rw [← sameInput] at predicted'
      -- both productions are predicted by the same symbol
      obtain rfl := Grammar.predict_disjoint certified chosen chosen' predicted predicted'
      obtain rfl := Option.some.inj (chosen.symm.trans chosen')
      have chosen := List.mem_of_getElem? chosen
      -- so the children are equal, and what is left to read behind them is the same
      obtain ⟨rfl, sameLater⟩ := ihChildren valid.2.1 valid'.2.1 (roots.trans roots'.symm)
        sameInput (roots ▸ Grammar.followed_spelled noEpsilon chosen follows)
        (roots' ▸ Grammar.followed_spelled noEpsilon chosen follows')
      obtain ⟨rfl, rfl⟩ := ihMore valid.2.2 valid'.2.2 sameRest sameLater followed.tail
        followed'.tail
      exact ⟨rfl, rfl⟩

end Forest

namespace Grammar

variable {τ : Type} {label : τ → Symbol} {g : Grammar} {start : Symbol} {f f' : Forest τ}

/-- In an LL(1) grammar a sequence of tokens has at most one parse tree. -/
theorem parse_tree_unique (noEpsilon : g.isNonterminal epsilon = false)
    (known : g.isNonterminal start = true) (certified : g.isLL1 start = true)
    (h : g.IsParseTree label start f) (h' : g.IsParseTree label start f')
    (same : f.yield = f'.yield) : f = f' := by
  have sameInput : f.yield ++ [] = f'.yield ++ [] := by rw [same]
  have followed : g.Followed start (f.roots label) (lookahead label []) := by
    rw [h.1]
    exact followed_start known
  have followed' : g.Followed start (f'.roots label) (lookahead label []) := by
    rw [h'.1]
    exact followed_start known
  exact (Forest.eq_of_yield_append_eq noEpsilon certified h.2 h'.2 (h.1.trans h'.1.symm)
    sameInput followed followed').1

/-- The parse tree of an assignment of a number. -/
def assignmentTree : Forest Symbol :=
  .node "line" 0
    (.leaf "IDENT" (.node "after_ident" 1
      (.leaf "EQUALS" (.node "expr" 0
        (.node "operand" 1 (.leaf "NUMBER" .nil) (.node "etail" 1 .nil .nil))
        (.node "linetail" 1 .nil .nil)))
      .nil))
    .nil

theorem parse_tree_unique_assignment :
    ofLines.isNonterminal epsilon = false ∧ ofLines.isNonterminal lineSymbol = true ∧
      ofLines.isLL1 lineSymbol = true ∧
      ∃! f : Forest Symbol, ofLines.IsParseTree id lineSymbol f ∧
        f.yield = ["IDENT", "EQUALS", "NUMBER"] := by
  have noEpsilon : ofLines.isNonterminal epsilon = false := by decide
  have known : ofLines.isNonterminal lineSymbol = true := by decide
  have certified : ofLines.isLL1 lineSymbol = true := by decide +kernel
  have tree : ofLines.IsParseTree id lineSymbol assignmentTree := by decide
  refine ⟨noEpsilon, known, certified, assignmentTree, ⟨tree, rfl⟩, ?_⟩
  rintro f ⟨h, same⟩
  exact parse_tree_unique noEpsilon known certified h tree same

end Grammar

end LineBasic
