import LineBasic.Proofs.Grammar.Follow

/-!
# The sets of a grammar are the least that are filled

What two sequences in a row begin with is put together from what each of them begins
with. It grows with the sets of the symbols: more in a set is more to begin with, and a
set that gains `ε` only lets more of the sequence count. So no requirement asks for less
in a larger table. A search that begins below a table in which every requirement is met
therefore never leads out of this table: the FIRST and the FOLLOW sets are the smallest
in which nothing is missing.

## Main definitions

* `SetTable.Extends`: whether one table holds all that another holds.
* `Requirement.IsMonotone`: whether a requirement asks for no less in a larger table.

## Main results

* `firstOfSequence_append`: FIRST of two sequences in a row.
* `SetTable.Extends.mem_firstOfSequence`: FIRST of a sequence grows with the table.
* `SetTable.Extends.saturate`: filling a table does not lead out of a filled one.
* `Grammar.extends_first`, `Grammar.extends_follow`: the FIRST and the FOLLOW sets are
  the least.
-/

namespace LineBasic

variable {table larger : SetTable} {s t : Symbol} {xs ys : List Symbol}

/-- Whether two tables have sets for the same symbols, those of the larger one with all
members of those of the other. -/
structure SetTable.Extends (larger table : SetTable) : Prop where
  keys : ∀ s, s ∈ larger.keys ↔ s ∈ table.keys
  subset : ∀ s, ∀ t ∈ table.get s, t ∈ larger.get s

namespace SetTable

theorem extends_add (more : SymbolSet) : (table.add s more).Extends table where
  keys u := by rw [keys_add]
  subset _ _ member := mem_get_add.mpr (.inl member)

theorem Extends.mem_firstOfSymbol (h : larger.Extends table) (member : t ∈ firstOfSymbol table s) :
    t ∈ firstOfSymbol larger s := by
  by_cases key : s ∈ table.keys
  · rw [firstOfSymbol_of_key key] at member
    rw [firstOfSymbol_of_key ((h.keys s).mpr key)]
    exact h.subset s t member
  · -- a terminal of one table is a terminal of the other
    rw [firstOfSymbol_of_not_key key] at member
    rwa [firstOfSymbol_of_not_key fun inLarger => key ((h.keys s).mp inLarger)]

/-- A sequence begins with no less in a larger table. -/
theorem Extends.mem_firstOfSequence (h : larger.Extends table)
    (member : t ∈ firstOfSequence table xs) : t ∈ firstOfSequence larger xs := by
  induction xs with
  | nil => exact member
  | cons s xs ih =>
    rw [mem_firstOfSequence_cons] at member ⊢
    -- a symbol that can be empty in one table can be so in the other
    rcases member with ⟨full, here⟩ | ⟨empty, later⟩
    · exact .inl ⟨full, h.mem_firstOfSymbol here⟩
    · exact .inr ⟨h.mem_firstOfSymbol empty, ih later⟩

end SetTable

/-- A sequence in front of another one is followed by what that one begins with. -/
theorem firstOfSequence_append :
    firstOfSequence table (xs ++ ys) = startsOf table (firstOfSequence table ys) xs :=
  SymbolSet.ext fun _ => mem_firstOfSequence_append.trans mem_startsOf.symm

/-- Two sequences in a row begin as the first does if this cannot be empty, and with what
both begin with if it can; `ε` is then a member only if it is one for the second. And a
sequence begins with no less where the sets of the symbols hold no less. -/
theorem firstOfSequence_append_and_subset (first : SetTable) (xs ys : List Symbol) :
    firstOfSequence first (xs ++ ys) =
        (if epsilon ∈ firstOfSequence first xs then
          (firstOfSequence first xs).erase epsilon ∪ firstOfSequence first ys
        else firstOfSequence first xs) ∧
      ∀ larger : SetTable, larger.Extends first →
        ∀ t ∈ firstOfSequence first xs, t ∈ firstOfSequence larger xs :=
  ⟨firstOfSequence_append, fun _ h _ member => h.mem_firstOfSequence member⟩

/-- A table in which no symbol can be empty. -/
def blocked : SetTable := [("a", .singleton "x"), ("b", .singleton "y")]

theorem firstOfSequence_append_and_subset_unblocked :
    (blocked.add "a" (.singleton epsilon)).Extends blocked ∧
      firstOfSequence blocked (["a"] ++ ["b"]) = .singleton "x" ∧
      firstOfSequence (blocked.add "a" (.singleton epsilon)) (["a"] ++ ["b"]) =
        .ofList ["x", "y"] ∧
      ∀ t ∈ firstOfSequence blocked ["a", "b"],
        t ∈ firstOfSequence (blocked.add "a" (.singleton epsilon)) ["a", "b"] := by
  have unblocks : (blocked.add "a" (.singleton epsilon)).Extends blocked :=
    SetTable.extends_add _
  refine ⟨unblocks, ?_, ?_, ?_⟩
  · rw [(firstOfSequence_append_and_subset blocked ["a"] ["b"]).1]
    decide
  · rw [(firstOfSequence_append_and_subset _ ["a"] ["b"]).1]
    decide
  · exact (firstOfSequence_append_and_subset blocked ["a", "b"] []).2 _ unblocks

/-- Whether a requirement never asks for less in a larger table. -/
def Requirement.IsMonotone (r : Requirement) : Prop :=
  ∀ table larger : SetTable, larger.Extends table →
    ∀ t ∈ r.members table, t ∈ r.members larger

namespace SetTable

variable {requirements : List Requirement}

/-- Meeting a requirement does not lead out of a table that already meets it. -/
theorem Extends.meet (h : larger.Extends table) (met : larger.Meets requirements)
    {r : Requirement} (listed : r ∈ requirements) (monotone : r.IsMonotone) :
    larger.Extends (r.meet table) where
  keys u := by rw [Requirement.meet, keys_add, h.keys]
  subset u t member := by
    rcases mem_get_add.mp member with old | ⟨rfl, key, asked⟩
    · exact h.subset u t old
    · exact met.mem_get listed ((h.keys r.owner).mpr key) (monotone table larger h t asked)

/-- However far a table is filled, it stays below every table that it was below at the
start and that has all its requirements met. -/
theorem Extends.saturate (h : larger.Extends table) (met : larger.Meets requirements)
    (monotone : ∀ r ∈ requirements, r.IsMonotone) (passes : Nat) :
    larger.Extends (saturate requirements passes table) :=
  saturate_induction (motive := larger.Extends) h
    (fun r listed _ below => below.meet met listed (monotone r listed)) passes

end SetTable

namespace Grammar

variable {g : Grammar} {start : Symbol} {r : Requirement}

theorem isMonotone_of_mem_firstRequirements (listed : r ∈ g.firstRequirements) :
    r.IsMonotone := by
  obtain ⟨s, p, -, rfl⟩ := mem_firstRequirements.mp listed
  exact fun _ _ h _ member => h.mem_firstOfSequence member

theorem isMonotone_of_mem_followRequirements {first : SetTable}
    (listed : r ∈ g.followRequirements first) : r.IsMonotone := by
  obtain ⟨s, before, t, rest, -, rfl⟩ := mem_followRequirements.mp listed
  exact fun _ _ h _ member => startsOf_mono (h.subset s) member

/-- The FIRST sets are the least: whatever sets hold all that the productions ask for
hold all that the FIRST sets hold. -/
theorem extends_first (keys : ∀ s, s ∈ table.keys ↔ g.isNonterminal s = true)
    (met : table.Meets g.firstRequirements) : table.Extends g.first := by
  have start : table.Extends g.emptyTable :=
    ⟨fun s => by rw [keys, keys_emptyTable, isNonterminal_iff],
      fun _ _ member => absurd member not_mem_get_emptyTable⟩
  exact start.saturate met (fun _ => isMonotone_of_mem_firstRequirements) _

/-- The FOLLOW sets are the least with the end marker after the start symbol. -/
theorem extends_follow (keys : ∀ s, s ∈ table.keys ↔ g.isNonterminal s = true)
    (ends : endMarker ∈ table.get start) (met : table.Meets (g.followRequirements g.first)) :
    table.Extends (g.follow start) := by
  refine SetTable.Extends.saturate ⟨fun s => ?_, fun s x member => ?_⟩ met
    (fun _ => isMonotone_of_mem_followRequirements) _
  · rw [keys, SetTable.keys_add, keys_emptyTable, isNonterminal_iff]
  · obtain ⟨rfl, -, rfl⟩ := mem_get_followStart.mp member
    exact ends

end Grammar

end LineBasic
