import LineBasic.Grammar.SetTable
import Mathlib.Data.List.Perm.Subperm

/-!
# Filling a table comes to an end

Meeting a requirement never takes a symbol out of a set, so a pass that changes
a table makes it larger. A table whose sets cannot grow beyond a bound is
therefore left unchanged by some pass, and then every requirement is met.

## Main results

* `SetTable.saturate_induction`: what meeting one requirement preserves holds of
  the filled table.
* `SetTable.Within.meets_saturate`: if only symbols of one list can ever be added,
  the filled table meets all requirements after enough passes.
-/

namespace LineBasic

namespace SymbolSet

variable {a b : SymbolSet}

theorem length_le_length_union (a b : SymbolSet) :
    a.toList.length ≤ (a ∪ b).toList.length :=
  (List.subperm_of_subset a.nodup_toList fun _ member => mem_union.mpr (.inl member)).length_le

/-- A union that is no larger than its left side adds nothing to it. -/
theorem union_eq_left_of_length_le (h : (a ∪ b).toList.length ≤ a.toList.length) :
    a ∪ b = a := by
  have subperm : a.toList.Subperm (a ∪ b).toList :=
    List.subperm_of_subset a.nodup_toList fun _ member => mem_union.mpr (.inl member)
  exact ext fun s => (subperm.perm_of_length_le h).mem_iff.symm

end SymbolSet

/-- In a list of pairs with distinct keys, looking up a key finds the pair that
has it. -/
theorem lookup_eq_some_iff_mem {α : Type} {pairs : List (Symbol × α)}
    (distinct : (pairs.map Prod.fst).Nodup) {s : Symbol} {a : α} :
    pairs.lookup s = some a ↔ (s, a) ∈ pairs := by
  induction pairs with
  | nil => simp
  | cons pair pairs ih =>
    obtain ⟨t, b⟩ := pair
    rw [List.map_cons, List.nodup_cons] at distinct
    rw [List.lookup_cons, List.mem_cons]
    by_cases same : s = t
    · -- no later pair has this key
      subst same
      have absent : (s, a) ∉ pairs := fun member =>
        distinct.1 (List.mem_map.mpr ⟨_, member, rfl⟩)
      simp [absent, eq_comm]
    · rw [beq_false_of_ne same]
      simp [same, ih distinct.2]

namespace SetTable

variable {table : SetTable} {s t u : Symbol} {more : SymbolSet}

@[simp] theorem keys_add : (table.add s more).keys = table.keys := by
  rw [keys, add, List.map_map]
  refine List.map_congr_left fun entry _ => ?_
  rw [Function.comp_apply]
  split <;> rfl

theorem add_cons (entry : Symbol × SymbolSet) (table : SetTable) :
    add (entry :: table) s more =
      (if entry.1 = s then (entry.1, entry.2 ∪ more) else entry) :: add table s more := rfl

theorem lookup_add : (table.add s more).lookup u =
    (table.lookup u).map fun set => if u = s then set ∪ more else set := by
  induction table with
  | nil => rfl
  | cons entry table ih =>
    obtain ⟨key, set⟩ := entry
    have sameKey : (if key = s then (key, set ∪ more) else (key, set)) =
        (key, if key = s then set ∪ more else set) := by split <;> rfl
    rw [add_cons, sameKey, List.lookup_cons, List.lookup_cons]
    by_cases here : u = key
    · simp [here]
    · rw [beq_false_of_ne here]
      exact ih

theorem lookup_eq_none_iff : table.lookup u = none ↔ u ∉ table.keys := by
  rw [List.lookup_eq_none_iff, keys, List.mem_map]
  constructor
  · rintro absent ⟨entry, member, rfl⟩
    simpa using absent entry member
  · intro absent entry member
    simpa using fun same => absent ⟨entry, member, same.symm⟩

theorem mem_get_add : t ∈ (table.add s more).get u ↔
    t ∈ table.get u ∨ u = s ∧ u ∈ table.keys ∧ t ∈ more := by
  rw [get, get, lookup_add]
  cases found : table.lookup u with
  | none => simp [lookup_eq_none_iff.mp found]
  | some set =>
    have key : u ∈ table.keys := by
      by_contra absent
      exact nomatch found.symm.trans (lookup_eq_none_iff.mpr absent)
    rw [Option.map_some, Option.getD_some, Option.getD_some]
    by_cases here : u = s
    · rw [if_pos here, SymbolSet.mem_union]
      exact or_congr_right ⟨fun member => ⟨here, key, member⟩, fun added => added.2.2⟩
    · rw [if_neg here]
      simp [here]

/-- How many symbols the sets of a table hold together. -/
def size : SetTable → Nat
  | [] => 0
  | entry :: table => entry.2.toList.length + size table

theorem size_cons (entry : Symbol × SymbolSet) (table : SetTable) :
    size (entry :: table) = entry.2.toList.length + size table := rfl

theorem size_le_size_add : table.size ≤ (table.add s more).size := by
  induction table with
  | nil => exact Nat.le_refl _
  | cons entry table ih =>
    rw [add_cons, size_cons, size_cons]
    refine Nat.add_le_add ?_ ih
    split
    · exact SymbolSet.length_le_length_union _ _
    · exact Nat.le_refl _

/-- Adding symbols changes nothing unless the table gets larger. -/
theorem add_eq_self_of_size_le (h : (table.add s more).size ≤ table.size) :
    table.add s more = table := by
  induction table with
  | nil => rfl
  | cons entry table ih =>
    have later : size table ≤ size (add table s more) := size_le_size_add
    rw [add_cons, size_cons, size_cons] at h
    rw [add_cons]
    split at h
    case isTrue here =>
      -- neither this set nor the rest of the table has shrunk, so neither has grown
      have now := SymbolSet.length_le_length_union entry.2 more
      have noLarger : (entry.2 ∪ more).toList.length ≤ entry.2.toList.length := by
        dsimp only at h
        omega
      have same := SymbolSet.union_eq_left_of_length_le noLarger
      rw [same] at h ⊢
      rw [if_pos here, ih (by dsimp only at h; omega)]
    case isFalse elsewhere =>
      rw [if_neg elsewhere, ih (by omega)]

theorem get_eq_of_mem (distinct : table.keys.Nodup) {entry : Symbol × SymbolSet}
    (member : entry ∈ table) : table.get entry.1 = entry.2 := by
  rw [get, (lookup_eq_some_iff_mem distinct).mpr member, Option.getD_some]

/-- Whether the sets of a table hold symbols of one list only. -/
def Within (table : SetTable) (symbols : List Symbol) : Prop :=
  ∀ s, ∀ t ∈ table.get s, t ∈ symbols

/-- A table with short sets only is as large as they allow. -/
theorem size_le_of_forall_length_le {bound : Nat}
    (short : ∀ entry ∈ table, entry.2.toList.length ≤ bound) :
    table.size ≤ table.keys.length * bound := by
  induction table with
  | nil => exact Nat.zero_le _
  | cons entry table ih =>
    obtain ⟨here, later⟩ := List.forall_mem_cons.mp short
    have rest := ih later
    rw [size_cons, keys, List.map_cons, List.length_cons, Nat.succ_mul, Nat.add_comm]
    exact Nat.add_le_add rest here

theorem Within.size_le {symbols : List Symbol} (within : table.Within symbols)
    (distinct : table.keys.Nodup) : table.size ≤ table.keys.length * symbols.length := by
  refine size_le_of_forall_length_le fun entry member => ?_
  refine (List.subperm_of_subset entry.2.nodup_toList fun t inSet => ?_).length_le
  refine within entry.1 t ?_
  rw [get_eq_of_mem distinct member]
  exact inSet

/-- Whether a requirement never asks for symbols outside a list, given a table
without such symbols. -/
def AsksWithin (r : Requirement) (symbols : List Symbol) : Prop :=
  ∀ table : SetTable, table.Within symbols → ∀ t ∈ r.members table, t ∈ symbols

/-- Whether a table already holds all that requirements ask for. -/
def Meets (table : SetTable) (requirements : List Requirement) : Prop :=
  ∀ r ∈ requirements, r.meet table = table

/-- A table that meets requirements holds what they ask for. -/
theorem Meets.mem_get {requirements : List Requirement} (h : table.Meets requirements)
    {r : Requirement} (listed : r ∈ requirements) (key : r.owner ∈ table.keys)
    (asked : t ∈ r.members table) : t ∈ table.get r.owner := by
  have same : table.add r.owner (r.members table) = table := h r listed
  rw [← same]
  exact mem_get_add.mpr (.inr ⟨rfl, key, asked⟩)

section Passes

variable {requirements : List Requirement}

theorem size_le_size_meetAll : table.size ≤ (table.meetAll requirements).size := by
  induction requirements generalizing table with
  | nil => exact Nat.le_refl _
  | cons r requirements ih => exact Nat.le_trans size_le_size_add ih

theorem meetAll_eq_self (h : table.Meets requirements) : table.meetAll requirements = table := by
  induction requirements with
  | nil => rfl
  | cons r requirements ih =>
    obtain ⟨here, later⟩ := List.forall_mem_cons.mp h
    rw [meetAll, List.foldl_cons, here]
    exact ih later

/-- A pass that does not make a table larger finds every requirement met. -/
theorem meets_of_size_meetAll_le (h : (table.meetAll requirements).size ≤ table.size) :
    table.Meets requirements := by
  induction requirements with
  | nil => exact fun _ member => absurd member List.not_mem_nil
  | cons r requirements ih =>
    have later : (r.meet table).size ≤ ((r.meet table).meetAll requirements).size :=
      size_le_size_meetAll
    have here : r.meet table = table := add_eq_self_of_size_le (Nat.le_trans later h)
    rw [meetAll, List.foldl_cons, here] at h
    exact List.forall_mem_cons.mpr ⟨here, ih h⟩

theorem meetAll_induction {motive : SetTable → Prop} (start : motive table)
    (step : ∀ r ∈ requirements, ∀ table, motive table → motive (r.meet table)) :
    motive (table.meetAll requirements) := by
  induction requirements generalizing table with
  | nil => exact start
  | cons r requirements ih =>
    obtain ⟨here, later⟩ := List.forall_mem_cons.mp step
    exact ih (here table start) later

/-- What holds at the start and is preserved by meeting one requirement holds of
the filled table. -/
theorem saturate_induction {motive : SetTable → Prop} (start : motive table)
    (step : ∀ r ∈ requirements, ∀ table, motive table → motive (r.meet table)) (passes : Nat) :
    motive (saturate requirements passes table) := by
  induction passes generalizing table with
  | zero => exact start
  | succ passes ih =>
    rw [saturate]
    split
    · exact start
    · exact ih (meetAll_induction start step)

/-- Passes that outnumber the symbols that can still be added leave nothing to
add. -/
private theorem meets_saturate_of_size_le {motive : SetTable → Prop} {bound : Nat}
    (start : motive table)
    (step : ∀ r ∈ requirements, ∀ table, motive table → motive (r.meet table))
    (bounded : ∀ table, motive table → table.size ≤ bound) {passes : Nat}
    (enough : bound < table.size + passes) :
    (saturate requirements passes table).Meets requirements := by
  induction passes generalizing table with
  | zero =>
    -- without a pass left the table would be larger than the bound
    exact absurd (bounded table start) (by omega)
  | succ passes ih =>
    rw [saturate]
    by_cases larger : (table.meetAll requirements).size ≤ table.size
    · have met := meets_of_size_meetAll_le larger
      rw [if_pos (meetAll_eq_self met)]
      exact met
    · -- a pass that makes the table larger brings it closer to the bound
      rw [if_neg fun same => larger (Nat.le_of_eq (congrArg size same))]
      exact ih (meetAll_induction start step) (by omega)

theorem Within.meet {symbols : List Symbol} (within : table.Within symbols) {r : Requirement}
    (closed : AsksWithin r symbols) : (r.meet table).Within symbols := by
  intro s t member
  rcases mem_get_add.mp member with old | ⟨-, -, new⟩
  · exact within s t old
  · exact closed table within t new

/-- Filling a table adds only what its requirements ask for. -/
theorem Within.saturate {symbols : List Symbol} (within : table.Within symbols)
    (closed : ∀ r ∈ requirements, AsksWithin r symbols) (passes : Nat) :
    (saturate requirements passes table).Within symbols :=
  saturate_induction (motive := fun table => table.Within symbols) within
    (fun r listed _ within => within.meet (closed r listed)) passes

theorem keys_saturate (passes : Nat) :
    (saturate requirements passes table).keys = table.keys :=
  saturate_induction (motive := fun other => other.keys = table.keys) rfl
    (fun _ _ _ same => keys_add.trans same) passes

/-- If requirements never ask for symbols outside a list, then after enough passes
over them all are met. -/
theorem Within.meets_saturate {symbols : List Symbol} (within : table.Within symbols)
    (closed : ∀ r ∈ requirements, AsksWithin r symbols) (distinct : table.keys.Nodup)
    {passes : Nat} (enough : table.keys.length * symbols.length < passes) :
    (LineBasic.saturate requirements passes table).Meets requirements := by
  refine meets_saturate_of_size_le
    (motive := fun other => other.keys = table.keys ∧ other.Within symbols)
    ⟨rfl, within⟩ ?_ ?_ (Nat.lt_of_lt_of_le enough (Nat.le_add_left _ _))
  · rintro r listed other ⟨sameKeys, within⟩
    exact ⟨keys_add.trans sameKeys, within.meet (closed r listed)⟩
  · rintro other ⟨sameKeys, within⟩
    rw [← sameKeys] at distinct ⊢
    exact within.size_le distinct

/-- Passing over requirements from one table on, however many passes it takes, ends
with another one: the last pass adds nothing. -/
inductive Settles (requirements : List Requirement) : SetTable → SetTable → Prop
  | done {table : SetTable} (h : table.meetAll requirements = table) :
      Settles requirements table table
  | pass {table result : SetTable} (h : table.meetAll requirements ≠ table)
      (later : Settles requirements (table.meetAll requirements) result) :
      Settles requirements table result

/-- A limit on the passes that leaves nothing to add is no limit. -/
theorem settles_saturate {passes : Nat}
    (h : (saturate requirements passes table).Meets requirements) :
    Settles requirements table (saturate requirements passes table) := by
  induction passes generalizing table with
  | zero => exact .done (meetAll_eq_self h)
  | succ passes ih =>
    rw [saturate] at h ⊢
    split
    case isTrue same => exact .done same
    case isFalse changed =>
      rw [if_neg changed] at h
      exact .pass changed (ih h)

end Passes

end SetTable

end LineBasic
