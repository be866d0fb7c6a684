/-!
# Sets of grammar symbols

A symbol is a name. A set of symbols is kept as the list of its members in
increasing order, so that equal sets are the same list and every set is written
in one way.

## Main results

* `SymbolSet.ext`: sets with the same members are equal.
* `SymbolSet.mem_insert`, `mem_union`, `mem_erase`, `mem_inter`: the members of
  what the operations make.
-/

namespace LineBasic

/-- A grammar symbol, terminal or not. -/
abbrev Symbol := String

/-- A finite set of symbols. -/
structure SymbolSet where
  toList : List Symbol
  increasing : toList.Pairwise (· < ·)
  deriving DecidableEq

namespace SymbolSet

instance : Membership Symbol SymbolSet where
  mem set s := s ∈ set.toList

instance (s : Symbol) (set : SymbolSet) : Decidable (s ∈ set) :=
  inferInstanceAs (Decidable (s ∈ set.toList))

theorem mem_toList {s : Symbol} {set : SymbolSet} : s ∈ set.toList ↔ s ∈ set := Iff.rfl

/-- The set without members. -/
def empty : SymbolSet := ⟨[], .nil⟩

instance : EmptyCollection SymbolSet := ⟨empty⟩

/-- The set with one member. -/
def singleton (s : Symbol) : SymbolSet := ⟨[s], List.pairwise_singleton ..⟩

/-- Put a symbol into an increasing list, unless it is there already. -/
def insertInto (s : Symbol) : List Symbol → List Symbol
  | [] => [s]
  | t :: ts => if s < t then s :: t :: ts else if s = t then t :: ts else t :: insertInto s ts

theorem mem_insertInto {s u : Symbol} {ts : List Symbol} :
    u ∈ insertInto s ts ↔ u = s ∨ u ∈ ts := by
  induction ts with
  | nil => simp [insertInto]
  | cons t ts ih =>
    unfold insertInto
    split
    · simp
    split
    · rename_i same
      simp [same]
    · simp only [List.mem_cons, ih]
      constructor <;> rintro (h | h | h) <;> simp [h]

theorem pairwise_insertInto (s : Symbol) {ts : List Symbol} (h : ts.Pairwise (· < ·)) :
    (insertInto s ts).Pairwise (· < ·) := by
  induction ts with
  | nil => exact List.pairwise_singleton ..
  | cons t ts ih =>
    obtain ⟨least, rest⟩ := List.pairwise_cons.mp h
    unfold insertInto
    split
    case isTrue less =>
      refine List.pairwise_cons.mpr ⟨fun u member => ?_, h⟩
      rcases List.mem_cons.mp member with rfl | later
      · exact less
      · exact String.lt_trans less (least u later)
    case isFalse notLess =>
      split
      · exact h
      -- `t` keeps its place in front, below the new symbol as well
      case isFalse different =>
        refine List.pairwise_cons.mpr ⟨fun u member => ?_, ih rest⟩
        rcases mem_insertInto.mp member with rfl | later
        · refine String.not_le.mp fun atMost => different ?_
          exact String.le_antisymm atMost (String.not_lt.mp notLess)
        · exact least u later

/-- The set with one more member. -/
def insert (set : SymbolSet) (s : Symbol) : SymbolSet :=
  ⟨insertInto s set.toList, pairwise_insertInto s set.increasing⟩

/-- The members of either set. -/
def union (a b : SymbolSet) : SymbolSet :=
  b.toList.foldl insert a

instance : Union SymbolSet := ⟨union⟩

/-- The set without one member. -/
def erase (set : SymbolSet) (s : Symbol) : SymbolSet :=
  ⟨set.toList.filter (· ≠ s), set.increasing.filter _⟩

/-- The members of both sets. -/
def inter (a b : SymbolSet) : SymbolSet :=
  ⟨a.toList.filter (· ∈ b), a.increasing.filter _⟩

/-- The set of the members of a list. -/
def ofList (symbols : List Symbol) : SymbolSet :=
  symbols.foldl insert ∅

/-- The union of a list of sets. -/
def unionAll (sets : List SymbolSet) : SymbolSet :=
  sets.foldr (· ∪ ·) ∅

/-- Whether the set has no members. -/
def isEmpty (set : SymbolSet) : Bool :=
  set.toList.isEmpty

/-- The set in braces, its members separated by commas. -/
def display (set : SymbolSet) : String :=
  "\x7b" ++ ", ".intercalate set.toList ++ "\x7d"

@[simp] theorem not_mem_empty (s : Symbol) : s ∉ (∅ : SymbolSet) := List.not_mem_nil

@[simp] theorem mem_singleton {s t : Symbol} : s ∈ singleton t ↔ s = t := List.mem_singleton

@[simp] theorem mem_insert {s t : Symbol} {set : SymbolSet} :
    s ∈ set.insert t ↔ s = t ∨ s ∈ set := mem_insertInto

/-- Inserting the members of a list one by one. -/
theorem mem_foldl_insert {s : Symbol} {symbols : List Symbol} {set : SymbolSet} :
    s ∈ symbols.foldl insert set ↔ s ∈ set ∨ s ∈ symbols := by
  induction symbols generalizing set with
  | nil => simp
  | cons t ts ih =>
    simp only [List.foldl_cons, ih, mem_insert, List.mem_cons]
    rw [or_comm (a := s = t), or_assoc]

@[simp] theorem mem_union {s : Symbol} {a b : SymbolSet} : s ∈ a ∪ b ↔ s ∈ a ∨ s ∈ b :=
  mem_foldl_insert

@[simp] theorem mem_erase {s t : Symbol} {set : SymbolSet} :
    s ∈ set.erase t ↔ s ∈ set ∧ s ≠ t := by
  change s ∈ set.toList.filter _ ↔ _
  simp [mem_toList]

@[simp] theorem mem_inter {s : Symbol} {a b : SymbolSet} : s ∈ a.inter b ↔ s ∈ a ∧ s ∈ b := by
  change s ∈ a.toList.filter _ ↔ _
  simp [mem_toList]

@[simp] theorem mem_ofList {s : Symbol} {symbols : List Symbol} :
    s ∈ ofList symbols ↔ s ∈ symbols := by
  simp [ofList, mem_foldl_insert]

@[simp] theorem mem_unionAll {s : Symbol} {sets : List SymbolSet} :
    s ∈ unionAll sets ↔ ∃ set ∈ sets, s ∈ set := by
  induction sets with
  | nil => simp [unionAll]
  | cons set sets ih =>
    change s ∈ set ∪ unionAll sets ↔ _
    simp [ih]

theorem isEmpty_iff {set : SymbolSet} : set.isEmpty = true ↔ ∀ s, s ∉ set := by
  rw [isEmpty, List.isEmpty_iff, List.eq_nil_iff_forall_not_mem]
  rfl

/-- No member of an increasing list comes twice. -/
theorem nodup_toList (set : SymbolSet) : set.toList.Nodup :=
  set.increasing.imp fun {_ _} less => by
    rintro rfl
    exact String.lt_irrefl _ less

/-- Sets with the same members are equal. -/
theorem ext {a b : SymbolSet} (h : ∀ s, s ∈ a ↔ s ∈ b) : a = b := by
  -- there is one way only to put the same members in increasing order
  have perm : a.toList.Perm b.toList :=
    (List.perm_ext_iff_of_nodup a.nodup_toList b.nodup_toList).mpr h
  have same := perm.eq_of_pairwise
    (fun _ _ _ _ less greater => absurd greater (String.lt_asymm less)) a.increasing b.increasing
  cases a
  cases b
  cases same
  rfl

end SymbolSet

end LineBasic
