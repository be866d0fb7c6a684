/-!
# Classes of characters

A class of characters is listed as inclusive ranges of code points. Every class
the library needs (blanks, unprintable characters, decimal digits) is such a
list, so that membership is decided by one function.
-/

namespace LineBasic.Text

/-- Inclusive ranges of code points, from the lowest to the highest. -/
abbrev CodeRanges := List (Nat × Nat)

namespace CodeRanges

/-- A character belongs to the class when its code point lies in one of the
ranges. -/
def contains (ranges : CodeRanges) (c : Char) : Bool :=
  ranges.any fun range => decide (range.1 ≤ c.toNat) && decide (c.toNat ≤ range.2)

theorem contains_iff {ranges : CodeRanges} {c : Char} :
    ranges.contains c = true ↔ ∃ range ∈ ranges, range.1 ≤ c.toNat ∧ c.toNat ≤ range.2 := by
  simp [contains, List.any_eq_true]

end CodeRanges

end LineBasic.Text
