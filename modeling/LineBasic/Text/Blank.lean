import LineBasic.Text.CodeRanges

/-!
# Blank characters

Blanks separate the words of a line and are dropped at both ends of a line
before it is compared with the end marker.

## Main results

* `trimBlanks_eq_iff`: what is left of a text without the blanks at its ends.
* `isBlank_eq_false_of_isAlphanum`: no word has a blank in it.
-/

namespace LineBasic.Text

/-- The blank characters: the white space controls, the four information
separators, the space, and the spaces and separators of Unicode. -/
def blankRanges : CodeRanges :=
  [(0x09, 0x0D), (0x1C, 0x20), (0x85, 0x85), (0xA0, 0xA0), (0x1680, 0x1680), (0x2000, 0x200A),
    (0x2028, 0x2029), (0x202F, 0x202F), (0x205F, 0x205F), (0x3000, 0x3000)]

/-- Whether a character is blank. -/
def isBlank (c : Char) : Bool :=
  blankRanges.contains c

/-- The characters without the blanks at either end. -/
def trimBlanks (cs : List Char) : List Char :=
  ((cs.dropWhile isBlank).reverse.dropWhile isBlank).reverse

/-- The text without the blanks at either end. -/
def trim (text : String) : String :=
  String.ofList (trimBlanks text.toList)

/-- Dropping blanks leaves what stands behind blanks and begins with none. -/
theorem dropWhile_isBlank_eq_iff {cs ds : List Char} :
    cs.dropWhile isBlank = ds ↔
      (∃ before, (∀ c ∈ before, isBlank c = true) ∧ cs = before ++ ds) ∧
        ∀ c ∈ ds.head?, isBlank c = false := by
  constructor
  · rintro rfl
    refine ⟨⟨cs.takeWhile isBlank, List.all_eq_true.mp List.all_takeWhile,
      List.takeWhile_append_dropWhile.symm⟩, ?_⟩
    intro c first
    have plain := List.head?_dropWhile_not isBlank cs
    rw [Option.mem_def.mp first] at plain
    exact plain
  · rintro ⟨⟨before, blank, rfl⟩, first⟩
    rw [List.dropWhile_append_of_pos blank]
    cases ds with
    | nil => rfl
    | cons c ds =>
      apply List.dropWhile_cons_of_neg
      rw [first c rfl]
      exact Bool.false_ne_true

/-- Trimming leaves what stands between blanks and has none at its own ends, and there is no
other such part. -/
theorem trimBlanks_eq_iff {cs ds : List Char} :
    trimBlanks cs = ds ↔
      (∃ before after, (∀ c ∈ before, isBlank c = true) ∧ (∀ c ∈ after, isBlank c = true) ∧
        cs = before ++ ds ++ after) ∧
      (∀ c ∈ ds.head?, isBlank c = false) ∧ ∀ c ∈ ds.getLast?, isBlank c = false := by
  rw [trimBlanks, List.reverse_eq_iff, dropWhile_isBlank_eq_iff, List.head?_reverse]
  constructor
  · rintro ⟨⟨behind, blank, split⟩, last⟩
    rw [List.reverse_eq_iff, List.reverse_append, List.reverse_reverse,
      dropWhile_isBlank_eq_iff] at split
    obtain ⟨⟨before, blank', rfl⟩, first⟩ := split
    refine ⟨⟨before, behind.reverse, blank', ?_, (List.append_assoc ..).symm⟩, ?_, last⟩
    · intro c member
      exact blank c (List.mem_reverse.mp member)
    · intro c member
      apply first
      rw [List.head?_append, Option.mem_def.mp member]
      rfl
  · rintro ⟨⟨before, after, blank, blank', rfl⟩, first, last⟩
    refine ⟨?_, last⟩
    cases ds with
    | nil =>
      -- all is blank, so that nothing is left to be dropped from behind
      refine ⟨[], List.forall_mem_nil _, ?_⟩
      rw [List.reverse_eq_iff, dropWhile_isBlank_eq_iff]
      refine ⟨⟨before ++ after, List.forall_mem_append.mpr ⟨blank, blank'⟩, ?_⟩, first⟩
      simp
    | cons d ds =>
      refine ⟨after.reverse, fun c member => blank' c (List.mem_reverse.mp member), ?_⟩
      rw [← List.reverse_append, List.reverse_inj, dropWhile_isBlank_eq_iff]
      exact ⟨⟨before, blank, List.append_assoc ..⟩, first⟩

/-- The code points of letters. -/
theorem toNat_of_isAlpha {c : Char} (h : c.isAlpha = true) : 0x41 ≤ c.toNat ∧ c.toNat ≤ 0x7A := by
  rcases Bool.or_eq_true_iff.mp h with upper | lower
  · have bounds : 'A'.val ≤ c.val ∧ c.val ≤ 'Z'.val := of_decide_eq_true upper
    simp only [UInt32.le_iff_toNat_le] at bounds
    exact ⟨bounds.1, Nat.le_trans bounds.2 (by decide)⟩
  · change (decide ('a'.val ≤ c.val) && decide (c.val ≤ 'z'.val)) = true at lower
    simp only [Bool.and_eq_true, decide_eq_true_eq, UInt32.le_iff_toNat_le] at lower
    exact ⟨Nat.le_trans (by decide) lower.1, lower.2⟩

/-- No letter or digit of a word is blank. -/
theorem isBlank_eq_false_of_isAlphanum {c : Char} (h : c.isAlphanum = true) :
    isBlank c = false := by
  have bounds : 0x30 ≤ c.toNat ∧ c.toNat ≤ 0x7A := by
    rcases Bool.or_eq_true_iff.mp h with letter | digit
    · exact ⟨Nat.le_trans (by decide) (toNat_of_isAlpha letter).1, (toNat_of_isAlpha letter).2⟩
    · have bounds := Char.isDigit_iff_toNat.mp digit
      exact ⟨bounds.1, Nat.le_trans bounds.2 (by decide)⟩
  apply Bool.eq_false_iff.mpr
  intro blank
  obtain ⟨range, member, low, high⟩ := CodeRanges.contains_iff.mp blank
  simp only [blankRanges, List.mem_cons, List.not_mem_nil, or_false] at member
  rcases member with rfl | rfl | rfl | rfl | rfl | rfl | rfl | rfl | rfl | rfl <;> omega

end LineBasic.Text
