import LineBasic.Proofs.Report.Contract

/-!
# Lines written as a literal program

A program of several lines fits into one argument if its lines are joined by escapes. Reading the
escapes as line breaks and cutting the text at them gives the lines back. A line may begin with an
`n` or end with a backslash: pairs are taken from the left, and the backslash of a line comes
before that of the escape behind it. Only an empty line at the end is lost.

## Main results

* `Text.expandEscapes_intercalate`: escapes between lines become line breaks, and nothing else.
* `Text.breakLines_intercalate`: cutting joined lines apart.
* `checkSource_intercalate`: lines joined by escapes are checked as the lines that they are.
-/

namespace LineBasic

namespace Text

variable {c : Char} {cs : List Char} {lines : List (List Char)}

/-! ### Escapes -/

/-- A character that begins no escape stays. -/
theorem expandEscapes_cons (h : ¬ ['\\', 'n'] <+: c :: cs) :
    expandEscapes (c :: cs) = c :: expandEscapes cs := by
  rw [expandEscapes]
  rintro ds rfl rfl
  exact h (List.prefix_append ['\\', 'n'] ds)

/-- Behind characters without an escape, an escape is read as such, even if the last of them is
a backslash. -/
theorem expandEscapes_append_escape (h : ¬ ['\\', 'n'] <:+: cs) (ds : List Char) :
    expandEscapes (cs ++ '\\' :: 'n' :: ds) = cs ++ '\n' :: expandEscapes ds := by
  induction cs with
  | nil => rw [List.nil_append, expandEscapes, List.nil_append]
  | cons c cs ih =>
    rw [List.infix_cons_iff, not_or] at h
    have noEscape : ¬ ['\\', 'n'] <+: c :: (cs ++ '\\' :: 'n' :: ds) := by
      intro escape
      obtain ⟨rfl, second⟩ := List.cons_prefix_cons.mp escape
      -- behind the last character of a line stands a backslash, and no `n`
      cases cs with
      | nil => exact absurd (List.cons_prefix_cons.mp second).1 (by decide)
      | cons d cs =>
        obtain ⟨rfl, -⟩ := List.cons_prefix_cons.mp second
        exact h.1 (List.prefix_append ['\\', 'n'] cs)
    rw [List.cons_append, expandEscapes_cons noEscape, ih h.2, List.cons_append]

/-- Escapes between lines become line breaks, and nothing else does. -/
theorem expandEscapes_intercalate (noEscape : ∀ line ∈ lines, ¬ ['\\', 'n'] <:+: line) :
    expandEscapes (['\\', 'n'].intercalate lines) = ['\n'].intercalate lines := by
  induction lines with
  | nil => rfl
  | cons line lines ih =>
    obtain ⟨here, later⟩ := List.forall_mem_cons.mp noEscape
    cases lines with
    | nil => rw [List.intercalate_singleton, List.intercalate_singleton, expandEscapes_eq_self here]
    | cons next lines =>
      rw [List.intercalate_cons_cons, List.intercalate_cons_cons, ← ih later, List.append_assoc,
        List.append_assoc]
      exact expandEscapes_append_escape here _

/-! ### Line breaks -/

theorem breakLines_cons_of_not_isLineBreak (plain : isLineBreak c = false) (cs : List Char) :
    breakLines (c :: cs) = consChar c (breakLines cs) := by
  have noReturn : c = '\r' → cs.head? ≠ some '\n' := by
    rintro rfl
    exact absurd plain (by decide)
  rw [breakLines_cons noReturn, plain, if_neg Bool.false_ne_true]

/-- Characters without a line break make up one line, if there are any. -/
theorem breakLines_of_not_isLineBreak (plain : ∀ c ∈ cs, isLineBreak c = false) :
    breakLines cs = if cs = [] then [] else [cs] := by
  induction cs with
  | nil => rfl
  | cons c cs ih =>
    obtain ⟨here, later⟩ := List.forall_mem_cons.mp plain
    rw [breakLines_cons_of_not_isLineBreak here, ih later, if_neg (List.cons_ne_nil c cs)]
    by_cases last : cs = []
    · rw [if_pos last, last, consChar]
    · rw [if_neg last, consChar]

/-- A line feed ends the line before it, whatever follows. -/
theorem breakLines_append_newline (plain : ∀ c ∈ cs, isLineBreak c = false) (ds : List Char) :
    breakLines (cs ++ '\n' :: ds) = cs :: breakLines ds := by
  induction cs with
  | nil =>
    have noReturn : '\n' = '\r' → ds.head? ≠ some '\n' := fun same => absurd same (by decide)
    rw [List.nil_append, breakLines_cons noReturn]
    exact if_pos (by decide)
  | cons c cs ih =>
    obtain ⟨here, later⟩ := List.forall_mem_cons.mp plain
    rw [List.cons_append, breakLines_cons_of_not_isLineBreak here, ih later, consChar]

/-- Joined lines are cut apart again. An empty line at the end is not there any more. -/
theorem breakLines_intercalate
    (plain : ∀ line ∈ lines, ∀ c ∈ line, isLineBreak c = false) :
    breakLines (['\n'].intercalate lines) =
      if lines.getLast? = some [] then lines.dropLast else lines := by
  induction lines with
  | nil => rfl
  | cons line lines ih =>
    obtain ⟨here, later⟩ := List.forall_mem_cons.mp plain
    cases lines with
    | nil =>
      rw [List.intercalate_singleton, breakLines_of_not_isLineBreak here]
      simp
    | cons next lines =>
      rw [List.intercalate_cons_cons, List.append_assoc, List.singleton_append,
        breakLines_append_newline here, ih later, List.getLast?_cons_cons]
      split <;> rfl

/-- Lines joined by escapes are the lines of the literal program. -/
theorem literalLines_intercalate {lines : List String}
    (plain : ∀ line ∈ lines, (∀ c ∈ line.toList, isLineBreak c = false) ∧
      ¬ ['\\', 'n'] <:+: line.toList)
    (last : lines.getLast? ≠ some "") :
    literalLines ("\\n".intercalate lines) = lines := by
  have unbroken : ∀ line ∈ lines.map String.toList, ∀ c ∈ line, isLineBreak c = false :=
    List.forall_mem_map.mpr fun line member => (plain line member).1
  have noEscape : ∀ line ∈ lines.map String.toList, ¬ ['\\', 'n'] <:+: line :=
    List.forall_mem_map.mpr fun line member => (plain line member).2
  have notEmpty : (lines.map String.toList).getLast? ≠ some [] := by
    rw [List.getLast?_map]
    intro empty
    obtain ⟨line, found, same⟩ := Option.map_eq_some_iff.mp empty
    exact last (found.trans (congrArg some (String.toList_eq_nil_iff.mp same)))
  have escape : "\\n".toList = ['\\', 'n'] := by decide
  rw [literalLines, String.toList_intercalate, escape, expandEscapes_intercalate noEscape,
    breakLines_intercalate unbroken, if_neg notEmpty, List.map_map]
  simp [Function.comp_def]

end Text

/-- Lines that are joined by escapes are checked as the lines that they are. No line may hold a
line break or an escape, and the last may not be empty. -/
theorem checkSource_intercalate (options : CheckOptions) (env : Environment)
    {lines : List String}
    (plain : ∀ line ∈ lines, (∀ c ∈ line.toList, Text.isLineBreak c = false) ∧
      ¬ ['\\', 'n'] <:+: line.toList)
    (last : lines.getLast? ≠ some "") :
    checkSource options env true ("\\n".intercalate lines) = .ok (checkLines options lines) := by
  rw [checkSource, if_pos rfl, checkLiteral, Text.literalLines_intercalate plain last]

/-- Lines that begin with an `n`, end with a backslash, or are empty. -/
def awkwardLines : List String :=
  ["while n < 1; n = 2", "", "next: write n", "n = \\", "$$"]

theorem checkSource_intercalate_awkwardLines :
    (∀ line ∈ awkwardLines, (∀ c ∈ line.toList, Text.isLineBreak c = false) ∧
      ¬ ['\\', 'n'] <:+: line.toList) ∧
    awkwardLines.getLast? ≠ some "" ∧
    "\\n".intercalate awkwardLines =
      "while n < 1; n = 2\\n\\nnext: write n\\nn = \\\\n$$" ∧
    ∀ options env, checkSource options env true ("\\n".intercalate awkwardLines) =
      .ok (checkLines options awkwardLines) := by
  have plain : ∀ line ∈ awkwardLines, (∀ c ∈ line.toList, Text.isLineBreak c = false) ∧
      ¬ ['\\', 'n'] <:+: line.toList := by
    have unbroken : awkwardLines.all (·.toList.all (!Text.isLineBreak ·)) = true := by
      decide +kernel
    intro line member
    refine ⟨by simpa using List.all_eq_true.mp unbroken line member, ?_⟩
    simp only [awkwardLines, List.mem_cons, List.not_mem_nil, or_false] at member
    rcases member with rfl | rfl | rfl | rfl | rfl <;>
      simp [List.infix_cons_iff, List.cons_prefix_cons]
  have last : awkwardLines.getLast? ≠ some "" := by decide
  exact ⟨plain, last, by decide, fun options env => checkSource_intercalate options env plain last⟩

end LineBasic
