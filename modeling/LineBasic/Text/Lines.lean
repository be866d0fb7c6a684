/-!
# Lines of a text

Three passes over the characters of a text: cutting it at its line breaks,
writing every carriage return as a line feed, and reading the two characters
`\n` of a literal program as a line break.

## Main results

* `breakLines_unifyBreaks`: how a line break is written changes no line.
* `expandEscapes_eq_self`: a text without an escape stays as it is.
* `not_isLineBreak_of_mem_breakLines`: a line holds no line break.
-/

namespace LineBasic.Text

/-- The characters that end a line. A carriage return before a line feed ends
it together with the line feed. -/
def lineBreaks : List Char :=
  ['\n', '\r', '\x0b', '\x0c', '\x1c', '\x1d', '\x1e', '\u0085', '\u2028', '\u2029']

/-- Whether a character ends a line. -/
def isLineBreak (c : Char) : Bool :=
  lineBreaks.contains c

/-- The line `c` begins, put in front of the lines that follow it. -/
def consChar (c : Char) : List (List Char) → List (List Char)
  | [] => [[c]]
  | line :: lines => (c :: line) :: lines

/-- The lines of a text, without their breaks. A break at the very end adds no
empty line, and the empty text has no lines. -/
def breakLines : List Char → List (List Char)
  | [] => []
  -- the two characters are one break
  | '\r' :: '\n' :: cs => [] :: breakLines cs
  | c :: cs => if isLineBreak c then [] :: breakLines cs else consChar c (breakLines cs)

/-- Every carriage return, alone or before a line feed, becomes one line feed. -/
def unifyBreaks : List Char → List Char
  | [] => []
  | '\r' :: '\n' :: cs => '\n' :: unifyBreaks cs
  | c :: cs => (if c = '\r' then '\n' else c) :: unifyBreaks cs

/-- Every backslash before an `n` becomes, with it, one line feed. Pairs are
taken from the left and do not overlap. -/
def expandEscapes : List Char → List Char
  | [] => []
  | '\\' :: 'n' :: cs => '\n' :: expandEscapes cs
  | c :: cs => c :: expandEscapes cs

/-- A carriage return before a line feed apart, the first character alone decides
how the first line goes on. -/
theorem breakLines_cons {c : Char} {cs : List Char} (h : c = '\r' → cs.head? ≠ some '\n') :
    breakLines (c :: cs) =
      if isLineBreak c then [] :: breakLines cs else consChar c (breakLines cs) := by
  rw [breakLines]
  rintro ds rfl rfl
  exact h rfl rfl

/-- Writing carriage returns as line feeds changes no line. -/
theorem breakLines_unifyBreaks (cs : List Char) : breakLines (unifyBreaks cs) = breakLines cs := by
  fun_induction unifyBreaks cs with
  | case1 => rfl
  | case2 cs ih => rw [breakLines_cons (by simp), if_pos (by decide), ih, breakLines]
  | case3 c cs alone ih =>
    have notPair : c = '\r' → cs.head? ≠ some '\n' := by
      intro isReturn isFeed
      obtain ⟨ds, rfl⟩ := List.head?_eq_some_iff.mp isFeed
      exact alone ds isReturn rfl
    -- no carriage return is left that could make a pair on the other side
    rw [breakLines_cons notPair, breakLines_cons (by split <;> simp_all), ih]
    by_cases isReturn : c = '\r'
    · subst isReturn
      rfl
    · rw [if_neg isReturn]

/-- A text without an escape stays as it is. -/
theorem expandEscapes_eq_self {cs : List Char} (h : ¬ ['\\', 'n'] <:+: cs) :
    expandEscapes cs = cs := by
  fun_induction expandEscapes cs with
  | case1 => rfl
  | case2 cs => exact absurd (List.prefix_append ['\\', 'n'] cs).isInfix h
  | case3 c cs _ ih => rw [ih fun inside => h (List.infix_cons inside)]

/-- No line holds a line break. -/
theorem not_isLineBreak_of_mem_breakLines {cs line : List Char} (h : line ∈ breakLines cs) :
    ∀ c ∈ line, isLineBreak c = false := by
  fun_induction breakLines cs generalizing line with
  | case1 => simp at h
  | case2 cs ih =>
    rcases List.mem_cons.mp h with rfl | h
    · simp
    · exact ih h
  | case3 c cs _ _ ih =>
    rcases List.mem_cons.mp h with rfl | h
    · simp
    · exact ih h
  | case4 c cs _ plain ih =>
    -- the character joins the first of the lines that follow, if there is one
    have plain := Bool.eq_false_iff.mpr plain
    cases lines : breakLines cs with
    | nil =>
      rw [lines, consChar, List.mem_singleton] at h
      simpa [h] using plain
    | cons first rest =>
      rw [lines, consChar] at h
      rcases List.mem_cons.mp h with rfl | h
      · exact List.forall_mem_cons.mpr ⟨plain, ih (lines ▸ List.mem_cons_self)⟩
      · exact ih (lines ▸ List.mem_cons_of_mem _ h)

/-- The lines of a text. -/
def lines (text : String) : List String :=
  (breakLines text.toList).map String.ofList

/-- The lines of a stored text, whose carriage returns count as line feeds. -/
def storedLines (text : String) : List String :=
  (breakLines (unifyBreaks text.toList)).map String.ofList

theorem storedLines_eq_lines (text : String) : storedLines text = lines text := by
  rw [storedLines, lines, breakLines_unifyBreaks]

/-- The lines of a literal program, in which a backslash and an `n` stand for a
line break. -/
def literalLines (text : String) : List String :=
  (breakLines (expandEscapes text.toList)).map String.ofList

theorem literalLines_eq_lines {text : String} (h : ¬ ['\\', 'n'] <:+: text.toList) :
    literalLines text = lines text := by
  rw [literalLines, lines, expandEscapes_eq_self h]

end LineBasic.Text
