import LineBasic.Proofs.Stopping
import LineBasic.Text.Lines

/-!
# Verdicts and the lines they are shown in

A verdict is shown in one line, and the line tells the verdict: the number in it is
followed by a colon, which no number contains, and the rest of the line is the message,
which tells the fault.

## Main results

* `Verdict.text_injective`: two verdicts shown alike are the same.
* `Verdict.not_isLineBreak_of_mem_text`: a verdict takes up no more than one line.
* `mem_known_of_run`: the faults that a check can report.
-/

namespace LineBasic

theorem isDigit_of_mem_repr {n : Nat} {c : Char} (h : c ∈ n.repr.toList) : c.isDigit = true := by
  rw [Nat.repr, String.toList_ofList] at h
  exact Nat.isDigit_of_mem_toDigits (by decide) (by decide) h

/-- A number is written with digits and, if it is negative, a minus sign. -/
theorem eq_minus_or_isDigit_of_mem_toString {n : Int} {c : Char} (h : c ∈ (toString n).toList) :
    c = '-' ∨ c.isDigit = true := by
  rw [Int.toString_eq_repr, Int.repr_eq_if] at h
  split at h
  · exact .inr (isDigit_of_mem_repr h)
  · rw [String.toList_append, List.mem_append] at h
    rcases h with sign | member
    · exact .inl (List.mem_singleton.mp sign)
    · exact .inr (isDigit_of_mem_repr member)

/-- The digits of a number tell the number. -/
theorem eq_of_repr_eq {m n : Nat} (h : m.repr = n.repr) : m = n := by
  have read := congrArg (fun digits => Nat.ofDigitChars 10 digits.toList 0) h
  simpa only [Nat.repr_eq_ofList_toDigits, String.toList_ofList,
    Nat.ofDigitChars_ten_toDigits] using read

/-- No digits begin with a minus sign. -/
theorem repr_ne_minus_append (n : Nat) (text : String) : n.repr ≠ "-" ++ text := by
  intro same
  have sign : '-' ∈ n.repr.toList := by
    rw [same, String.toList_append]
    exact List.mem_cons_self
  exact absurd (isDigit_of_mem_repr sign) (by decide)

/-- What is written tells the number. -/
theorem eq_of_toString_eq {m n : Int} (h : toString m = toString n) : m = n := by
  rw [Int.toString_eq_repr, Int.toString_eq_repr, Int.repr_eq_if, Int.repr_eq_if] at h
  split at h
  · split at h
    · have := eq_of_repr_eq h
      omega
    · exact absurd h (repr_ne_minus_append _ _)
  · split at h
    · exact absurd h.symm (repr_ne_minus_append _ _)
    · have := eq_of_repr_eq ((String.append_right_inj "-").mp h)
      omega

/-- What stands before the first colon does not depend on what follows it. -/
theorem eq_of_append_colon_eq {cs ds es fs : List Char} (first : ':' ∉ cs) (second : ':' ∉ ds)
    (h : cs ++ ':' :: es = ds ++ ':' :: fs) : cs = ds ∧ es = fs := by
  have front {gs : List Char} (hs : List Char) (none : ':' ∉ gs) :
      (gs ++ ':' :: hs).takeWhile (· ≠ ':') = gs := by
    have plain : ∀ c ∈ gs, decide (c ≠ ':') = true := by
      rintro c member
      exact decide_eq_true fun same => none (same ▸ member)
    rw [List.takeWhile_append_of_pos plain]
    simp
  have same : cs = ds := by
    rw [← front es first, h, front fs second]
  rw [same] at h
  exact ⟨same, (List.cons.inj (List.append_cancel_left h)).2⟩

namespace Verdict

theorem toList_text_rejected (line : Int) (fault : Fault) :
    (rejected line fault).text.toList =
      "Syntax error on line ".toList ++
        ((toString line).toList ++ ':' :: ' ' :: fault.message.toList) := by
  have joined : (rejected line fault).text =
      "Syntax error on line " ++ (toString line ++ (": " ++ fault.message)) := by
    unfold text
    dsimp only
    rw [String.append_assoc, String.append_assoc]
    rfl
  rw [joined, String.toList_append, String.toList_append, String.toList_append]
  rfl

/-- Two verdicts shown alike are the same. -/
theorem text_injective {v w : Verdict} (h : v.text = w.text) : v = w := by
  have noColon (n : Int) : ':' ∉ (toString n).toList := by
    intro member
    rcases eq_minus_or_isDigit_of_mem_toString member with same | digit
    · exact absurd same (by decide)
    · exact absurd digit (by decide)
  have characters := congrArg String.toList h
  cases v with
  | accepted =>
    cases w with
    | accepted => rfl
    | rejected line fault =>
      rw [toList_text_rejected] at characters
      exact absurd (List.cons.inj characters).1 (by decide)
  | rejected line fault =>
    cases w with
    | accepted =>
      rw [toList_text_rejected] at characters
      exact absurd (List.cons.inj characters).1 (by decide)
    | rejected line' fault' =>
      rw [toList_text_rejected, toList_text_rejected] at characters
      obtain ⟨number, message⟩ := eq_of_append_colon_eq (noColon line) (noColon line')
        (List.append_cancel_left characters)
      rw [eq_of_toString_eq (String.toList_inj.mp number),
        Fault.message_injective (String.toList_inj.mp (List.cons.inj message).2)]

/-- A verdict takes up no more than one line, if its message does. -/
theorem not_isLineBreak_of_mem_text {v : Verdict}
    (message : ∀ line fault, v = rejected line fault → fault ∈ Fault.known) :
    ∀ c ∈ v.text.toList, Text.isLineBreak c = false := by
  have isPlain : ∀ fault ∈ Fault.known,
      (fault.message.toList.all fun c => !Text.isLineBreak c) = true := by decide +kernel
  cases v with
  | accepted =>
    have plain : (accepted.text.toList.all fun c => !Text.isLineBreak c) = true := by decide
    simpa using plain
  | rejected line fault =>
    have words : ("Syntax error on line ".toList.all fun c => !Text.isLineBreak c) = true := by
      decide
    have plain := isPlain fault (message line fault rfl)
    intro c member
    rw [toList_text_rejected] at member
    simp only [List.mem_append, List.mem_cons] at member
    rcases member with member | member | rfl | rfl | member
    · simpa using List.all_eq_true.mp words c member
    · rcases eq_minus_or_isDigit_of_mem_toString member with rfl | digit
      · decide
      · apply Bool.eq_false_iff.mpr
        intro broken
        rw [Text.isLineBreak, List.contains_iff_mem] at broken
        simp only [Text.lineBreaks, List.mem_cons, List.not_mem_nil, or_false] at broken
        rcases broken with rfl | rfl | rfl | rfl | rfl | rfl | rfl | rfl | rfl | rfl <;>
          exact absurd digit (by decide)
    · decide
    · decide
    · simpa using List.all_eq_true.mp plain c member

end Verdict

variable {options : CheckOptions} {ctx : Context} {texts : List String} {number : Int}
  {fault : Fault}

theorem Fault.mem_known_of_isOfLine (h : fault.isOfLine = true) : fault ∈ known := by
  cases fault <;> first | decide | exact nomatch h

/-- The faults that a check can report are those that the library finds. -/
theorem mem_known_of_run (h : (runFrom options ctx texts).verdict = .rejected number fault) :
    fault ∈ Fault.known := by
  induction texts generalizing ctx with
  | nil =>
    obtain ⟨-, rfl⟩ := Verdict.rejected.inj h
    decide
  | cons text texts ih =>
    by_cases marker : isSentinel text = true
    · rw [runFrom_cons_of_isSentinel marker] at h
      obtain ⟨-, rfl⟩ := verdictAtEnd_eq_rejected h
      decide
    · cases judged : judgeLine text ctx.nextLine with
      | error verdict =>
        rw [runFrom_cons_of_error marker judged] at h
        obtain ⟨fault, ofLine, rfl⟩ := judgeLine_eq_error judged
        obtain ⟨-, rfl⟩ := Verdict.rejected.inj h
        exact Fault.mem_known_of_isOfLine ofLine
      | ok after =>
        rw [runFrom_cons_of_ok marker judged] at h
        exact ih h

end LineBasic
