import LineBasic.Proofs.Line.Alike
import LineBasic.Proofs.Program
import Mathlib.Data.List.Forall2

/-!
# Layout does not matter

The verdict on a program comes from the shape of its lines alone: from the tags of their
tokens and from the signs that touch a number. The names in it, its numbers and the blanks
between its tokens tell a check nothing more.

## Main definitions

* `AlikeInShape`: whether two lines both hold the end marker, or have the same shape.

## Main results

* `verdict_eq_of_alikeInShape`: programs of such lines have the same verdict.
-/

namespace LineBasic

/-- Whether two lines both hold the end marker and nothing else, or neither does and
their tokens have the same shape. -/
def AlikeInShape (text text' : String) : Prop :=
  (isSentinel text = true ∧ isSentinel text' = true) ∨
    (¬ isSentinel text = true ∧ ¬ isSentinel text' = true ∧
      SameShape (tokenize 1 text) (tokenize 1 text'))

instance : DecidableRel AlikeInShape := fun _ _ =>
  inferInstanceAs (Decidable (_ ∨ _))

/-- A blank changes the shape of a line if it parts a sign from its number. -/
example : ¬ AlikeInShape "x = -5" "x = - 5" ∧ AlikeInShape "x = -5" " x=\n-5\n" := by
  decide +kernel

variable {texts texts' : List String}

/-- From one context on, lines alike in shape lead to one verdict. -/
theorem verdict_runFrom_eq (options : CheckOptions) (ctx : Context)
    (alike : List.Forall₂ AlikeInShape texts texts') :
    (runFrom options ctx texts).verdict = (runFrom options ctx texts').verdict := by
  induction alike generalizing ctx with
  | nil => rfl
  | @cons text text' texts texts' first _ ih =>
    rw [runFrom_cons, runFrom_cons]
    rcases first with ⟨marker, marker'⟩ | ⟨noMarker, noMarker', shape⟩
    · rw [if_pos marker, if_pos marker']
    · rw [if_neg noMarker, if_neg noMarker', judgeLine_eq_of_sameShape shape]
      -- if the line is accepted, both checks go on from the context that it leaves
      cases judgeLine text' ctx.nextLine with
      | error verdict => rfl
      | ok after => exact ih after

/-- Programs of as many lines, each alike in shape to its counterpart, have the same
verdict. -/
theorem verdict_eq_of_alikeInShape (options : CheckOptions) {lines lines' : List String}
    (alike : List.Forall₂ AlikeInShape lines lines') :
    (run options lines).verdict = (run options lines').verdict :=
  verdict_runFrom_eq options .start alike

/-- Other names, numbers and blanks leave an open loop as it is. -/
theorem verdict_eq_of_alikeInShape_openLoop :
    List.Forall₂ AlikeInShape ["top: while a < -5", "x=(y+1)", "$$"]
        ["\tb2:while count<-77 ", "n =\n ( m +30 )\n", " $$\n"] ∧
      (run ⟨true, false⟩ ["top: while a < -5", "x=(y+1)", "$$"]).verdict =
        (run ⟨true, false⟩ ["\tb2:while count<-77 ", "n =\n ( m +30 )\n", " $$\n"]).verdict :=
  ⟨by decide +kernel, verdict_eq_of_alikeInShape _ (by decide +kernel)⟩

end LineBasic
