import LineBasic.Proofs.Phrase.Basic
import LineBasic.Token.Basic

/-!
# Counting open loops

Of all tokens only two kinds matter to the number of open loops: the word that
opens one and the word that closes one. Counting from the left breaks off at a
word that would close a loop while none is open.

## Main definitions

* `loopsAfter`: the number of open loops after a sequence of tokens.
* `loopBalance`: the loops that tokens open less those they close.

## Main results

* `loopsAfter_append`: counting goes on where it has stopped.
* `eq_of_loopsAfter_eq_some`: what the count comes to.
* `loopsAfter_ne_none_iff`: counting breaks off where the count would come below
  zero.
-/

namespace LineBasic

/-- The number of open loops after a tag, unless it closes one while none is
open. -/
def Tag.countLoop (loops : Int) : Tag → Option Int
  | whileWord => some (loops + 1)
  | endwhileWord => if loops = 0 then none else some (loops - 1)
  | _ => some loops

/-- The number of open loops after a sequence of tokens, unless one of them closes
a loop while none is open. -/
def loopsAfter (loops : Int) (ts : List Token) : Option Int :=
  ts.foldlM (fun loops t => t.tag.countLoop loops) loops

/-- How many of the tokens have a given tag. -/
def countTag (tag : Tag) (ts : List Token) : Nat :=
  ts.countP fun t => t.tag = tag

/-- How many more loops the tokens open than they close. -/
def loopBalance (ts : List Token) : Int :=
  countTag .whileWord ts - countTag .endwhileWord ts

variable {loops after : Int} {t : Token} {ts us : List Token}

@[simp] theorem loopsAfter_nil (loops : Int) : loopsAfter loops [] = some loops := rfl

theorem loopsAfter_cons (loops : Int) (t : Token) (ts : List Token) :
    loopsAfter loops (t :: ts) = (t.tag.countLoop loops).bind fun after => loopsAfter after ts := by
  rw [loopsAfter, List.foldlM_cons]
  rfl

/-- Counting goes on where it has stopped. -/
theorem loopsAfter_append (loops : Int) (ts us : List Token) :
    loopsAfter loops (ts ++ us) = (loopsAfter loops ts).bind fun after => loopsAfter after us := by
  rw [loopsAfter, List.foldlM_append]
  rfl

theorem Tag.countLoop_of_isPlain {t : Tag} (h : t.isPlain = true) (loops : Int) :
    t.countLoop loops = some loops := by
  cases t <;> first | rfl | exact nomatch h

/-- The tokens of a condition open and close no loop. -/
theorem loopsAfter_of_isPlain (h : ∀ t ∈ ts, t.tag.isPlain = true) (loops : Int) :
    loopsAfter loops ts = some loops := by
  induction ts with
  | nil => rfl
  | cons t ts ih =>
    obtain ⟨here, later⟩ := List.forall_mem_cons.mp h
    rw [loopsAfter_cons, Tag.countLoop_of_isPlain here]
    exact ih later

/-- Of a statement only the first token can open or close a loop. -/
theorem IsStatement.loopsAfter_eq {touches : Token → Token → Prop}
    (h : IsStatement Token.tag touches (t :: ts)) (loops : Int) :
    loopsAfter loops (t :: ts) = t.tag.countLoop loops := by
  have plain := h.tail_isPlain
  rw [loopsAfter_cons]
  cases t.tag.countLoop loops with
  | none => rfl
  | some after => exact loopsAfter_of_isPlain plain after

theorem loopBalance_append (ts us : List Token) :
    loopBalance (ts ++ us) = loopBalance ts + loopBalance us := by
  simp only [loopBalance, countTag, List.countP_append]
  omega

theorem loopBalance_cons (t : Token) (ts : List Token) :
    loopBalance (t :: ts) = loopBalance [t] + loopBalance ts :=
  loopBalance_append [t] ts

/-- What one token makes of the count. -/
theorem Tag.countLoop_eq (t : Token) (loops : Int) :
    t.tag.countLoop loops =
      if t.tag = .endwhileWord ∧ loops = 0 then none else some (loops + loopBalance [t]) := by
  cases same : t.tag with
  | endwhileWord =>
    by_cases noneOpen : loops = 0 <;> simp [countLoop, loopBalance, countTag, same, noneOpen]
    omega
  | _ => simp [countLoop, loopBalance, countTag, same]

/-- A count that does not break off comes to the loops opened less those closed. -/
theorem eq_of_loopsAfter_eq_some (h : loopsAfter loops ts = some after) :
    after = loops + loopBalance ts := by
  induction ts generalizing loops with
  | nil => exact (Option.some.inj h).symm.trans (Int.add_zero loops).symm
  | cons t ts ih =>
    rw [loopsAfter_cons, Option.bind_eq_some_iff] at h
    obtain ⟨middle, here, later⟩ := h
    -- a token that does not break off the count adds its own balance
    rw [Tag.countLoop_eq] at here
    split at here
    · exact nomatch here
    · obtain rfl := Option.some.inj here
      rw [ih later, loopBalance_cons t ts, Int.add_assoc]

/-- One token takes a count below zero just when it closes a loop while none is
open. -/
theorem nonneg_add_loopBalance_iff (start : 0 ≤ loops) :
    0 ≤ loops + loopBalance [t] ↔ ¬ (t.tag = .endwhileWord ∧ loops = 0) := by
  cases same : t.tag <;> simp [loopBalance, countTag, same] <;> omega

/-- A count that starts at no open loop or more breaks off just when it would come
below. -/
theorem loopsAfter_ne_none_iff (start : 0 ≤ loops) :
    loopsAfter loops ts ≠ none ↔ ∀ us, us <+: ts → 0 ≤ loops + loopBalance us := by
  induction ts generalizing loops with
  | nil =>
    refine ⟨fun _ us front => ?_, fun _ => Option.some_ne_none loops⟩
    rw [List.prefix_nil.mp front]
    simpa [loopBalance, countTag] using start
  | cons t ts ih =>
    have step := nonneg_add_loopBalance_iff (t := t) start
    rw [loopsAfter_cons, Tag.countLoop_eq]
    by_cases stop : t.tag = .endwhileWord ∧ loops = 0
    · -- the count breaks off here, and this token alone takes it below zero
      rw [if_pos stop]
      refine ⟨fun h => absurd rfl h, fun h => ?_⟩
      exact absurd stop (step.mp (h [t] ⟨ts, rfl⟩))
    · have start' := step.mpr stop
      rw [if_neg stop, Option.bind_some, ih start']
      constructor
      · intro h us front
        match us, front with
        | [], _ => simpa [loopBalance, countTag] using start
        | u :: us, front =>
          obtain ⟨rfl, later⟩ := List.cons_prefix_cons.mp front
          rw [loopBalance_cons u us, ← Int.add_assoc]
          exact h us later
      · intro h us front
        rw [Int.add_assoc, ← loopBalance_cons t us]
        exact h (t :: us) (List.cons_prefix_cons.mpr ⟨rfl, front⟩)

end LineBasic
