import LineBasic.Program
import LineBasic.Proofs.Line.WellFormed
import Mathlib.Data.List.TakeWhile
import Mathlib.Data.Nat.Find

/-!
# The verdict on a program

The lines before the end marker decide the verdict, from the left. The first line
that is not well formed, or that takes the number of open loops below zero, rejects
the program. If there is none, the verdict is left to the end marker: it may be
missing, or find a loop still open.

## Main definitions

* `body`: the lines before the end marker.
* `tokensFrom`: the tokens of lines one after another.
* `IsFaulty`: whether a line rejects a program.

## Main results

* `verdict_of_isFaulty`: the first line that is faulty rejects the program.
* `verdict_of_not_isFaulty`: the verdict on lines of which none is faulty.
* `run_verdict_exact`: the verdict on a whole program.
-/

namespace LineBasic

/-- The lines before the end marker, or all lines if it is missing. -/
def body (texts : List String) : List String :=
  texts.takeWhile fun text => !isSentinel text

/-- The tokens of the lines that follow a line, one line after another and each
without the token that ends it. -/
def tokensFrom (line : Int) : List String → List Token
  | [] => []
  | text :: texts => contents (line + 1) text ++ tokensFrom (line + 1) texts

/-- Whether the line with a given index, counted from zero among the lines that
follow a context, is not well formed or takes the number of open loops below zero. -/
def IsFaulty (ctx : Context) (texts : List String) (i : Nat) : Prop :=
  ∃ text, texts[i]? = some text ∧
    (¬ IsWellFormed (contents (ctx.line + i + 1) text) ∨
      ∃ ts, ts <+: contents (ctx.line + i + 1) text ∧
        ctx.openLoops + loopBalance (tokensFrom ctx.line (texts.take i) ++ ts) < 0)

/-- The context that a line leaves the next one. -/
def Context.afterLine (ctx : Context) (text : String) : Context :=
  ⟨ctx.line + 1, ctx.openLoops + loopBalance (contents (ctx.line + 1) text)⟩

@[simp] theorem Context.line_afterLine (ctx : Context) (text : String) :
    (ctx.afterLine text).line = ctx.line + 1 := rfl

variable {ctx : Context} {text : String} {texts : List String} {i : Nat} {options : CheckOptions}

theorem isFaulty_zero_iff :
    IsFaulty ctx (text :: texts) 0 ↔
      ¬ IsWellFormed (contents (ctx.line + 1) text) ∨
        ∃ ts, ts <+: contents (ctx.line + 1) text ∧ ctx.openLoops + loopBalance ts < 0 := by
  simp [IsFaulty, tokensFrom]

theorem isFaulty_succ_iff :
    IsFaulty ctx (text :: texts) (i + 1) ↔ IsFaulty (ctx.afterLine text) texts i := by
  have line : ctx.line + (i + 1 : Nat) + 1 = ctx.line + 1 + i + 1 := by omega
  have count (ts : List Token) :
      ctx.openLoops + loopBalance (tokensFrom ctx.line ((text :: texts).take (i + 1)) ++ ts) =
        (ctx.afterLine text).openLoops +
          loopBalance (tokensFrom (ctx.line + 1) (texts.take i) ++ ts) := by
    rw [List.take_succ_cons, tokensFrom, List.append_assoc, loopBalance_append, Context.afterLine,
      Int.add_assoc]
  simp only [IsFaulty, List.getElem?_cons_succ, line, count]
  rfl

/-! ### One line -/

/-- After no open loop or more, a line is accepted just when it is not faulty. -/
theorem judgeLine_nextLine_eq_ok_iff {after : Context} (start : 0 ≤ ctx.openLoops) :
    judgeLine text ctx.nextLine = .ok after ↔
      ¬ IsFaulty ctx (text :: texts) 0 ∧ after = ctx.afterLine text := by
  have counts : loopsAfter ctx.openLoops (contents (ctx.line + 1) text) ≠ none ↔ _ :=
    loopsAfter_ne_none_iff start
  simp only [judgeLine_eq_ok_iff, isFaulty_zero_iff, not_or, not_not, Context.nextLine,
    Context.afterLine]
  constructor
  · rintro ⟨form, count, line⟩
    refine ⟨⟨form, ?_⟩, ?_⟩
    · rintro ⟨ts, front, below⟩
      have reached := counts.mp (by rw [count]; exact Option.some_ne_none _) ts front
      omega
    · rw [← eq_of_loopsAfter_eq_some count, ← line]
  · rintro ⟨⟨form, noneBelow⟩, rfl⟩
    have counted := counts.mpr fun ts front => by
      by_contra below
      exact noneBelow ⟨ts, front, by omega⟩
    obtain ⟨loops, count⟩ := Option.ne_none_iff_exists'.mp counted
    exact ⟨form, by rw [count, ← eq_of_loopsAfter_eq_some count], rfl⟩

/-- A faulty line rejects the program on its number. -/
theorem exists_fault_of_isFaulty_zero (start : 0 ≤ ctx.openLoops)
    (faulty : IsFaulty ctx (text :: texts) 0) :
    ∃ fault, judgeLine text ctx.nextLine = .error (.rejected (ctx.line + 1) fault) :=
  exists_fault_of_judgeLine fun _ accepted =>
    ((judgeLine_nextLine_eq_ok_iff start).mp accepted).1 faulty

/-- A line that is not faulty leaves no open loop or more. -/
theorem nonneg_afterLine (sound : ¬ IsFaulty ctx (text :: texts) 0) :
    0 ≤ (ctx.afterLine text).openLoops := by
  rw [isFaulty_zero_iff, not_or] at sound
  by_contra below
  exact sound.2 ⟨_, List.prefix_rfl, Int.not_le.mp below⟩

/-! ### All lines -/

theorem runFrom_cons (options : CheckOptions) (ctx : Context) (text : String)
    (texts : List String) :
    (runFrom options ctx (text :: texts)).verdict =
      if isSentinel text then verdictAtEnd options.strict ctx.nextLine
      else match judgeLine text ctx.nextLine with
        | .error verdict => verdict
        | .ok after => (runFrom options after texts).verdict := by
  rw [runFrom]
  split
  · rfl
  · cases judgeLine text ctx.nextLine <;> rfl

theorem body_cons_of_not_isSentinel (h : ¬ isSentinel text = true) :
    body (text :: texts) = text :: body texts := by
  rw [body, List.takeWhile_cons_of_pos (by simpa using h), body]

theorem body_cons_of_isSentinel (h : isSentinel text = true) : body (text :: texts) = [] := by
  rw [body, List.takeWhile_cons_of_neg (by simpa using h)]

/-- The first faulty line before the end marker rejects the program on its number. -/
theorem verdict_of_isFaulty (start : 0 ≤ ctx.openLoops)
    (faulty : IsFaulty ctx (body texts) i) (first : ∀ j < i, ¬ IsFaulty ctx (body texts) j) :
    ∃ fault, (runFrom options ctx texts).verdict = .rejected (ctx.line + i + 1) fault := by
  -- up to the faulty line each line is accepted and hands on the count
  induction texts generalizing ctx i with
  | nil =>
    obtain ⟨text, found, -⟩ := faulty
    exact nomatch found
  | cons text texts ih =>
    by_cases stop : isSentinel text = true
    · rw [body_cons_of_isSentinel stop] at faulty
      obtain ⟨text, found, -⟩ := faulty
      exact nomatch found
    · rw [body_cons_of_not_isSentinel stop] at faulty first
      rw [runFrom_cons, if_neg stop]
      cases i with
      | zero =>
        obtain ⟨fault, rejected⟩ := exists_fault_of_isFaulty_zero start faulty
        exact ⟨fault, by rw [rejected]; simp⟩
      | succ i =>
        have sound := first 0 i.succ_pos
        have accepted := (judgeLine_nextLine_eq_ok_iff start).mpr ⟨sound, rfl⟩
        have later := ih (nonneg_afterLine sound) (isFaulty_succ_iff.mp faulty)
          fun j less => isFaulty_succ_iff.not.mp (first (j + 1) (Nat.succ_lt_succ less))
        have number : (ctx.afterLine text).line + i + 1 = ctx.line + (i + 1 : Nat) + 1 := by
          rw [Context.line_afterLine]
          omega
        rw [accepted, ← number]
        exact later

/-- If no line before the end marker is faulty, the end marker decides. -/
theorem verdict_of_not_isFaulty (start : 0 ≤ ctx.openLoops)
    (sound : ∀ i, ¬ IsFaulty ctx (body texts) i) :
    (runFrom options ctx texts).verdict =
      if texts.any isSentinel then
        verdictAtEnd options.strict ⟨ctx.line + (body texts).length + 1,
          ctx.openLoops + loopBalance (tokensFrom ctx.line (body texts))⟩
      else .rejected (ctx.line + (body texts).length + 1) .sentinel := by
  -- the context that a line hands on holds its part of the count already
  induction texts generalizing ctx with
  | nil => simp [runFrom, body]
  | cons text texts ih =>
    by_cases stop : isSentinel text = true
    · rw [runFrom_cons, if_pos stop, body_cons_of_isSentinel stop]
      simp [stop, tokensFrom, loopBalance, countTag, Context.nextLine]
    · rw [body_cons_of_not_isSentinel stop] at sound ⊢
      have accepted := (judgeLine_nextLine_eq_ok_iff start).mpr ⟨sound 0, rfl⟩
      have later := ih (nonneg_afterLine (sound 0)) fun i => isFaulty_succ_iff.not.mp (sound (i + 1))
      have number : (ctx.afterLine text).line + (body texts).length + 1 =
          ctx.line + (text :: body texts).length + 1 := by
        rw [Context.line_afterLine, List.length_cons]
        omega
      rw [runFrom_cons, if_neg stop, accepted, tokensFrom, loopBalance_append, ← Int.add_assoc,
        List.any_cons, Bool.eq_false_iff.mpr stop, Bool.false_or, ← number]
      exact later

/-- The count stays above zero over two sequences just when it does so over the first
and from there on over the second. -/
theorem forall_prefix_append_iff {loops : Int} {ts us : List Token} :
    (∀ vs, vs <+: ts ++ us → 0 ≤ loops + loopBalance vs) ↔
      (∀ vs, vs <+: ts → 0 ≤ loops + loopBalance vs) ∧
        ∀ vs, vs <+: us → 0 ≤ loops + loopBalance ts + loopBalance vs := by
  constructor
  · intro h
    refine ⟨fun vs front => h vs (front.trans (List.prefix_append ts us)), fun vs front => ?_⟩
    rw [Int.add_assoc, ← loopBalance_append]
    exact h _ ((List.prefix_append_right_inj ts).mpr front)
  · rintro ⟨first, second⟩ vs front
    rcases List.prefix_or_prefix_of_prefix front (List.prefix_append ts us) with inside | ⟨ws, rfl⟩
    · exact first vs inside
    · rw [loopBalance_append, ← Int.add_assoc]
      exact second ws ((List.prefix_append_right_inj ts).mp front)

/-- The first line is not faulty just when it is well formed and the number of open
loops does not come below zero on it. -/
theorem not_isFaulty_zero_iff :
    ¬ IsFaulty ctx (text :: texts) 0 ↔
      IsWellFormed (contents (ctx.line + 1) text) ∧
        ∀ ts, ts <+: contents (ctx.line + 1) text → 0 ≤ ctx.openLoops + loopBalance ts := by
  rw [isFaulty_zero_iff, not_or, not_not]
  simp only [not_exists, not_and, Int.not_lt]

/-- No line is faulty just when all are well formed and the number of open loops
never comes below zero. -/
theorem forall_not_isFaulty_iff (start : 0 ≤ ctx.openLoops) :
    (∀ i, ¬ IsFaulty ctx texts i) ↔
      (∀ (i : Nat) text, texts[i]? = some text → IsWellFormed (contents (ctx.line + i + 1) text)) ∧
        ∀ ts, ts <+: tokensFrom ctx.line texts → 0 ≤ ctx.openLoops + loopBalance ts := by
  induction texts generalizing ctx with
  | nil => simpa [IsFaulty, tokensFrom, loopBalance, countTag] using start
  | cons text texts ih =>
    have number (i : Nat) : (ctx.afterLine text).line + i + 1 = ctx.line + (i + 1 : Nat) + 1 := by
      rw [Context.line_afterLine]
      omega
    rw [tokensFrom, forall_prefix_append_iff]
    -- the first line takes its part of the count, and the others go on from there
    constructor
    · intro sound
      obtain ⟨form, above⟩ := not_isFaulty_zero_iff.mp (sound 0)
      obtain ⟨forms, above'⟩ := (ih (nonneg_afterLine (sound 0))).mp fun i =>
        isFaulty_succ_iff.not.mp (sound (i + 1))
      refine ⟨fun i other found => ?_, above, above'⟩
      cases i with
      | zero =>
        obtain rfl := Option.some.inj found
        simpa using form
      | succ i => exact number i ▸ forms i other found
    · rintro ⟨forms, above, above'⟩ i
      have sound : ¬ IsFaulty ctx (text :: texts) 0 :=
        not_isFaulty_zero_iff.mpr ⟨by simpa using forms 0 text rfl, above⟩
      have later := (ih (nonneg_afterLine sound)).mpr
        ⟨fun i other found => number i ▸ forms (i + 1) other found, above'⟩
      cases i with
      | zero => exact sound
      | succ i => exact isFaulty_succ_iff.not.mpr (later i)

theorem body_eq_self (noSentinel : texts.any isSentinel = false) : body texts = texts := by
  rw [body, List.takeWhile_eq_self_iff]
  simpa using noSentinel

/-- The end marker accepts just when a strict check finds no loop open. -/
theorem verdictAtEnd_eq_accepted_iff {strict : Bool} (start : 0 ≤ ctx.openLoops) :
    verdictAtEnd strict ctx = .accepted ↔ (strict = true → ctx.openLoops = 0) := by
  unfold verdictAtEnd
  split
  case isTrue unclosed => exact ⟨nofun, fun h => absurd (h unclosed.1) (Int.ne_of_gt unclosed.2)⟩
  case isFalse closed =>
    refine ⟨fun _ hstrict => ?_, fun _ => rfl⟩
    have noneOpen : ¬ 0 < ctx.openLoops := fun some => closed ⟨hstrict, some⟩
    exact Int.le_antisymm (Int.not_lt.mp noneOpen) start

/-- A program is accepted just when the end marker is there, no line before it is
faulty, and a strict check finds no loop open at the end. -/
theorem verdict_eq_accepted_iff (start : 0 ≤ ctx.openLoops) :
    (runFrom options ctx texts).verdict = .accepted ↔
      texts.any isSentinel = true ∧ (∀ i, ¬ IsFaulty ctx (body texts) i) ∧
        (options.strict = true →
          ctx.openLoops + loopBalance (tokensFrom ctx.line (body texts)) = 0) := by
  classical
  -- either every line passes and the end marker decides, or there is a first faulty line
  by_cases sound : ∀ i, ¬ IsFaulty ctx (body texts) i
  · have above := ((forall_not_isFaulty_iff start).mp sound).2 _ List.prefix_rfl
    rw [verdict_of_not_isFaulty start sound, and_iff_right sound]
    by_cases marked : texts.any isSentinel = true
    · rw [if_pos marked, and_iff_right marked]
      exact verdictAtEnd_eq_accepted_iff above
    · rw [if_neg marked]
      exact ⟨nofun, fun h => absurd h.1 marked⟩
  · -- the first faulty line rejects the program
    obtain ⟨i, faulty⟩ := not_forall_not.mp sound
    have some : ∃ i, IsFaulty ctx (body texts) i := ⟨i, faulty⟩
    obtain ⟨fault, rejected⟩ := verdict_of_isFaulty start (Nat.find_spec some) fun j less =>
      Nat.find_min some less
    rw [rejected]
    exact ⟨nofun, fun h => absurd h.2.1 sound⟩

/-- A program is accepted just when the end marker is there, every line before it is
well formed, the number of open loops never comes below zero, and, if the check is
strict, no loop is open at the end. Otherwise the first faulty line rejects it, and if
there is none, the end marker does, by the loops that it finds open or by its absence. -/
theorem run_verdict_exact (options : CheckOptions) (lines : List String) :
    ((run options lines).verdict = .accepted ↔
      lines.any isSentinel = true ∧
      (∀ (i : Nat) text, (body lines)[i]? = some text → IsWellFormed (contents (i + 1) text)) ∧
      (∀ ts, ts <+: tokensFrom 0 (body lines) → 0 ≤ loopBalance ts) ∧
      (options.strict = true → loopBalance (tokensFrom 0 (body lines)) = 0)) ∧
    (∀ i, IsFaulty .start (body lines) i → (∀ j < i, ¬ IsFaulty .start (body lines) j) →
      ∃ fault, (run options lines).verdict = .rejected (i + 1) fault) ∧
    ((∀ i, ¬ IsFaulty .start (body lines) i) → lines.any isSentinel = true →
      options.strict = true → 0 < loopBalance (tokensFrom 0 (body lines)) →
      (run options lines).verdict = .rejected ((body lines).length + 1) .unclosedLoop) ∧
    ((∀ i, ¬ IsFaulty .start (body lines) i) → lines.any isSentinel = false →
      (run options lines).verdict = .rejected (lines.length + 1) .sentinel) := by
  have start : 0 ≤ Context.start.openLoops := Int.le_refl 0
  have zero (n : Nat) : Context.start.line + n + 1 = n + 1 := by
    rw [Context.start, Int.zero_add]
  have loops : Context.start.openLoops = 0 := rfl
  rw [run]
  refine ⟨?_, fun i faulty first => ?_, fun sound marked strict some => ?_, fun sound missing => ?_⟩
  · rw [verdict_eq_accepted_iff start, forall_not_isFaulty_iff start, and_assoc]
    simp only [zero, loops, Int.zero_add]
    rfl
  · rw [← zero]
    exact verdict_of_isFaulty start faulty first
  · rw [verdict_of_not_isFaulty start sound, if_pos marked, verdictAtEnd, zero, loops, Int.zero_add]
    exact if_pos ⟨strict, some⟩
  · rw [verdict_of_not_isFaulty start sound, missing, zero, body_eq_self missing]
    rfl

/-- The end marker stands between blanks, and what comes behind it is never looked at. -/
example : run ⟨true, true⟩ ["again: while x < 1; x = x + 1", "endwhile", " $$\t", "?"] =
    ⟨.accepted, [(1, "again: while x < 1; x = x + 1"), (2, "endwhile"), (3, " $$\t")], ["?"]⟩ := by
  decide +kernel

end LineBasic
