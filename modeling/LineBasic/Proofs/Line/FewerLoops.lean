import LineBasic.Proofs.Line.Run

/-!
# Lines in contexts with fewer open loops

The open loops matter to a line only where it closes one. With fewer of them open it is judged
as with more, but that it may close one too many earlier.

A run compares the loops that are open with none, not with fewer than none. What keeps it from
going on below is that it never gets there: the loops that are too many in the other context stay
within those that are open there.

## Main definitions

* `Context.moved`: a context in another line, with some of the open loops left out.

## Main results

* `Stage.run_moved`: a run from a moved context, unless it closes one loop too many.
* `judgeLine_of_fewer_loops`: the same for the judgement of a line.
-/

namespace LineBasic

/-- The context in another line, with some of the open loops left out. -/
def Context.moved (ctx : Context) (line fewer : Int) : Context :=
  ⟨line, ctx.openLoops - fewer⟩

/-- The same fault on another line. -/
def Verdict.onLine (line : Int) : Verdict → Verdict
  | accepted => accepted
  | rejected _ fault => rejected line fault

variable {line line' fewer loops loops' : Int} {ctx after : Context} {text : String}

theorem Context.moved_openLoop (ctx : Context) (line fewer : Int) :
    (ctx.moved line fewer).openLoop = ctx.openLoop.moved line fewer := by
  simp only [moved, openLoop, mk.injEq, true_and]
  omega

theorem Context.moved_closeLoop (ctx : Context) (line fewer : Int) :
    (ctx.moved line fewer).closeLoop = ctx.closeLoop.moved line fewer := by
  simp only [moved, closeLoop, mk.injEq, true_and]
  omega

namespace Stage

variable {s : Stage × Context}

/-- A stage in a moved context. -/
def moved (s : Stage × Context) (line fewer : Int) : Stage × Context :=
  (s.1, s.2.moved line fewer)

/-- In a moved context a token either closes one loop too many, or does what it does in the other,
where the loops left out stay open. -/
theorem contextBehind_moved (some : 0 ≤ fewer) (enough : fewer ≤ ctx.openLoops) (stage : Stage)
    (t : Tag) (line : Int) :
    stage.contextBehind (ctx.moved line fewer) t = .error .unopenedLoop ∨
      ∃ after, stage.contextBehind ctx t = .ok after ∧ fewer ≤ after.openLoops ∧
        stage.contextBehind (ctx.moved line fewer) t = .ok (after.moved line fewer) := by
  unfold contextBehind
  split
  case h_1 =>
    have still : fewer ≤ ctx.openLoop.openLoops := by
      simp only [Context.openLoop]
      omega
    exact .inr ⟨_, rfl, still, congrArg _ (ctx.moved_openLoop line fewer)⟩
  case h_2 =>
    -- no loop may be left in the moved context while some are in the other
    by_cases last : (ctx.moved line fewer).openLoops = 0
    · exact .inl (if_pos last)
    · have more : fewer < ctx.openLoops := by
        simp only [Context.moved] at last
        omega
      have still : fewer ≤ ctx.closeLoop.openLoops := by
        simp only [Context.closeLoop]
        omega
      rw [if_neg last, if_neg (by omega)]
      exact .inr ⟨_, rfl, still, congrArg _ (ctx.moved_closeLoop line fewer)⟩
  case h_3 => exact .inr ⟨_, rfl, enough, rfl⟩

/-- One token more, in a moved context. -/
theorem advance_moved (some : 0 ≤ fewer) (enough : fewer ≤ s.2.openLoops) (t : Token)
    (line : Int) :
    advance (moved s line fewer) t = .error .unopenedLoop ∨
      advance (moved s line fewer) t = (advance s t).map (moved · line fewer) ∧
        ∀ s', advance s t = .ok s' → fewer ≤ s'.2.openLoops := by
  simp only [advance, moved]
  cases s.1.next t with
  | error fault =>
    refine .inr ⟨rfl, ?_⟩
    intro s' step
    cases step
  | ok stage =>
    rcases contextBehind_moved some enough s.1 t.tag line with stop | ⟨after, here, still, there⟩
    · left
      rw [stop]
      rfl
    · right
      rw [here, there]
      refine ⟨rfl, fun s' step => ?_⟩
      obtain rfl := Except.ok.inj step
      exact still

/-- A run from a moved context either closes one loop too many, or comes to the same as the run
from the other. -/
theorem run_moved (some : 0 ≤ fewer) (enough : fewer ≤ s.2.openLoops) (ts : List Token)
    (line : Int) :
    run (moved s line fewer) ts = .error .unopenedLoop ∨
      run (moved s line fewer) ts = (run s ts).map (moved · line fewer) := by
  induction ts generalizing s with
  | nil => exact .inr rfl
  | cons t ts ih =>
    rw [run_cons, run_cons]
    rcases advance_moved some enough t line with stop | ⟨same, still⟩
    · left
      rw [stop]
      rfl
    · rw [same]
      cases step : advance s t with
      | error fault => exact .inr rfl
      -- the loops left out are still open, so the rest is run through alike
      | ok s' => exact ih (still s' step)

theorem runLine_moved (some : 0 ≤ fewer) (enough : fewer ≤ ctx.openLoops) (ts : List Token)
    (line : Int) :
    runLine (ctx.moved line fewer) ts = .error .unopenedLoop ∨
      runLine (ctx.moved line fewer) ts = (runLine ctx ts).map (·.moved line fewer) := by
  rw [runLine, runLine]
  split
  · exact .inr rfl
  case h_2 start _ =>
    rcases run_moved (s := (statementDue, ctx)) some enough (ts.drop start) line with stop | same
    · left
      exact congrArg (Except.map Prod.snd) stop
    · right
      refine (congrArg (Except.map Prod.snd) same).trans ?_
      cases run (statementDue, ctx) (ts.drop start) <;> rfl

end Stage

/-- In which line the tokens of a text are run through does not matter. -/
theorem runLine_tokenize_eq (line line' : Int) (text : String) (ctx : Context) :
    Stage.runLine ctx (tokenize line text) = Stage.runLine ctx (tokenize line' text) := by
  refine Stage.runLine_eq_of_map_face ?_ ctx
  rw [tokenize_eq_map_lower line line', List.map_map]
  rfl

/-- No line leaves fewer than no loops open. -/
theorem openLoops_nonneg_of_judgeLine (start : 0 ≤ ctx.openLoops)
    (accepted : judgeLine text ctx = .ok after) : 0 ≤ after.openLoops := by
  obtain ⟨-, count, -⟩ := judgeLine_eq_ok_iff.mp accepted
  rw [eq_of_loopsAfter_eq_some count]
  -- the count would have broken off below zero
  exact (loopsAfter_ne_none_iff start).mp (by simp [count]) _ List.prefix_rfl

/-- With fewer loops open a line is rejected for closing one too many, or it is judged as with
more of them open and in any other line. Never are fewer than none left open. -/
theorem judgeLine_of_fewer_loops (start : 0 ≤ loops) (fewer : loops ≤ loops') (line line' : Int)
    (text : String) :
    (judgeLine text ⟨line, loops⟩ = .error (.rejected line .unopenedLoop) ∨
      judgeLine text ⟨line, loops⟩ =
        ((judgeLine text ⟨line', loops'⟩).map (·.moved line (loops' - loops))).mapError
          (·.onLine line)) ∧
    ∀ after, judgeLine text ⟨line, loops⟩ = .ok after → 0 ≤ after.openLoops := by
  refine ⟨?_, fun after accepted => openLoops_nonneg_of_judgeLine start accepted⟩
  have context : (⟨line, loops⟩ : Context) =
      Context.moved ⟨line', loops'⟩ line (loops' - loops) := by
    simp only [Context.moved, Context.mk.injEq, true_and]
    omega
  have enough : loops' - loops ≤ (⟨line', loops'⟩ : Context).openLoops := by
    change loops' - loops ≤ loops'
    omega
  have run := Stage.runLine_moved (Int.sub_nonneg_of_le fewer) enough (tokenize line text) line
  rw [← context, runLine_tokenize_eq line line' text ⟨line', loops'⟩] at run
  simp only [judgeLine, checkLine_eq_runLine]
  rcases run with stop | same
  · left
    rw [stop]
    rfl
  · right
    rw [same]
    cases Stage.runLine ⟨line', loops'⟩ (tokenize line' text) <;> rfl

/-- The line closes two loops that it does not open. With three open before it one is left, so
with two none is, and with one it closes one too many. -/
theorem judgeLine_of_fewer_loops_closing :
    judgeLine "while (x < y); endwhile; endwhile; endwhile" ⟨9, 3⟩ = .ok ⟨9, 1⟩ ∧
    judgeLine "while (x < y); endwhile; endwhile; endwhile" ⟨4, 2⟩ = .ok ⟨4, 0⟩ ∧
    judgeLine "while (x < y); endwhile; endwhile; endwhile" ⟨4, 1⟩ =
      .error (.rejected 4 .unopenedLoop) := by
  have three : judgeLine "while (x < y); endwhile; endwhile; endwhile" ⟨9, 3⟩ = .ok ⟨9, 1⟩ := by
    decide +kernel
  obtain ⟨two, -⟩ := judgeLine_of_fewer_loops (show (0 : Int) ≤ 2 by decide)
    (show (2 : Int) ≤ 3 by decide) 4 9 "while (x < y); endwhile; endwhile; endwhile"
  obtain ⟨one, nonneg⟩ := judgeLine_of_fewer_loops (show (0 : Int) ≤ 1 by decide)
    (show (1 : Int) ≤ 3 by decide) 4 9 "while (x < y); endwhile; endwhile; endwhile"
  rw [three] at one two
  refine ⟨three, two.resolve_left (by decide +kernel), one.resolve_right fun same => ?_⟩
  exact absurd (nonneg _ same) (by decide)

end LineBasic
