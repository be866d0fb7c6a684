import LineBasic.Proofs.Cursor.Alike
import LineBasic.Proofs.Line.WellFormed

/-!
# Checking lines of one shape

Two lines of one shape are checked alike, whatever their number in the program. A line
that fails does so for one of the eight faults that can be seen in it.

## Main results

* `Cursor.alike_place`: lines of one shape look alike from every place in them.
* `judgeLine_eq_of_sameShape`: lines of one shape are judged alike.
* `judgeLine_eq_error`: what a rejected line is rejected for.
-/

namespace LineBasic

variable {line : Int} {text text' : String} {ctx : Context} {verdict : Verdict}

namespace Label

variable {ts us : List Token}

theorem any_isColon_eq_of_map_tag (tags : ts.map Token.tag = us.map Token.tag) :
    ts.any isColon = us.any isColon := by
  have byTag (ts : List Token) :
      ts.any isColon = (ts.map Token.tag).any fun tag => decide (tag = .colon) := by
    rw [List.any_map]
    rfl
  rw [byTag, byTag, tags]

/-- Whether a line is labelled is settled by its tags. -/
theorem ofTokens_eq_of_map_tag (tags : ts.map Token.tag = us.map Token.tag) :
    ofTokens ts = ofTokens us := by
  unfold ofTokens
  rw [any_isColon_eq_of_map_tag tags]
  -- it takes two tokens to make a label
  cases ts with
  | nil => rw [List.map_eq_nil_iff.mp tags.symm]
  | cons name ts =>
    obtain ⟨name', us, rfl, nameTag, tags⟩ := List.map_eq_cons_iff.mp tags.symm
    cases ts with
    | nil => rw [List.map_eq_nil_iff.mp tags]
    | cons colon rest =>
      obtain ⟨colon', rest', rfl, colonTag, tags⟩ := List.map_eq_cons_iff.mp tags
      dsimp only
      rw [nameTag, colonTag, any_isColon_eq_of_map_tag tags]

end Label

theorem Line.place_succ (line : Line) (k : Nat) : line.place (k + 1) = (line.place k).next := by
  rw [place, place, Cursor.next, List.tail_drop]

/-- Lines of one shape look alike from every place in them. -/
theorem Cursor.alike_place (shape : SameShape (tokenize line text) (tokenize line text'))
    (k : Nat) : ((Line.ofText line text).place k).Alike ((Line.ofText line text').place k) := by
  induction k with
  | zero =>
    exact {
      left := (ofText_place line text (Nat.zero_le _)).1
      right := (ofText_place line text' (Nat.zero_le _)).1
      tags := shape.1
      signed := shape.isSignedAt_eq }
  | succ k ih =>
    rw [Line.place_succ, Line.place_succ]
    exact ih.next

/-- The checks of two lines of one shape agree, in any line of a program. -/
theorem checkLine_agree (shape : SameShape (tokenize line text) (tokenize line text')) :
    Agree Eq (checkLine text ctx) (checkLine text' ctx) := by
  have here : SameShape (tokenize ctx.line text) (tokenize ctx.line text') :=
    (sameShape_tokenize ctx.line line text).trans
      (shape.trans (sameShape_tokenize line ctx.line text'))
  have label : Label.ofTokens (Line.ofText ctx.line text).tokens =
      Label.ofTokens (Line.ofText ctx.line text').tokens :=
    Label.ofTokens_eq_of_map_tag here.1
  rw [checkLine, checkLine, Line.check, Line.check, label]
  split
  · exact .error rfl
  · exact (Cursor.alike_place here _).statements

theorem judgeLine_eq_of_sameShape (shape : SameShape (tokenize line text) (tokenize line text')) :
    judgeLine text ctx = judgeLine text' ctx := by
  rw [judgeLine, judgeLine, (checkLine_agree shape).eq]

/-- A line that is rejected is rejected on its own number, and for a fault of a line. -/
theorem judgeLine_eq_error (h : judgeLine text ctx = .error verdict) :
    ∃ fault, fault.isOfLine = true ∧ verdict = .rejected ctx.line fault := by
  -- a line has its own shape, so its check agrees with itself
  have agree : Agree Eq (checkLine text ctx) (checkLine text ctx) :=
    checkLine_agree (SameShape.refl (tokenize ctx.line text))
  rw [judgeLine] at h
  cases outcome : checkLine text ctx with
  | ok after =>
    rw [outcome] at h
    cases h
  | error fault =>
    rw [outcome] at h agree
    exact ⟨fault, agree.isOfLine, (Except.error.inj h).symm⟩

end LineBasic
