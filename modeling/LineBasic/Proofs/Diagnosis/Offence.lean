import LineBasic.Proofs.Diagnosis.Completion
import LineBasic.Proofs.Diagnosis.Message
import Mathlib.Order.Bounds.Defs

/-!
# A line is rejected for its first token out of place

A line that is rejected has a first token such that no accepted line agrees with it up to there.
The fault that is reported is the one that this token has behind the tokens before it, whatever
follows. Colons are looked at first: one that belongs to no label is reported before anything
else.

## Main definitions

* `HasStrayColon`: whether a colon belongs to no label.
* `Viable`: whether some accepted line agrees with a line up to a token.

## Main results

* `isLeast_not_viable`: a run stops at the first token that no accepted line shares.
* `judgeLine_diagnosis`: what a line is rejected for.
-/

namespace LineBasic

/-- Whether there is a colon that does not follow an identifier at the beginning. -/
def HasStrayColon (ts : List Token) : Prop :=
  ∃ i t, ts[i]? = some t ∧ t.tag = .colon ∧
    ¬ (i = 1 ∧ ts.head?.map Token.tag = some .identifier)

/-- How many tokens the label has, if no colon is a stray one. -/
def labelLength (ts : List Token) : Nat :=
  if ts.any Label.isColon then 2 else 0

/-- The tokens behind the label. -/
def unlabelled (ts : List Token) : List Token :=
  ts.drop (labelLength ts)

/-- What two tokens at one place of two lines have to share to be the same: all but the number of
their lines. -/
def Token.face (t : Token) : Tag × String × Int :=
  (t.tag, t.lexeme, t.position.column)

/-- Whether some accepted line agrees with a line up to a token, counted from behind the label. -/
def Viable (ctx : Context) (ts : List Token) (k : Nat) : Prop :=
  ∃ line : Line, line.IsCandidate (labelLength ts) ∧ (∃ after, line.check ctx = .ok after) ∧
    (line.tokens.take (labelLength ts + k + 1)).map Token.face =
      (ts.take (labelLength ts + k + 1)).map Token.face

variable {ctx : Context} {text : String} {t : Token} {ts us vs front body : List Token}
  {s : Stage × Context} {fault : Fault}

/-! ### Labels -/

/-- Without a stray colon a line is a label and what follows it, or has no label. -/
theorem exists_label_of_not_hasStrayColon (h : ¬ HasStrayColon ts) :
    ∃ front body, ts = front ++ body ∧ IsLabel (front.map Token.tag) ∧
      labelLength ts = front.length ∧ ∀ t ∈ body, t.tag ≠ .colon := by
  have place (i : Nat) (t : Token) (here : ts[i]? = some t) (colon : t.tag = .colon) :
      i = 1 ∧ ts.head?.map Token.tag = some .identifier := by
    by_contra stray
    exact h ⟨i, t, here, colon, stray⟩
  by_cases some : ∃ t ∈ ts, t.tag = .colon
  · obtain ⟨t, member, colon⟩ := some
    obtain ⟨i, here⟩ := List.mem_iff_getElem?.mp member
    obtain ⟨rfl, name⟩ := place i t here colon
    match ts, here with
    | first :: second :: body, here =>
      obtain rfl : second = t := Option.some.inj here
      refine ⟨[first, second], body, rfl, .inr ?_, ?_, fun u later colon' => ?_⟩
      · rw [List.map_cons, Option.some.inj name, List.map_singleton, colon]
      · simp [labelLength, Label.isColon, colon]
      · obtain ⟨j, there⟩ := List.mem_iff_getElem?.mp later
        exact absurd (place (j + 2) u there colon').1 (by omega)
  · have none : ∀ t ∈ ts, t.tag ≠ .colon := fun t member colon => some ⟨t, member, colon⟩
    refine ⟨[], ts, rfl, .inl rfl, ?_, none⟩
    rw [labelLength, Label.any_isColon_eq_false_iff.mpr none]
    rfl

theorem ofTokens_of_hasStrayColon (h : HasStrayColon ts) : Label.ofTokens ts = .misplaced := by
  obtain ⟨i, t, here, colon, stray⟩ := h
  cases label : Label.ofTokens ts with
  | misplaced => rfl
  | absent =>
    exact absurd colon (Label.ofTokens_eq_absent_iff.mp label t (List.mem_of_getElem? here))
  | present =>
    obtain ⟨name, second, rest, rfl, hname, -, none⟩ := Label.ofTokens_eq_present_iff.mp label
    match i, here with
    | 0, here =>
      obtain rfl := Option.some.inj here
      rw [hname] at colon
      cases colon
    | 1, here => exact absurd ⟨rfl, congrArg some hname⟩ stray
    | i + 2, here => exact absurd colon (none t (List.mem_of_getElem? here))

/-! ### The first token out of place -/

/-- Tokens that agree are run through alike. -/
theorem Stage.run_eq_of_map_face (h : ts.map Token.face = us.map Token.face)
    (s : Stage × Context) : run s ts = run s us := by
  induction ts generalizing us s with
  | nil => rw [List.map_eq_nil_iff.mp h.symm]
  | cons t ts ih =>
    obtain ⟨u, us, rfl, same, later⟩ := List.map_eq_cons_iff.mp h.symm
    have tag : t.tag = u.tag := (congrArg Prod.fst same).symm
    have column : t.position.column = u.position.column := (congrArg (·.2.2) same).symm
    have step : advance s t = advance s u := by
      obtain ⟨stage, ctx⟩ := s
      cases stage <;> simp only [advance, next, inCondition, inOperand, tag, column]
    rw [run_cons, run_cons, step]
    cases advance s u with
    | error fault => rfl
    | ok s' => exact ih later.symm s'

theorem map_tag_eq_of_map_face (h : ts.map Token.face = us.map Token.face) :
    ts.map Token.tag = us.map Token.tag := by
  have tags := congrArg (List.map Prod.fst) h
  rwa [List.map_map, List.map_map] at tags

/-- No accepted line agrees with a line up to a token at which the run stops. -/
theorem not_viable (label : IsLabel (front.map Token.tag))
    (length : labelLength (front ++ (us ++ t :: vs)) = front.length)
    (failed : Stage.run (.statementDue, ctx) (us ++ [t]) = .error fault) :
    ¬ Viable ctx (front ++ (us ++ t :: vs)) us.length := by
  rintro ⟨line, candidate, ⟨after, accepted⟩, same⟩
  have upTo : (front ++ (us ++ t :: vs)).take (front.length + us.length + 1) =
      front ++ (us ++ [t]) := by
    rw [Nat.add_assoc, List.take_length_add_append, List.take_length_add_append]
    rfl
  rw [length] at candidate same
  rw [upTo, List.map_append] at same
  obtain ⟨front', later, split, sameFront, sameLater⟩ := List.map_eq_append_iff.mp same
  have whole : line.tokens =
      front' ++ (later ++ line.tokens.drop (front.length + us.length + 1)) := by
    rw [← List.append_assoc, ← split, List.take_append_drop]
  have frontLength : front.length = front'.length := by
    simpa using (congrArg List.length sameFront).symm
  rw [frontLength] at candidate
  rw [candidate.check_eq_run whole (map_tag_eq_of_map_face sameFront ▸ label), Stage.run_append,
    Stage.run_eq_of_map_face sameLater, failed] at accepted
  cases accepted

namespace Line.IsCandidate

variable {line : Line} {start : Nat}

/-- No token ends the line but the last. -/
theorem tag_ne_endOfLine (h : line.IsCandidate start) (same : line.tokens = us ++ t :: vs) :
    ∀ u ∈ us, u.tag ≠ .endOfLine := by
  obtain ⟨ts, stop, whole, -, inner⟩ := h.ended
  have front : ts = us ++ (t :: vs).dropLast := by
    rw [← List.dropLast_append_of_ne_nil (List.cons_ne_nil t vs), ← same, whole,
      List.dropLast_concat]
  intro u member
  exact inner u (front ▸ List.mem_append_left _ member)

/-- Some accepted line agrees with a candidate as long as the run goes on. -/
theorem exists_accepted (h : line.IsCandidate front.length)
    (same : line.tokens = front ++ (us ++ vs)) (label : IsLabel (front.map Token.tag))
    (noStop : ∀ u ∈ us, u.tag ≠ .endOfLine)
    (reached : Stage.run (.statementDue, ctx) us = .ok s) :
    ∃ line' : Line, line'.IsCandidate front.length ∧ (∃ after, line'.check ctx = .ok after) ∧
      line'.tokens.take (front.length + us.length) = front ++ us := by
  have unfinished : s.1 ≠ .lineRead := by
    intro finished
    have fits := Stage.fits_of_run noStop reached
    rw [finished] at fits
    exact fits
  have labelTags : ∀ u ∈ front, u.tag ≠ .endOfLine := by
    intro u member stop
    have member : Tag.endOfLine ∈ front.map Token.tag := List.mem_map.mpr ⟨u, member, stop⟩
    rcases label with none | some
    · simp [none] at member
    · simp [some] at member
  have noColon := h.noColon
  rw [same, List.drop_left] at noColon
  have candidate : (completed (front ++ us) s.1).IsCandidate front.length := by
    refine isCandidate_completed s.1 (fun u member => ?_) (fun u member => ?_) ?_ ?_
    · exact h.lexical u (by rw [same, ← List.append_assoc]; exact List.mem_append_left _ member)
    · exact (List.mem_append.mp member).elim (labelTags u) (noStop u)
    · rw [List.length_append]
      exact Nat.le_add_right ..
    · rw [List.drop_left]
      exact fun u member => noColon u (List.mem_append_left _ member)
  refine ⟨_, candidate, ⟨s.2, ?_⟩, ?_⟩
  · have whole : (completed (front ++ us) s.1).tokens = front ++ (us ++ _) :=
      List.append_assoc ..
    rw [candidate.check_eq_run whole label, Stage.run_append, reached]
    change (Stage.run s _).map Prod.snd = _
    rw [Stage.run_completion unfinished s.2]
    rfl
  · rw [completed, ← List.length_append, List.take_left]

end Line.IsCandidate

/-- The first token that no accepted line shares is the one at which the run stops. -/
theorem isLeast_not_viable {line : Line} (h : line.IsCandidate front.length)
    (same : line.tokens = front ++ (us ++ t :: vs)) (label : IsLabel (front.map Token.tag))
    (length : labelLength line.tokens = front.length)
    (reached : Stage.run (.statementDue, ctx) us = .ok s)
    (failed : Stage.advance s t = .error fault) :
    IsLeast {k | ¬ Viable ctx line.tokens k} us.length := by
  constructor
  · rw [same] at length ⊢
    exact not_viable label length (by rw [Stage.run_concat, reached]; exact failed)
  · intro k notViable
    by_contra earlier
    apply notViable
    have noStop := h.tag_ne_endOfLine (same.trans (List.append_assoc front us (t :: vs)).symm)
    -- the run goes on behind token `k`
    obtain ⟨s', reached'⟩ : ∃ s', Stage.run (.statementDue, ctx) (us.take (k + 1)) = .ok s' := by
      rw [← List.take_append_drop (k + 1) us, Stage.run_append, bind_eq_ok_iff] at reached
      obtain ⟨s', reached', -⟩ := reached
      exact ⟨s', reached'⟩
    have same' : line.tokens = front ++ (us.take (k + 1) ++ (us.drop (k + 1) ++ t :: vs)) := by
      rw [← List.append_assoc (us.take _), List.take_append_drop, same]
    obtain ⟨line', candidate, accepted, upTo⟩ := h.exists_accepted same' label
      (fun u member => noStop u (List.mem_append_right _ (List.mem_of_mem_take member))) reached'
    have taken : (us.take (k + 1)).length = k + 1 := by
      rw [List.length_take]
      omega
    rw [taken] at upTo
    refine ⟨line', length ▸ candidate, accepted, ?_⟩
    have upTo' : line.tokens.take (front.length + (k + 1)) = front ++ us.take (k + 1) := by
      rw [same', List.take_length_add_append, List.take_left' taken]
    rw [length, Nat.add_assoc, upTo, upTo']

/-- The line of a text is a candidate for itself unless it has a stray colon. -/
theorem isCandidate_ofText {line : Int} {start : Nat}
    (h : ∀ t ∈ (tokenize line text).drop start, t.tag ≠ .colon) :
    (Line.ofText line text).IsCandidate start where
  lexical _ member := isLexical_of_mem_tokenize member
  ended := by
    obtain ⟨p, same, spelled⟩ := exists_tokenize_eq line text
    exact ⟨_, _, same, rfl, fun t member => (spelled t member).tag_ne_endOfLine⟩
  noColon := h

theorem exists_check_eq_error {verdict : Verdict} (failed : judgeLine text ctx = .error verdict) :
    ∃ fault, (Line.ofText ctx.line text).check ctx = .error fault ∧
      verdict = .rejected ctx.line fault := by
  rw [judgeLine, checkLine] at failed
  cases outcome : (Line.ofText ctx.line text).check ctx with
  | ok after =>
    rw [outcome] at failed
    cases failed
  | error fault =>
    rw [outcome] at failed
    exact ⟨fault, rfl, (Except.error.inj failed).symm⟩

/-- A line is rejected for a stray colon, if it has one, and otherwise for its first token that no
accepted line shares. What precedes this token decides which fault it is reported as. -/
theorem judgeLine_diagnosis {verdict : Verdict} (failed : judgeLine text ctx = .error verdict) :
    ∃ fault, verdict = .rejected ctx.line fault ∧
      (HasStrayColon (tokenize ctx.line text) → fault = .label) ∧
      (¬ HasStrayColon (tokenize ctx.line text) → ∃ k t,
        IsLeast {k | ¬ Viable ctx (tokenize ctx.line text) k} k ∧
        (unlabelled (tokenize ctx.line text))[k]? = some t ∧
        fault = diagnosis (openStatement ((unlabelled (tokenize ctx.line text)).take k)) t.tag) := by
  obtain ⟨fault, rejected, rfl⟩ := exists_check_eq_error failed
  refine ⟨fault, rfl, fun stray => ?_, fun noStray => ?_⟩
  · rw [Line.check, Line.ofText_tokens, ofTokens_of_hasStrayColon stray] at rejected
    exact (Except.error.inj rejected).symm
  · obtain ⟨front, body, same, label, length, noColon⟩ := exists_label_of_not_hasStrayColon noStray
    have candidate : (Line.ofText ctx.line text).IsCandidate front.length :=
      isCandidate_ofText (by rwa [same, List.drop_left])
    have run : Stage.run (.statementDue, ctx) body = .error fault := by
      rw [candidate.check_eq_run same label] at rejected
      cases outcome : Stage.run (.statementDue, ctx) body with
      | ok s =>
        rw [outcome] at rejected
        cases rejected
      | error fault' =>
        rw [outcome] at rejected
        exact congrArg _ (Except.error.inj rejected)
    obtain ⟨us, t, vs, s, rfl, reached, stopped⟩ := Stage.run_eq_error_iff.mp run
    have rest : unlabelled (tokenize ctx.line text) = us ++ t :: vs := by
      rw [unlabelled, length, same, List.drop_left]
    refine ⟨us.length, t, isLeast_not_viable candidate same label length reached stopped, ?_, ?_⟩
    · rw [rest]
      simp
    · rw [rest, List.take_left]
      have noStop := candidate.tag_ne_endOfLine
        (same.trans (List.append_assoc front us (t :: vs)).symm)
      exact Stage.eq_diagnosis_of_run
        (fun u member => noStop u (List.mem_append_right _ member)) reached stopped

/-- The line agrees with accepted lines up to the parenthesis, as it may hold the left side of a
comparison, but with none up to the name behind it. -/
theorem judgeLine_diagnosis_unfinishedComparison :
    judgeLine "if (a) x" ⟨1, 0⟩ = .error (.rejected 1 .comparison) ∧ ∃ k t,
      IsLeast {k | ¬ Viable ⟨1, 0⟩ (tokenize 1 "if (a) x") k} k ∧
      (unlabelled (tokenize 1 "if (a) x"))[k]? = some t ∧
      Fault.comparison =
        diagnosis (openStatement ((unlabelled (tokenize 1 "if (a) x")).take k)) t.tag := by
  have failed : judgeLine "if (a) x" ⟨1, 0⟩ = .error (.rejected 1 .comparison) := by
    decide +kernel
  have noColon : ∀ t ∈ tokenize 1 "if (a) x", t.tag ≠ .colon := by
    decide +kernel
  obtain ⟨fault, same, -, found⟩ := judgeLine_diagnosis failed
  obtain rfl : Fault.comparison = fault := by
    injection same
  refine ⟨failed, found ?_⟩
  rintro ⟨i, t, here, colon, -⟩
  exact noColon t (List.mem_of_getElem? here) colon

end LineBasic
