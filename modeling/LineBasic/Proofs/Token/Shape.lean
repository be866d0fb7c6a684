import LineBasic.Proofs.Cursor.Basic

/-!
# The shape of a sequence of tokens

The shape of a line is what is left of its tokens when their lexemes and positions are
forgotten: their tags, and the places where a sign touches the number behind it. The
number of the line in which a text stands is no part of it, nor is the column in which it
begins, unless the text has line feeds.

## Main definitions

* `signedPlaces`: the places where a sign touches a number.
* `SameShape`: whether two sequences of tokens have the same shape.

## Main results

* `Token.sequence_relocate`: tokens of one text at two places.
* `tokenize_eq_map_lower`: tokens of one text in two lines.
* `Token.sequence_right`: tokens of one text at two columns.
* `sameShape_tokenize`: a text has the same shape in any line.
-/

namespace LineBasic

instance (s t : Token) : Decidable (s.Touches t) :=
  inferInstanceAs (Decidable (_ = _))

/-- Whether a sign stands at a place and touches a number behind it. -/
def isSignedAt (ts : List Token) (i : Nat) : Bool :=
  match ts[i]?, ts[i + 1]? with
  | some sign, some digits =>
    decide ((sign.tag = .plus ∨ sign.tag = .minus) ∧ digits.tag = .number ∧ sign.Touches digits)
  | _, _ => false

/-- The places where a sign touches a number. -/
def signedPlaces (ts : List Token) : List Nat :=
  (List.range ts.length).filter fun i => isSignedAt ts i

/-- Whether two sequences have the same tags in the same order, and signs that touch
numbers at the same places. -/
def SameShape (ts us : List Token) : Prop :=
  ts.map Token.tag = us.map Token.tag ∧ signedPlaces ts = signedPlaces us

instance (ts us : List Token) : Decidable (SameShape ts us) :=
  inferInstanceAs (Decidable (_ ∧ _))

variable {ts us vs : List Token}

theorem isSignedAt_tail (ts : List Token) (i : Nat) :
    isSignedAt ts.tail i = isSignedAt ts (i + 1) := by
  simp only [isSignedAt, List.getElem?_tail]

theorem isSignedAt_eq_false_of_length_le {i : Nat} (h : ts.length ≤ i) :
    isSignedAt ts i = false := by
  rw [isSignedAt, List.getElem?_eq_none h]

theorem mem_signedPlaces {i : Nat} : i ∈ signedPlaces ts ↔ isSignedAt ts i = true := by
  rw [signedPlaces, List.mem_filter, List.mem_range, and_iff_right_iff_imp]
  intro signed
  by_contra outside
  rw [isSignedAt_eq_false_of_length_le (Nat.not_lt.mp outside)] at signed
  exact nomatch signed

namespace SameShape

theorem refl (ts : List Token) : SameShape ts ts :=
  ⟨rfl, rfl⟩

theorem trans (h : SameShape ts us) (h' : SameShape us vs) : SameShape ts vs :=
  ⟨h.1.trans h'.1, h.2.trans h'.2⟩

/-- Sequences of the same shape have signed numbers at the same places. -/
theorem isSignedAt_eq (h : SameShape ts us) (i : Nat) : isSignedAt ts i = isSignedAt us i := by
  rw [Bool.eq_iff_iff, ← mem_signedPlaces, ← mem_signedPlaces, h.2]

end SameShape

/-! ### The place of a text -/

/-- The token at the position to which its own is taken. -/
def Token.relocate (f : Position → Position) (t : Token) : Token :=
  { t with position := f t.position }

variable {cs : List Char} {f : Position → Position}

theorem Position.advance_relocate (steps : ∀ c ∈ cs, ∀ p, next (f p) c = f (next p c))
    (p : Position) : (f p).advance cs = f (p.advance cs) := by
  induction cs generalizing p with
  | nil => rfl
  | cons c cs ih =>
    obtain ⟨here, later⟩ := List.forall_mem_cons.mp steps
    rw [advance_cons, advance_cons, here, ih later]

/-- If reading the characters of a text keeps up with a map of positions, the text has the same
tokens wherever the map takes its beginning. -/
theorem Token.sequence_relocate (steps : ∀ c ∈ cs, ∀ p, Position.next (f p) c = f (p.next c))
    (p : Position) : sequence (f p) cs = (sequence p cs).map (relocate f) := by
  fun_induction sequence p cs with
  | case1 p => rw [sequence]; rfl
  | case2 p c cs blank ih =>
    obtain ⟨here, later⟩ := List.forall_mem_cons.mp steps
    rw [sequence, if_pos blank, here, ih later]
  | case3 p c cs solid piece ih =>
    have whole : piece.lexeme ++ piece.rest = c :: cs := (Piece.lexeme_append_rest c cs).1
    rw [← whole] at steps
    obtain ⟨here, later⟩ := List.forall_mem_append.mp steps
    rw [sequence, if_neg solid, List.map_cons, ← ih later, ← Position.advance_relocate here]
    rfl

/-- A map that moves all columns alike leaves the shape as it is. -/
theorem sameShape_map_relocate {columns : Int} (even : ∀ p, (f p).column = p.column + columns)
    (ts : List Token) : SameShape ts (ts.map (Token.relocate f)) := by
  have touches (t u : Token) : (t.relocate f).Touches (u.relocate f) ↔ t.Touches u := by
    simp only [Token.Touches, Token.relocate, even]
    omega
  have signed (i : Nat) : isSignedAt (ts.map (Token.relocate f)) i = isSignedAt ts i := by
    rw [isSignedAt, isSignedAt, List.getElem?_map, List.getElem?_map]
    cases ts[i]? with
    | none => rfl
    | some t =>
      cases ts[i + 1]? with
      | none => rfl
      | some u =>
        simp only [Option.map_some, touches]
        rfl
  refine ⟨?_, ?_⟩
  · rw [List.map_map]
    rfl
  · rw [signedPlaces, signedPlaces, List.length_map]
    simp only [signed]

/-- The position some lines further down. -/
def Position.lower (p : Position) (lines : Int) : Position :=
  ⟨p.line + lines, p.column⟩

/-- The token some lines further down. -/
def Token.lower (t : Token) (lines : Int) : Token :=
  { t with position := t.position.lower lines }

/-- The position some columns further on. -/
def Position.right (p : Position) (columns : Int) : Position :=
  ⟨p.line, p.column + columns⟩

/-- The token some columns further on. -/
def Token.right (t : Token) (columns : Int) : Token :=
  { t with position := t.position.right columns }

theorem Position.next_lower (p : Position) (lines : Int) (c : Char) :
    (p.lower lines).next c = (p.next c).lower lines := by
  by_cases feed : c = '\n' <;> simp [next, lower, feed]
  omega

/-- A line feed leads back to the first column, from wherever it is read. -/
theorem Position.next_right {c : Char} (noFeed : c ≠ '\n') (p : Position) (columns : Int) :
    (p.right columns).next c = (p.next c).right columns := by
  simp only [next, right, if_neg noFeed, Position.mk.injEq, true_and]
  omega

/-- A text further down has the same tokens further down. -/
theorem Token.sequence_lower (p : Position) (lines : Int) (cs : List Char) :
    sequence (p.lower lines) cs = (sequence p cs).map (·.lower lines) :=
  sequence_relocate (fun c _ p => p.next_lower lines c) p

/-- A text without a line feed has the same tokens further on, if it begins further on. -/
theorem Token.sequence_right (noFeed : '\n' ∉ cs) (p : Position) (columns : Int) :
    sequence (p.right columns) cs = (sequence p cs).map (·.right columns) :=
  sequence_relocate (fun _ member p => p.next_right (ne_of_mem_of_not_mem member noFeed) columns) p

theorem sameShape_map_lower (ts : List Token) (lines : Int) :
    SameShape ts (ts.map (·.lower lines)) :=
  sameShape_map_relocate (f := (·.lower lines)) (fun p => (Int.add_zero p.column).symm) ts

/-- A text without a line feed has the same shape wherever it begins. -/
theorem Token.sameShape_sequence (noFeed : '\n' ∉ cs) (p q : Position) :
    SameShape (sequence p cs) (sequence q cs) := by
  have place : q = (p.lower (q.line - p.line)).right (q.column - p.column) := by
    simp only [Position.lower, Position.right]
    exact Position.mk.injEq .. ▸ ⟨by omega, by omega⟩
  rw [place, sequence_right noFeed, sequence_lower]
  exact (sameShape_map_lower _ _).trans
    (sameShape_map_relocate (f := (·.right (q.column - p.column))) (fun _ => rfl) _)

/-- What holds of the tags of a text without a line feed holds of them wherever it begins. -/
theorem Token.forall_tag_sequence (kind : Tag → Prop) {p : Position} (noFeed : '\n' ∉ cs)
    (h : ∀ t ∈ sequence p cs, kind t.tag) (q : Position) : ∀ t ∈ sequence q cs, kind t.tag := by
  intro t member
  have tags := (sameShape_sequence noFeed q p).1
  obtain ⟨u, member', same⟩ := List.mem_map.mp (tags ▸ List.mem_map_of_mem member)
  exact same ▸ h u member'

theorem tokenize_eq_map_lower (line line' : Int) (text : String) :
    tokenize line' text = (tokenize line text).map (·.lower (line' - line)) := by
  rw [tokenize, tokenize, ← Token.sequence_lower]
  congr 1
  simp only [Position.lower, Position.startOf, Position.mk.injEq, and_true]
  omega

/-- A text has the same shape in any line. -/
theorem sameShape_tokenize (line line' : Int) (text : String) :
    SameShape (tokenize line text) (tokenize line' text) := by
  rw [tokenize_eq_map_lower line line']
  exact sameShape_map_lower _ _

end LineBasic
