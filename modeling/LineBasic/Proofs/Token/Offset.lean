import LineBasic.Proofs.Token.Coverage

/-!
# Where tokens begin

A token keeps a line and a column. Together they name one place in the text, so a token
begins behind a number of characters that its position determines.

## Main definitions

* `Token.BeginsAt`: whether a token begins behind a number of characters of a text.

## Main results

* `Token.BeginsAt.unique`: a token begins at one place only.
* `exists_gap_between`: between two tokens in a row there are only blanks.
-/

namespace LineBasic

namespace Position

theorem line_advance (p : Position) (cs : List Char) :
    (p.advance cs).line = p.line + cs.count '\n' := by
  induction cs generalizing p with
  | nil => simp
  | cons c cs ih =>
    rw [advance_cons, ih, next]
    by_cases feed : c = '\n'
    · subst feed
      simp [Int.add_comm, Int.add_left_comm]
    · simp [feed]

/-- Reading anything leads to another position. -/
theorem eq_nil_of_advance_eq {p : Position} {cs : List Char} (h : p.advance cs = p) : cs = [] := by
  -- the line stays the same only without line feeds, and then the column counts
  have feeds := p.line_advance cs
  rw [h] at feeds
  have noFeed : '\n' ∉ cs := List.count_eq_zero.mp (by omega)
  rw [advance_of_not_mem_newline noFeed] at h
  have column : p.column + cs.length = p.column := congrArg Position.column h
  exact List.eq_nil_of_length_eq_zero (by omega)

/-- No two beginnings of a text end at the same position. -/
theorem length_le_of_advance_take_eq {p : Position} {cs : List Char} {i j : Nat}
    (within : i ≤ cs.length) (h : p.advance (cs.take i) = p.advance (cs.take j)) : i ≤ j := by
  by_contra less
  have split : cs.take i = cs.take j ++ (cs.drop j).take (i - j) := by
    rw [← List.take_add]
    congr 1
    omega
  rw [split, advance_append] at h
  have nothing := congrArg List.length (eq_nil_of_advance_eq h)
  rw [List.length_take, List.length_drop, List.length_nil] at nothing
  omega

end Position

/-- Whether a token begins behind the first `offset` characters of a text. -/
structure Token.BeginsAt (t : Token) (line : Int) (text : String) (offset : Nat) : Prop where
  within : offset ≤ text.toList.length
  position : t.position = .behind line (text.toList.take offset)

/-- A token begins at one place only. -/
theorem Token.BeginsAt.unique {t : Token} {line : Int} {text : String} {i j : Nat}
    (h : t.BeginsAt line text i) (h' : t.BeginsAt line text j) : i = j := by
  have same := h.position.symm.trans h'.position
  rw [← Position.advance_startOf, ← Position.advance_startOf] at same
  exact Nat.le_antisymm (Position.length_le_of_advance_take_eq h.within same)
    (Position.length_le_of_advance_take_eq h'.within same.symm)

/-- Reading what lies between the beginnings of two tokens leads from the position of the one to
that of the other. -/
theorem Token.BeginsAt.position_eq {t u : Token} {line : Int} {text : String} {offset : Nat}
    {cs : List Char} (h : t.BeginsAt line text offset) (between : cs <+: text.toList.drop offset)
    (h' : u.BeginsAt line text (offset + cs.length)) : u.position = t.position.advance cs := by
  rw [h'.position, h.position, List.take_add, ← List.prefix_iff_eq_take.mp between,
    ← Position.advance_startOf, ← Position.advance_startOf, Position.advance_append]

/-- The tokens of a text, the one that ends the line among them, stand one behind the other
with only blanks between them. -/
theorem exists_spaced (line : Int) (text : String) : ∃ parts,
    tokenize line text = parts.map Spaced.token ∧ text.toList = writtenOut parts ∧
      (∀ part ∈ parts, ∀ c ∈ part.gap, Text.isBlank c = true) ∧
      ∀ front part back, parts = front ++ part :: back →
        part.token.BeginsAt line text (writtenOut front ++ part.gap).length := by
  obtain ⟨parts, trailing, tokens, whole, blankEnd, inner, position⟩ := tokenize_lossless line text
  have whole' : text.toList = writtenOut (parts ++
      [⟨trailing, ⟨.endOfLine, "", .behind line text.toList⟩⟩]) := by
    simp [whole, writtenOut]
  refine ⟨_, ?_, whole', ?_, fun front part back split => ?_⟩
  · rw [tokens, List.map_append, List.map_singleton]
  · intro part member
    rcases List.mem_append.mp member with member | member
    · exact (inner part member).1
    · exact List.mem_singleton.mp member ▸ blankEnd
  · have before : writtenOut front ++ part.gap <+: text.toList := by
      rw [whole', split]
      simp [writtenOut]
    refine ⟨before.length_le, ?_⟩
    rw [← List.prefix_iff_eq_take.mp before]
    -- the last of the parts ends the line, all others are words
    rcases List.eq_nil_or_concat back with rfl | ⟨back, last, rfl⟩
    · obtain ⟨rfl, same⟩ := List.append_inj' split rfl
      obtain rfl := (List.cons.inj same).1
      exact congrArg (Position.behind line) whole
    · rw [List.concat_eq_append, ← List.cons_append, ← List.append_assoc] at split
      exact position front part back (List.append_inj' split rfl).1

/-- Between two tokens in a row there are only blanks. -/
theorem exists_gap_between {line : Int} {text : String} {front back : List Token} {t u : Token}
    {offset : Nat} (split : tokenize line text = front ++ t :: u :: back)
    (begins : t.BeginsAt line text offset) : ∃ gap, (∀ c ∈ gap, Text.isBlank c = true) ∧
      t.lexeme.toList ++ gap <+: text.toList.drop offset ∧
      u.BeginsAt line text (offset + t.lexeme.length + gap.length) := by
  obtain ⟨parts, tokens, whole, blank, place⟩ := exists_spaced line text
  obtain ⟨parts₁, behind, rfl, -, later⟩ := List.map_eq_append_iff.mp (tokens.symm.trans split)
  obtain ⟨first, behind, rfl, rfl, latest⟩ := List.map_eq_cons_iff.mp later
  obtain ⟨second, parts₂, rfl, rfl, -⟩ := List.map_eq_cons_iff.mp latest
  obtain rfl := begins.unique (place parts₁ first (second :: parts₂) rfl)
  refine ⟨second.gap, blank second (by simp), ?_, ?_⟩
  · refine ⟨second.token.lexeme.toList ++ writtenOut parts₂, ?_⟩
    have around : text.toList = (writtenOut parts₁ ++ first.gap) ++
        (first.token.lexeme.toList ++ second.gap ++
          (second.token.lexeme.toList ++ writtenOut parts₂)) := by
      simp [whole, writtenOut]
    rw [around, List.drop_left]
  · have begins := place (parts₁ ++ [first]) second parts₂ (by simp)
    have offset : (writtenOut (parts₁ ++ [first]) ++ second.gap).length =
        (writtenOut parts₁ ++ first.gap).length + first.token.lexeme.length +
          second.gap.length := by
      simp [writtenOut, Nat.add_assoc, String.length_toList]
    rwa [offset] at begins

end LineBasic
