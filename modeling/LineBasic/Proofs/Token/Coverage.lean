import LineBasic.CharStream
import LineBasic.Proofs.Token.Spelling
import Mathlib.Data.List.Induction

/-!
# Tokens cover their text

Cutting a text into tokens loses nothing but blanks. The tokens, each behind the
blanks that stand before it, and the blanks at the end make up the text again, and
every token knows the line and the column in which it begins.

## Main definitions

* `Position.behind`: the position at the end of a text, counted in its characters.
* `Spaced`: a token and the blanks before it.
* `Covers`: whether tokens and the blanks between them make up a text.

## Main results

* `Token.exists_covers`: the tokens of a text cover it.
* `tokenize_lossless`: the same with lines and columns counted.
* `CharStream.sequence_eq`: reading token after token from a stream finds the tokens
  of what it has not yet read.
-/

namespace LineBasic

/-- The position at the end of a text that begins in column one of a line: each line
feed begins a new line, and the column counts the characters behind the last one. -/
def Position.behind (line : Int) (cs : List Char) : Position :=
  ⟨line + cs.count '\n', 1 + (cs.reverse.takeWhile (· ≠ '\n')).length⟩

/-- Reading a text from its beginning leads to the position at its end. -/
theorem Position.advance_startOf (line : Int) (cs : List Char) :
    (startOf line).advance cs = behind line cs := by
  -- the last character decides whether the column starts anew
  induction cs using List.reverseRecOn with
  | nil => simp [startOf, behind]
  | append_singleton cs c ih =>
    rw [advance_append, ih, advance_cons, advance_nil, next]
    by_cases feed : c = '\n'
    · subst feed
      simp [behind, Int.add_assoc]
    · simp [behind, feed, Int.add_assoc]

/-- A token of a text and the blanks that stand before it. -/
structure Spaced where
  gap : List Char
  token : Token

/-- The characters of tokens and of the blanks before each of them. -/
def writtenOut (parts : List Spaced) : List Char :=
  parts.flatMap fun part => part.gap ++ part.token.lexeme.toList

/-- Whether tokens, each behind its blanks, and the blanks at the end make up a text
that begins at a position, and each token has the position where it begins. -/
structure Covers (p : Position) (cs : List Char) (parts : List Spaced) (trailing : List Char) :
    Prop where
  whole : cs = writtenOut parts ++ trailing
  trailing : ∀ c ∈ trailing, Text.isBlank c = true
  gap : ∀ part ∈ parts, ∀ c ∈ part.gap, Text.isBlank c = true
  tag : ∀ part ∈ parts, part.token.tag ≠ .endOfLine
  lexeme : ∀ part ∈ parts, part.token.lexeme ≠ "" ∧
    ∀ c ∈ part.token.lexeme.toList, Text.isBlank c = false
  position : ∀ front part back, parts = front ++ part :: back →
    part.token.position = p.advance (writtenOut front ++ part.gap)

namespace Covers

variable {p : Position} {cs gap trailing : List Char} {parts : List Spaced}

theorem of_blank (blank : ∀ c ∈ cs, Text.isBlank c = true) : Covers p cs [] cs where
  whole := rfl
  trailing := blank
  gap := fun _ member => absurd member List.not_mem_nil
  tag := fun _ member => absurd member List.not_mem_nil
  lexeme := fun _ member => absurd member List.not_mem_nil
  position := fun front part back split => absurd split (by simp)

/-- One more token in front of those that cover the rest of a text. -/
theorem cons {t : Token} (blank : ∀ c ∈ gap, Text.isBlank c = true) (tag : t.tag ≠ .endOfLine)
    (lexeme : t.lexeme ≠ "" ∧ ∀ c ∈ t.lexeme.toList, Text.isBlank c = false)
    (position : t.position = p.advance gap)
    (later : Covers (p.advance (gap ++ t.lexeme.toList)) cs parts trailing) :
    Covers p (gap ++ t.lexeme.toList ++ cs) (⟨gap, t⟩ :: parts) trailing where
  whole := by simp only [later.whole, writtenOut, List.flatMap_cons, List.append_assoc]
  trailing := later.trailing
  gap := List.forall_mem_cons.mpr ⟨blank, later.gap⟩
  tag := List.forall_mem_cons.mpr ⟨tag, later.tag⟩
  lexeme := List.forall_mem_cons.mpr ⟨lexeme, later.lexeme⟩
  position := by
    intro front part back split
    cases front with
    | nil =>
      obtain ⟨rfl, -⟩ := List.cons.inj split
      exact position
    | cons first front =>
      obtain ⟨rfl, split'⟩ := List.cons.inj split
      rw [later.position front part back split', ← Position.advance_append, writtenOut, writtenOut,
        List.flatMap_cons, List.append_assoc _ _ part.gap]

end Covers

/-- A token that does not begin with a blank holds none. -/
theorem Spelling.isBlank_eq_false {tag : Tag} {c : Char} {cs : List Char}
    (h : Spelling tag (c :: cs)) (solid : Text.isBlank c = false) :
    ∀ d ∈ c :: cs, Text.isBlank d = false := by
  cases h with
  | word first later =>
    refine List.forall_mem_cons.mpr ⟨solid, fun d member => ?_⟩
    exact Text.isBlank_eq_false_of_isAlphanum (List.all_eq_true.mp later d member)
  | digits digits =>
    refine List.forall_mem_cons.mpr ⟨solid, fun d member => ?_⟩
    have digit := List.all_eq_true.mp (isDigits_cons_iff.mp digits).2 d member
    exact Text.isBlank_eq_false_of_isAlphanum (by rw [Char.isAlphanum, digit, Bool.or_true])
  | symbol found =>
    have symbols : Vocabulary.symbols.all
        (fun entry => entry.1.toList.all fun d => !Text.isBlank d) = true := by
      decide
    have all := List.all_eq_true.mp symbols _ (Vocabulary.mem_symbols_of_symbolTag? found)
    simpa only [String.toList_ofList, List.all_eq_true, Bool.not_eq_true'] using all
  | unknown => simpa using solid

/-- A piece begins with the character it is cut from, and holds no blank. -/
theorem Piece.isBlank_eq_false_of_mem_cut {c : Char} (solid : Text.isBlank c = false)
    (cs : List Char) : ∀ d ∈ (cut c cs).lexeme, Text.isBlank d = false := by
  obtain ⟨whole, nonempty⟩ := lexeme_append_rest c cs
  obtain ⟨first, later, same⟩ := List.exists_cons_of_ne_nil nonempty
  have spelled := spelling_cut c cs
  rw [same] at whole spelled ⊢
  obtain ⟨rfl, -⟩ := List.cons.inj whole
  exact spelled.isBlank_eq_false solid

namespace Token

variable {p : Position} {c : Char} {cs gap : List Char}

theorem sequence_nil (p : Position) : sequence p [] = [endOfLine p] := by
  rw [sequence]

theorem sequence_cons_of_not_isBlank (solid : Text.isBlank c = false) (p : Position)
    (cs : List Char) : sequence p (c :: cs) = ofPiece p (Piece.cut c cs) ::
      sequence (p.advance (Piece.cut c cs).lexeme) (Piece.cut c cs).rest := by
  rw [sequence, if_neg (Bool.eq_false_iff.mp solid)]

/-- Blanks only move the position of what comes behind them. -/
theorem sequence_append_of_isBlank (blank : ∀ c ∈ gap, Text.isBlank c = true) (p : Position)
    (cs : List Char) : sequence p (gap ++ cs) = sequence (p.advance gap) cs := by
  induction gap generalizing p with
  | nil => rfl
  | cons c gap ih =>
    obtain ⟨here, later⟩ := List.forall_mem_cons.mp blank
    rw [List.cons_append, sequence, if_pos here, ih later, Position.advance_cons]

/-- A text begins with blanks, and behind them ends or goes on with another character. -/
theorem exists_gap (cs : List Char) : ∃ gap, (∀ c ∈ gap, Text.isBlank c = true) ∧
    (cs = gap ∨ ∃ c ds, cs = gap ++ c :: ds ∧ Text.isBlank c = false) := by
  induction cs with
  | nil => exact ⟨[], fun _ member => absurd member List.not_mem_nil, .inl rfl⟩
  | cons c cs ih =>
    by_cases here : Text.isBlank c = true
    · obtain ⟨gap, blank, rfl | ⟨d, ds, rfl, solid⟩⟩ := ih
      · exact ⟨c :: cs, List.forall_mem_cons.mpr ⟨here, blank⟩, .inl rfl⟩
      · exact ⟨c :: gap, List.forall_mem_cons.mpr ⟨here, blank⟩, .inr ⟨d, ds, rfl, solid⟩⟩
    · refine ⟨[], fun _ member => absurd member List.not_mem_nil, .inr ⟨c, cs, rfl, ?_⟩⟩
      exact Bool.eq_false_iff.mpr here

/-- The tokens of a text are those that cover it and the one that ends the line. -/
theorem exists_covers (p : Position) (cs : List Char) : ∃ parts trailing,
    sequence p cs = parts.map Spaced.token ++ [endOfLine (p.advance cs)] ∧
      Covers p cs parts trailing := by
  obtain ⟨gap, blank, rfl | ⟨c, ds, split, solid⟩⟩ := exists_gap cs
  · refine ⟨[], cs, ?_, .of_blank blank⟩
    have nothing := sequence_append_of_isBlank blank p []
    rwa [List.append_nil, sequence_nil] at nothing
  · -- a piece is cut off behind the blanks, and what it leaves is shorter
    have shorter : (Piece.cut c ds).rest.length < cs.length := by
      rw [split, List.length_append]
      exact Nat.lt_of_lt_of_le (Piece.length_rest_lt c ds) (Nat.le_add_left _ _)
    obtain ⟨parts, trailing, tokens, covers⟩ :=
      exists_covers (p.advance (gap ++ (Piece.cut c ds).lexeme)) (Piece.cut c ds).rest
    obtain ⟨whole, nonempty⟩ := Piece.lexeme_append_rest c ds
    let t := ofPiece (p.advance gap) (Piece.cut c ds)
    have lexeme : t.lexeme.toList = (Piece.cut c ds).lexeme := String.toList_ofList
    refine ⟨⟨gap, t⟩ :: parts, trailing, ?_, ?_⟩
    · rw [split, sequence_append_of_isBlank blank, sequence_cons_of_not_isBlank solid,
        ← Position.advance_append, tokens, ← Position.advance_append, List.append_assoc, whole]
      rfl
    · rw [split, ← whole, ← lexeme, ← List.append_assoc]
      rw [← lexeme] at covers nonempty
      refine .cons blank (Piece.spelling_cut c ds).tag_ne_endOfLine ⟨?_, ?_⟩ rfl covers
      · exact fun empty => nonempty (by rw [empty]; rfl)
      · rw [lexeme]
        exact Piece.isBlank_eq_false_of_mem_cut solid ds
termination_by cs.length

end Token

namespace CharStream

variable {s : CharStream} {xs ys : List Char}

/-- The stream after reading the characters that come next. -/
theorem rest_position_skip (h : s.rest = xs ++ ys) :
    (s.skip xs.length).rest = ys ∧ (s.skip xs.length).position = s.position.advance xs := by
  constructor
  · rw [rest_skip, h, List.drop_left]
  · change s.position.advance (s.rest.take xs.length) = _
    rw [h, List.take_left]

theorem rest_position_skipBlanks (s : CharStream) :
    s.skipBlanks.rest = s.rest.dropWhile Text.isBlank ∧
      s.skipBlanks.position = s.position.advance (s.rest.takeWhile Text.isBlank) :=
  rest_position_skip List.takeWhile_append_dropWhile.symm

/-- Reading token after token, up to the one that ends the line, finds the tokens of all
that a stream has not yet read. -/
theorem sequence_eq (s : CharStream) : Token.sequence s.position s.rest =
    if s.token.1.tag = .endOfLine then [s.token.1]
    else s.token.1 :: Token.sequence s.token.2.position s.token.2.rest := by
  have split := (List.takeWhile_append_dropWhile (p := Text.isBlank) (l := s.rest)).symm
  have blank : ∀ c ∈ s.rest.takeWhile Text.isBlank, Text.isBlank c = true :=
    List.all_eq_true.mp List.all_takeWhile
  obtain ⟨left, place⟩ := s.rest_position_skipBlanks
  rw [split, Token.sequence_append_of_isBlank blank, ← left, ← place]
  cases rest : s.skipBlanks.rest with
  | nil =>
    have last : s.token = (Token.endOfLine s.skipBlanks.position, s.skipBlanks) := by
      simp only [token, rest, Token.endOfLine]
    rw [last, Token.sequence_nil]
    exact (if_pos rfl).symm
  | cons c cs =>
    have solid : Text.isBlank c = false :=
      (Text.dropWhile_isBlank_eq_iff.mp (left.symm.trans rest)).2 c rfl
    have first : s.token = (Token.ofPiece s.skipBlanks.position (Piece.cut c cs),
        s.skipBlanks.skip (Piece.cut c cs).lexeme.length) := by
      simp only [token, rest, Token.ofPiece]
    have whole := (Piece.lexeme_append_rest c cs).1
    obtain ⟨rest', position⟩ := rest_position_skip (rest.trans whole.symm)
    rw [first, Token.sequence_cons_of_not_isBlank solid, ← rest', ← position]
    exact (if_neg (Piece.spelling_cut c cs).tag_ne_endOfLine).symm

end CharStream

/-- The tokens of a text are words without blanks and one token of no characters that
ends the line. The words, with blanks between them, make up the text. The line of a word
is the first line and one more for each line feed before the word, and its column counts
the characters behind the last of these; the token that ends the line has the position of
the end of the text. -/
theorem tokenize_lossless (line : Int) (text : String) : ∃ parts trailing,
    tokenize line text =
        parts.map Spaced.token ++ [⟨.endOfLine, "", .behind line text.toList⟩] ∧
      text.toList = writtenOut parts ++ trailing ∧
      (∀ c ∈ trailing, Text.isBlank c = true) ∧
      (∀ part ∈ parts, (∀ c ∈ part.gap, Text.isBlank c = true) ∧ part.token.tag ≠ .endOfLine ∧
        part.token.lexeme ≠ "" ∧ ∀ c ∈ part.token.lexeme.toList, Text.isBlank c = false) ∧
      ∀ front part back, parts = front ++ part :: back →
        part.token.position = .behind line (writtenOut front ++ part.gap) := by
  obtain ⟨parts, trailing, tokens, covers⟩ := Token.exists_covers (.startOf line) text.toList
  refine ⟨parts, trailing, ?_, covers.whole, covers.trailing, ?_, ?_⟩
  · rw [tokenize, tokens, Position.advance_startOf]
    rfl
  · exact fun part member => ⟨covers.gap part member, covers.tag part member,
      covers.lexeme part member⟩
  · intro front part back split
    rw [covers.position front part back split, Position.advance_startOf]

end LineBasic
