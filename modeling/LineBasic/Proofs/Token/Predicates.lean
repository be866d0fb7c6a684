import LineBasic.Proofs.Token.LongestMatch
import Mathlib.Data.List.TakeWhile

/-!
# Identifiers and numbers are what the tokens of a text say

Whether a text is an identifier or a number can be said of its characters alone. The tokens of the
text say the same: an identifier is a text that is one word, and a number is a text that is one run
of digits, or a sign and a run of digits with nothing around or between them. No blank, no other
script and no line feed at the end makes a difference between the two.

## Main results

* `Spelling.isIdentifier_iff`: which tokens are identifiers.
* `isNumber_iff`: which texts are numbers.
* `Token.exists_sequence_eq_of_isIdentifier`, `Token.exists_sequence_eq_of_isDigits`: the tokens of
  a word and of a run of digits.
* `predicates_iff_tokenize`: identifiers and numbers by their tokens.
-/

namespace LineBasic

variable {c d : Char} {cs ds : List Char} {tag : Tag} {line : Int} {text : String}

/-! ### Texts by their characters -/

theorem Vocabulary.kind_wordTag (cs : List Char) :
    (wordTag cs).kind = .identifier ∨ (wordTag cs).kind = .keyword := by
  by_contra other
  rw [not_or] at other
  exact wordTag_ne (decide_eq_true other) cs rfl

theorem Vocabulary.isNoWord_of_symbolTag? (h : symbolTag? cs = some tag) :
    isNoWord tag = true := by
  have marks : ∀ entry ∈ symbols, isNoWord entry.2 = true := by decide
  exact marks _ (mem_symbols_of_symbolTag? h)

/-- An identifier is a letter with letters and digits behind it. -/
theorem exists_of_isIdentifier (h : Lexeme.isIdentifier cs = true) :
    ∃ c ds, cs = c :: ds ∧ c.isAlpha = true ∧ ds.all Char.isAlphanum = true := by
  cases cs with
  | nil => cases h
  | cons c ds => exact ⟨c, ds, rfl, isIdentifier_cons_iff.mp h⟩

/-- Of the tokens only words are identifiers, and all of them. -/
theorem Spelling.isIdentifier_iff (h : Spelling tag cs) :
    Lexeme.isIdentifier cs = true ↔ tag.kind = .identifier ∨ tag.kind = .keyword := by
  cases h with
  | @word c cs first later =>
    have word := isIdentifier_cons_iff.mpr ⟨first, later⟩
    exact iff_of_true word (Vocabulary.kind_wordTag _)
  | digits digits =>
    refine iff_of_false ?_ (by decide)
    intro word
    obtain ⟨c, ds, rfl, letter, -⟩ := exists_of_isIdentifier word
    have digit := (isDigits_cons_iff.mp digits).1
    rw [(not_isDigit_of_isAlpha letter).1] at digit
    cases digit
  | symbol found =>
    have noWord := of_decide_eq_true (Vocabulary.isNoWord_of_symbolTag? found)
    refine iff_of_false ?_ (not_or.mpr noWord)
    intro word
    obtain ⟨c, ds, rfl, letter, -⟩ := exists_of_isIdentifier word
    rw [(Vocabulary.shape_of_symbolTag? found).2.1] at letter
    cases letter
  | unknown noLetter =>
    refine iff_of_false ?_ (by decide)
    intro word
    rw [Lexeme.isIdentifier, noLetter] at word
    cases word

/-- A number is a run of digits, or a sign in front of one. -/
theorem isNumber_iff :
    Lexeme.isNumber cs = true ↔ Lexeme.isDigits cs = true ∨
      ∃ ds, (cs = '+' :: ds ∨ cs = '-' :: ds) ∧ Lexeme.isDigits ds = true := by
  constructor
  · intro number
    unfold Lexeme.isNumber Lexeme.dropSign at number
    split at number
    case h_1 ds => exact .inr ⟨ds, .inl rfl, number⟩
    case h_2 ds => exact .inr ⟨ds, .inr rfl, number⟩
    case h_3 => exact .inl number
  · rintro (digits | ⟨ds, rfl | rfl, digits⟩)
    · -- the first character is a digit, so no sign is dropped
      cases cs with
      | nil => cases digits
      | cons c cs =>
        obtain ⟨noPlus, noMinus⟩ := not_isSign_of_isDigit (isDigits_cons_iff.mp digits).1
        have unsigned : Lexeme.dropSign (c :: cs) = c :: cs := by
          unfold Lexeme.dropSign
          split
          case h_1 same => exact absurd (List.cons.inj same).1 noPlus
          case h_2 same => exact absurd (List.cons.inj same).1 noMinus
          case h_3 => rfl
        rw [Lexeme.isNumber, unsigned]
        exact digits
    · exact digits
    · exact digits

/-! ### Texts by their tokens -/

namespace Piece

/-- A word is one piece. -/
theorem cut_of_isAlpha (first : c.isAlpha = true) (later : cs.all Char.isAlphanum = true) :
    cut c cs = ⟨Vocabulary.wordTag (c :: cs), c :: cs, []⟩ := by
  have inWord := List.all_eq_true.mp later
  rw [cut, if_pos first, word, List.takeWhile_eq_self_iff.mpr inWord,
    List.dropWhile_eq_nil_iff.mpr inWord]

/-- A run of digits is one piece. -/
theorem cut_of_isDigit (first : c.isDigit = true) (later : cs.all Char.isDigit = true) :
    cut c cs = ⟨.number, c :: cs, []⟩ := by
  have noLetter : ¬ c.isAlpha = true := by
    intro letter
    rw [(not_isDigit_of_isAlpha letter).1] at first
    cases first
  have inRun := List.all_eq_true.mp later
  rw [cut, if_neg noLetter, if_pos first, digits, List.takeWhile_eq_self_iff.mpr inRun,
    List.dropWhile_eq_nil_iff.mpr inRun]

/-- No symbol reaches into a number behind it. -/
theorem cut_of_symbolTag? (found : Vocabulary.symbolTag? [c] = some tag)
    (digit : d.isDigit = true) : cut c (d :: ds) = ⟨tag, [c], d :: ds⟩ := by
  have noDigits : Vocabulary.symbols.all (fun entry => entry.1.toList.all (!·.isDigit)) = true := by
    decide
  have noPair : Vocabulary.symbolTag? [c, d] = none := by
    cases pair : Vocabulary.symbolTag? [c, d] with
    | none => rfl
    | some tag =>
      have clear := List.all_eq_true.mp noDigits _ (Vocabulary.mem_symbols_of_symbolTag? pair)
      rw [String.toList_ofList] at clear
      have noDigit : c.isDigit = false ∧ d.isDigit = false := by simpa using clear
      rw [noDigit.2] at digit
      cases digit
  obtain ⟨-, noLetter, noDigit⟩ := Vocabulary.shape_of_symbolTag? found
  rw [cut, noLetter, noDigit, if_neg Bool.false_ne_true, if_neg Bool.false_ne_true, symbol?]
  simp only [noPair, found, Option.map_some, Option.getD_some]

end Piece

namespace Token

/-- The tokens of a text that is one piece. -/
theorem sequence_of_cut (solid : Text.isBlank c = false)
    (whole : Piece.cut c cs = ⟨tag, c :: cs, []⟩) (p : Position) :
    sequence p (c :: cs) =
      [⟨tag, String.ofList (c :: cs), p⟩, endOfLine (p.advance (c :: cs))] := by
  rw [sequence_cons_of_not_isBlank solid, whole, sequence_nil, ofPiece]

theorem exists_sequence_eq_of_isIdentifier (h : Lexeme.isIdentifier cs = true) (p : Position) :
    ∃ q, sequence p cs = [⟨Vocabulary.wordTag cs, String.ofList cs, p⟩, endOfLine q] := by
  obtain ⟨c, ds, rfl, first, later⟩ := exists_of_isIdentifier h
  have word : c.isAlphanum = true := Bool.or_eq_true_iff.mpr (.inl first)
  have solid := Text.isBlank_eq_false_of_isAlphanum word
  exact ⟨_, sequence_of_cut solid (Piece.cut_of_isAlpha first later) p⟩

theorem exists_sequence_eq_of_isDigits (h : Lexeme.isDigits cs = true) (p : Position) :
    ∃ q, sequence p cs = [⟨.number, String.ofList cs, p⟩, endOfLine q] := by
  cases cs with
  | nil => cases h
  | cons c cs =>
    obtain ⟨first, later⟩ := isDigits_cons_iff.mp h
    have word : c.isAlphanum = true := Bool.or_eq_true_iff.mpr (.inr first)
    have solid := Text.isBlank_eq_false_of_isAlphanum word
    exact ⟨_, sequence_of_cut solid (Piece.cut_of_isDigit first later) p⟩

/-- A symbol in front of a run of digits is a token of its own. -/
theorem exists_sequence_eq_of_symbolTag? (found : Vocabulary.symbolTag? [c] = some tag)
    (solid : Text.isBlank c = false) (h : Lexeme.isDigits ds = true) (p : Position) :
    ∃ q, sequence p (c :: ds) = [⟨tag, String.ofList [c], p⟩,
      ⟨.number, String.ofList ds, p.next c⟩, endOfLine q] := by
  obtain ⟨q, digits⟩ := exists_sequence_eq_of_isDigits h (p.next c)
  refine ⟨q, ?_⟩
  cases ds with
  | nil => cases h
  | cons d ds =>
    have digit := (isDigits_cons_iff.mp h).1
    rw [sequence_cons_of_not_isBlank solid, Piece.cut_of_symbolTag? found digit,
      Position.advance_cons, Position.advance_nil, digits, ofPiece]

end Token

/-- The tokens before the one that ends the line are spelled as their tags say. -/
theorem spelling_of_tokenize_eq (ts : List Token) {p : Position}
    (h : tokenize line text = ts ++ [.endOfLine p]) :
    ∀ t ∈ ts, Spelling t.tag t.lexeme.toList := by
  obtain ⟨us, q, same, spelled⟩ := Token.exists_sequence_eq (.startOf line) text.toList
  obtain ⟨rfl, -⟩ := List.append_inj' (h.symm.trans same) rfl
  exact spelled

/-- A symbol and a run of digits that make up a text are its tokens. -/
theorem exists_tokenize_eq_of_symbolTag? (line : Int) (same : text.toList = c :: ds)
    (found : Vocabulary.symbolTag? [c] = some tag) (solid : Text.isBlank c = false)
    (h : Lexeme.isDigits ds = true) :
    ∃ s t p, tokenize line text = [s, t, .endOfLine p] ∧ s.tag = tag ∧ t.tag = .number ∧
      s.lexeme ++ t.lexeme = text := by
  obtain ⟨p, tokens⟩ := Token.exists_sequence_eq_of_symbolTag? found solid h (.startOf line)
  rw [← same] at tokens
  refine ⟨_, _, p, tokens, rfl, rfl, ?_⟩
  rw [← String.ofList_append, List.singleton_append, ← same, String.ofList_toList]

/-- A text is an identifier just when it has one token, a word that is the whole text. It is a
number just when it has one token, a run of digits that is the whole text, or two, a sign and a run
of digits that make up the whole text. -/
theorem predicates_iff_tokenize (line : Int) (text : String) :
    (Lexeme.isIdentifier text.toList = true ↔
      ∃ t p, tokenize line text = [t, .endOfLine p] ∧
        (t.kind = .identifier ∨ t.kind = .keyword) ∧ t.lexeme = text) ∧
    (Lexeme.isNumber text.toList = true ↔
      (∃ t p, tokenize line text = [t, .endOfLine p] ∧ t.tag = .number ∧ t.lexeme = text) ∨
      ∃ s t p, tokenize line text = [s, t, .endOfLine p] ∧
        (s.tag = .plus ∨ s.tag = .minus) ∧ t.tag = .number ∧ s.lexeme ++ t.lexeme = text) := by
  constructor
  · constructor
    · intro word
      obtain ⟨p, tokens⟩ := Token.exists_sequence_eq_of_isIdentifier word (.startOf line)
      exact ⟨_, p, tokens, Vocabulary.kind_wordTag _, String.ofList_toList⟩
    · rintro ⟨t, p, tokens, kind, rfl⟩
      have spelled := spelling_of_tokenize_eq [t] tokens t List.mem_cons_self
      exact spelled.isIdentifier_iff.mpr kind
  · constructor
    · intro number
      rcases isNumber_iff.mp number with digits | ⟨ds, sign, digits⟩
      · obtain ⟨p, tokens⟩ := Token.exists_sequence_eq_of_isDigits digits (.startOf line)
        exact .inl ⟨_, p, tokens, rfl, String.ofList_toList⟩
      · right
        have signs : Vocabulary.symbolTag? ['+'] = some .plus ∧
            Vocabulary.symbolTag? ['-'] = some .minus := by decide
        rcases sign with plus | minus
        · obtain ⟨s, t, p, tokens, tag, rest⟩ :=
            exists_tokenize_eq_of_symbolTag? line plus signs.1 (by decide) digits
          exact ⟨s, t, p, tokens, .inl tag, rest⟩
        · obtain ⟨s, t, p, tokens, tag, rest⟩ :=
            exists_tokenize_eq_of_symbolTag? line minus signs.2 (by decide) digits
          exact ⟨s, t, p, tokens, .inr tag, rest⟩
    · rintro (⟨t, p, tokens, tag, rfl⟩ | ⟨s, t, p, tokens, sign, tag, rfl⟩)
      · have spelled := spelling_of_tokenize_eq [t] tokens t List.mem_cons_self
        exact isNumber_iff.mpr (.inl (spelled.isDigits_iff.mpr tag))
      · have spelled := spelling_of_tokenize_eq [s, t] tokens
        have first := spelled s (by simp)
        have second := spelled t (by simp)
        -- a sign is no digit, so the two tokens are a number as a sign and its digits are
        have noNumber : s.tag ≠ .number := by
          rcases sign with sign | sign <;> rw [sign] <;> decide
        rw [String.toList_append, first.isNumber_append_iff noNumber]
        exact ⟨sign, second.isDigits_iff.mpr tag⟩

end LineBasic
