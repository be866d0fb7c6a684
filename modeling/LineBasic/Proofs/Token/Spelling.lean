import LineBasic.Token.Lexeme
import LineBasic.Token.Sequence
import Mathlib.Tactic.FinCases

/-!
# How tokens are spelled

The tokens of a text are words, numbers, symbols and characters without a meaning,
and at the end one token of no characters. The first character of a token already
tells whether it is a number or a sign.

## Main definitions

* `Spelling`: how a token with a given tag is spelled.

## Main results

* `Spelling.exists_head`: what the first character of a token tells.
* `Piece.isSome_symbol?_iff`: with which characters a symbol begins.
* `Token.exists_sequence_eq`: the tokens of a text.
-/

namespace LineBasic

/-- How a token with a given tag is spelled, if it does not end its line. -/
inductive Spelling : Tag → List Char → Prop
  | word {c : Char} {cs : List Char} (first : c.isAlpha = true)
      (later : cs.all Char.isAlphanum = true) : Spelling (Vocabulary.wordTag (c :: cs)) (c :: cs)
  | digits {cs : List Char} (h : Lexeme.isDigits cs = true) : Spelling .number cs
  | symbol {tag : Tag} {cs : List Char} (h : Vocabulary.symbolTag? cs = some tag) :
      Spelling tag cs
  | unknown {c : Char} (noLetter : c.isAlpha = false) (noDigit : c.isDigit = false)
      (noSymbol : Vocabulary.symbolTag? [c] = none) : Spelling .unknown [c]

/-- What a list of pairs has for a key is in it. -/
theorem mem_of_lookup_eq_some {α β : Type} [BEq α] [LawfulBEq α] {l : List (α × β)} {a : α}
    {b : β} (h : l.lookup a = some b) : (a, b) ∈ l := by
  obtain ⟨l₁, l₂, rfl, -⟩ := List.lookup_eq_some_iff.mp h
  simp

namespace Vocabulary

variable {tag : Tag} {cs : List Char}

theorem mem_symbols_of_symbolTag? (h : symbolTag? cs = some tag) :
    (String.ofList cs, tag) ∈ symbols :=
  mem_of_lookup_eq_some h

/-- Whether a tag is neither that of an identifier nor that of a keyword or a truth
value. -/
def isNoWord (t : Tag) : Bool := t.kind ≠ .identifier ∧ t.kind ≠ .keyword

/-- A word has no tag but that of an identifier, a keyword or a truth value. -/
theorem wordTag_ne {t : Tag} (h : isNoWord t = true) (cs : List Char) : wordTag cs ≠ t := by
  have words : ∀ entry ∈ words, isNoWord entry.2 = false := by decide
  intro same
  rw [← same, wordTag] at h
  cases found : Vocabulary.words.lookup (String.ofList cs) with
  | none =>
    rw [found] at h
    exact nomatch h
  | some tag =>
    rw [found, Option.getD_some, words _ (mem_of_lookup_eq_some found)] at h
    exact nomatch h

/-- Symbols consist of the symbol characters. -/
theorem mem_symbolCharacters_of_symbolTag? (h : symbolTag? cs = some tag) :
    ∀ c ∈ cs, c ∈ symbolCharacters := by
  have spellings : symbols.all (fun entry => entry.1.toList.all symbolCharacters.contains) =
      true := by
    decide
  have symbol := List.all_eq_true.mp spellings _ (mem_symbols_of_symbolTag? h)
  rw [String.toList_ofList, List.all_eq_true] at symbol
  exact fun c member => List.contains_iff_mem.mp (symbol c member)

/-- No symbol has a tag that is missing among the symbols. -/
theorem ne_of_symbolTag? {t : Tag} (missing : t ∉ symbols.map Prod.snd)
    (h : symbolTag? cs = some tag) : tag ≠ t := by
  rintro rfl
  exact missing (List.mem_map.mpr ⟨_, mem_symbols_of_symbolTag? h, rfl⟩)

end Vocabulary

theorem isIdentifier_cons_iff {c : Char} {cs : List Char} :
    Lexeme.isIdentifier (c :: cs) = true ↔ c.isAlpha = true ∧ cs.all Char.isAlphanum = true :=
  Bool.and_eq_true_iff

theorem isDigits_cons_iff {c : Char} {cs : List Char} :
    Lexeme.isDigits (c :: cs) = true ↔ c.isDigit = true ∧ cs.all Char.isDigit = true := by
  rw [Lexeme.isDigits, List.all_cons, Bool.and_eq_true, Bool.and_eq_true]
  exact and_iff_right rfl

/-- No digit is a sign. -/
theorem not_isSign_of_isDigit {c : Char} (h : c.isDigit = true) : c ≠ '+' ∧ c ≠ '-' := by
  constructor
  · rintro rfl
    exact absurd h (by decide)
  · rintro rfl
    exact absurd h (by decide)

/-- No letter is a digit or a sign. -/
theorem not_isDigit_of_isAlpha {c : Char} (h : c.isAlpha = true) :
    c.isDigit = false ∧ c ≠ '+' ∧ c ≠ '-' := by
  have bound := (Text.toNat_of_isAlpha h).1
  refine ⟨?_, ?_, ?_⟩
  · rw [← Bool.not_eq_true, Char.isDigit_iff_toNat]
    have nine : '9'.toNat = 57 := rfl
    omega
  · rintro rfl
    exact absurd bound (by decide)
  · rintro rfl
    exact absurd bound (by decide)

namespace Spelling

variable {tag : Tag} {cs : List Char}

theorem tag_ne_endOfLine (h : Spelling tag cs) : tag ≠ .endOfLine := by
  cases h with
  | word => exact Vocabulary.wordTag_ne rfl _
  | digits | unknown => exact nofun
  | symbol h => exact Vocabulary.ne_of_symbolTag? (by decide) h

/-- Only a symbol has the tag of a sign. -/
theorem eq_of_isSign (h : Spelling tag cs) :
    (tag = .plus → cs = ['+']) ∧ (tag = .minus → cs = ['-']) := by
  cases h with
  | word =>
    constructor
    · intro same
      exact absurd same (Vocabulary.wordTag_ne rfl _)
    · intro same
      exact absurd same (Vocabulary.wordTag_ne rfl _)
  | digits | unknown => exact ⟨nofun, nofun⟩
  | symbol h =>
    have symbols : ∀ entry ∈ Vocabulary.symbols, (entry.2 = .plus → entry.1.toList = ['+']) ∧
        (entry.2 = .minus → entry.1.toList = ['-']) := by
      decide
    simpa only [String.toList_ofList] using symbols _ (Vocabulary.mem_symbols_of_symbolTag? h)

/-- The first character tells whether a token is a number or a sign. -/
theorem exists_head (h : Spelling tag cs) :
    ∃ c ds, cs = c :: ds ∧ (c.isDigit = true ↔ tag = .number) ∧ (c = '+' ↔ tag = .plus) ∧
      (c = '-' ↔ tag = .minus) := by
  cases h with
  | @word c cs first later =>
    -- neither the first letter nor the tag is one of a number or a sign
    obtain ⟨noDigit, noPlus, noMinus⟩ := not_isDigit_of_isAlpha first
    have noNumber : Vocabulary.wordTag (c :: cs) ≠ .number := Vocabulary.wordTag_ne rfl _
    have noPlus' : Vocabulary.wordTag (c :: cs) ≠ .plus := Vocabulary.wordTag_ne rfl _
    have noMinus' : Vocabulary.wordTag (c :: cs) ≠ .minus := Vocabulary.wordTag_ne rfl _
    exact ⟨c, cs, rfl, by simp [noDigit, noNumber], by simp [noPlus, noPlus'],
      by simp [noMinus, noMinus']⟩
  | digits h =>
    cases cs with
    | nil => exact nomatch h
    | cons c ds =>
      have first := (isDigits_cons_iff.mp h).1
      obtain ⟨noPlus, noMinus⟩ := not_isSign_of_isDigit first
      exact ⟨c, ds, rfl, by simp [first], by simp [noPlus], by simp [noMinus]⟩
  | symbol h =>
    -- the vocabulary has finitely many symbols, and each is looked at
    have symbols : ∀ entry ∈ Vocabulary.symbols, ∃ c ds, entry.1.toList = c :: ds ∧
        (c.isDigit = true ↔ entry.2 = .number) ∧ (c = '+' ↔ entry.2 = .plus) ∧
          (c = '-' ↔ entry.2 = .minus) := by
      intro entry member
      fin_cases member <;> exact ⟨_, _, rfl, by decide, by decide, by decide⟩
    have listed := Vocabulary.mem_symbols_of_symbolTag? h
    simpa only [String.toList_ofList] using symbols _ listed
  | @unknown c noLetter noDigit noSymbol =>
    -- a sign would be a symbol
    have noPlus : c ≠ '+' := by
      rintro rfl
      exact absurd noSymbol (by decide)
    have noMinus : c ≠ '-' := by
      rintro rfl
      exact absurd noSymbol (by decide)
    exact ⟨c, [], rfl, by simp [noDigit], by simp [noPlus], by simp [noMinus]⟩

/-- Numbers are the tokens that consist of digits. -/
theorem isDigits_iff (h : Spelling tag cs) : Lexeme.isDigits cs = true ↔ tag = .number := by
  constructor
  · intro digits
    obtain ⟨c, ds, rfl, number, -⟩ := h.exists_head
    exact number.mp (isDigits_cons_iff.mp digits).1
  · intro same
    cases h with
    | word => exact absurd same (Vocabulary.wordTag_ne rfl _)
    | digits h => exact h
    | symbol h => exact absurd same (Vocabulary.ne_of_symbolTag? (by decide) h)
    | unknown => exact nomatch same

/-- Text after a token that is no number makes up a number with it just when the
token is a sign and the text consists of digits. -/
theorem isNumber_append_iff (h : Spelling tag cs) (notNumber : tag ≠ .number) (ds : List Char) :
    Lexeme.isNumber (cs ++ ds) = true ↔
      (tag = .plus ∨ tag = .minus) ∧ Lexeme.isDigits ds = true := by
  by_cases sign : tag = .plus ∨ tag = .minus
  · -- the sign is dropped, and only the text is left
    rw [and_iff_right sign]
    rcases sign with same | same
    · rw [h.eq_of_isSign.1 same]
      rfl
    · rw [h.eq_of_isSign.2 same]
      rfl
  · -- nothing is dropped, and the token does not begin with a digit
    obtain ⟨c, es, rfl, number, plus, minus⟩ := h.exists_head
    rw [not_or, ← plus, ← minus] at sign
    have unsigned : Lexeme.dropSign (c :: (es ++ ds)) = c :: (es ++ ds) := by
      unfold Lexeme.dropSign
      split
      · exact absurd (List.cons.inj ‹_›).1 sign.1
      · exact absurd (List.cons.inj ‹_›).1 sign.2
      · rfl
    constructor
    · intro digits
      rw [List.cons_append, Lexeme.isNumber, unsigned, isDigits_cons_iff] at digits
      exact absurd (number.mp digits.1) notNumber
    · rintro ⟨same | same, -⟩
      · exact absurd (plus.mpr same) sign.1
      · exact absurd (minus.mpr same) sign.2

end Spelling

namespace Piece

variable {c : Char} {cs : List Char} {p : Piece}

theorem symbolTag?_lexeme_of_symbol? (h : symbol? cs = some p) :
    Vocabulary.symbolTag? p.lexeme = some p.tag := by
  unfold symbol? at h
  split at h
  · exact nomatch h
  · obtain ⟨tag, found, rfl⟩ := Option.map_eq_some_iff.mp h
    exact found
  · split at h
    case h_1 found =>
      obtain rfl := Option.some.inj h
      exact found
    case h_2 =>
      obtain ⟨tag, found, rfl⟩ := Option.map_eq_some_iff.mp h
      exact found

/-- A text that begins with no symbol has no symbol as its first character. -/
theorem symbolTag?_eq_none_of_symbol? (h : symbol? (c :: cs) = none) :
    Vocabulary.symbolTag? [c] = none := by
  cases cs with
  | nil => exact Option.map_eq_none_iff.mp h
  | cons d cs =>
    rw [symbol?] at h
    split at h
    · exact nomatch h
    · exact Option.map_eq_none_iff.mp h

/-- A text begins with a symbol just when its first character is one of those of which symbols
consist. -/
theorem isSome_symbol?_iff :
    (symbol? (c :: cs)).isSome = true ↔ c ∈ Vocabulary.symbolCharacters := by
  constructor
  · intro found
    obtain ⟨p, found⟩ := Option.isSome_iff_exists.mp found
    obtain ⟨whole, nonempty⟩ := lexeme_append_rest_of_symbol? found
    obtain ⟨d, ds, same⟩ := List.exists_cons_of_ne_nil nonempty
    rw [same, List.cons_append] at whole
    obtain ⟨rfl, -⟩ := List.cons.inj whole
    apply Vocabulary.mem_symbolCharacters_of_symbolTag? (symbolTag?_lexeme_of_symbol? found)
    rw [same]
    exact List.mem_cons_self
  · intro member
    -- each of these characters is a symbol by itself
    have symbols : Vocabulary.symbolCharacters.all
        (fun d => (Vocabulary.symbolTag? [d]).isSome) = true := by
      decide
    have single := List.all_eq_true.mp symbols c member
    rw [Option.isSome_iff_ne_none] at single ⊢
    exact mt symbolTag?_eq_none_of_symbol? single

/-- The first token of a text is spelled as its tag says. -/
theorem spelling_cut (c : Char) (cs : List Char) : Spelling (cut c cs).tag (cut c cs).lexeme := by
  unfold cut
  split
  case isTrue letter => exact .word letter (List.all_takeWhile ..)
  case isFalse noLetter =>
    split
    case isTrue digit =>
      exact .digits (isDigits_cons_iff.mpr ⟨digit, List.all_takeWhile ..⟩)
    case isFalse noDigit =>
      cases found : symbol? (c :: cs) with
      | none =>
        exact .unknown (by simpa using noLetter) (by simpa using noDigit)
          (symbolTag?_eq_none_of_symbol? found)
      | some p => exact .symbol (symbolTag?_lexeme_of_symbol? found)

end Piece

namespace Token

/-- The tokens of a text are its pieces and the end of the line. -/
theorem exists_sequence_eq (p : Position) (cs : List Char) :
    ∃ ts q, sequence p cs = ts ++ [endOfLine q] ∧ ∀ t ∈ ts, Spelling t.tag t.lexeme.toList := by
  -- the induction follows the recursion: at the end, over a blank, and over a piece
  fun_induction sequence p cs with
  | case1 p => exact ⟨[], p, rfl, fun _ member => absurd member List.not_mem_nil⟩
  | case2 p c cs _ ih => exact ih
  | case3 p c cs _ piece ih =>
    obtain ⟨ts, q, same, spelled⟩ := ih
    refine ⟨ofPiece p piece :: ts, q, by rw [same, List.cons_append], ?_⟩
    refine List.forall_mem_cons.mpr ⟨?_, spelled⟩
    rw [ofPiece, String.toList_ofList]
    exact Piece.spelling_cut c cs

end Token

end LineBasic
