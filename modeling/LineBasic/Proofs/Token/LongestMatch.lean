import LineBasic.Proofs.Token.Offset

/-!
# Every token is the longest that can begin where it does

The lexemes of the language are its words, its digit runs and its symbols. Where a text goes
on with one of them, the token that begins there is the longest, and the vocabulary gives it
its tag. Where it goes on with none, the token is a single character without a meaning. This
rule and the blanks between tokens leave only one way to cut a text.

## Main definitions

* `IsLexeme`: the words, the digit runs and the symbols.
* `IsFirstPiece`: the rule by which one token is cut from a text.
* `CutsInto`: whether a text is cut by this rule again and again.

## Main results

* `Piece.isFirstPiece_cut`: cutting one token off follows the rule.
* `IsFirstPiece.unique`: the rule leaves one token only.
* `tokenize_longest_match`: the tokens of a text are cut by the rule, and nothing else is.
-/

namespace LineBasic

/-- The lexemes with a meaning: words, digit runs and symbols. -/
inductive IsLexeme : List Char → Prop
  | word {cs : List Char} (h : Lexeme.isIdentifier cs = true) : IsLexeme cs
  | digits {cs : List Char} (h : Lexeme.isDigits cs = true) : IsLexeme cs
  | symbol {cs : List Char} (h : String.ofList cs ∈ Vocabulary.symbols.map Prod.fst) : IsLexeme cs

/-- Whether a text begins with some lexeme. -/
def BeginsWithLexeme (text : List Char) : Prop :=
  ∃ lexeme, IsLexeme lexeme ∧ lexeme <+: text

/-- Whether a text begins with a lexeme and with none that is longer. -/
structure IsLongestLexeme (text lexeme : List Char) : Prop where
  isLexeme : IsLexeme lexeme
  begins : lexeme <+: text
  longest : ∀ other, IsLexeme other → other <+: text → other.length ≤ lexeme.length

/-- The tag of a lexeme: its own if the vocabulary holds it, otherwise that of a number or of
an identifier. -/
def lexemeTag (cs : List Char) : Tag :=
  (Vocabulary.entries.lookup (String.ofList cs)).getD
    (if Lexeme.isDigits cs then .number else .identifier)

/-- Whether a text begins with a token of this tag and lexeme: the longest lexeme with its
tag, or a single character if the text begins with no lexeme. -/
structure IsFirstPiece (text : List Char) (tag : Tag) (lexeme : List Char) : Prop where
  unknown_iff : tag = .unknown ↔ ¬ BeginsWithLexeme text
  single : tag = .unknown → lexeme.length = 1 ∧ lexeme <+: text
  longest : tag ≠ .unknown → IsLongestLexeme text lexeme ∧ tag = lexemeTag lexeme

/-- Whether a text is cut into tokens by skipping the blanks that come next, all of them, and
cutting the first token off what follows, as long as anything does. -/
inductive CutsInto : List Char → List (Tag × List Char) → Prop
  | nothing {gap : List Char} (blank : ∀ c ∈ gap, Text.isBlank c = true) : CutsInto gap []
  | piece {gap lexeme rest : List Char} {tag : Tag} {pieces : List (Tag × List Char)}
      (blank : ∀ c ∈ gap, Text.isBlank c = true)
      (solid : ∀ c ∈ (lexeme ++ rest).head?, Text.isBlank c = false)
      (first : IsFirstPiece (lexeme ++ rest) tag lexeme) (later : CutsInto rest pieces) :
      CutsInto (gap ++ (lexeme ++ rest)) ((tag, lexeme) :: pieces)

variable {c : Char} {cs ds : List Char} {tag tag' : Tag}

/-! ### Lexemes by their first character -/

namespace Vocabulary

/-- A word of the vocabulary begins with a letter. -/
theorem lookup_words_of_not_isAlpha (h : c.isAlpha = false) (cs : List Char) :
    words.lookup (String.ofList (c :: cs)) = none := by
  have letters : words.all (fun entry => entry.1.toList.head?.all Char.isAlpha) = true := by
    decide
  cases found : words.lookup (String.ofList (c :: cs)) with
  | none => rfl
  | some tag =>
    have letter := List.all_eq_true.mp letters _ (mem_of_lookup_eq_some found)
    rw [String.toList_ofList, List.head?_cons, Option.all_some, h] at letter
    cases letter

/-- A symbol has one or two characters, and begins with no letter and no digit. -/
theorem shape_of_symbolTag? (h : symbolTag? (c :: cs) = some tag) :
    cs.length ≤ 1 ∧ c.isAlpha = false ∧ c.isDigit = false := by
  have shapes : symbols.all (fun entry => entry.1.toList.length ≤ 2 &&
      entry.1.toList.head?.all fun c => !c.isAlpha && !c.isDigit) = true := by
    decide
  have shape := List.all_eq_true.mp shapes _ (mem_symbols_of_symbolTag? h)
  simpa using shape

theorem mem_map_fst_symbols_iff :
    String.ofList cs ∈ symbols.map Prod.fst ↔ ∃ tag, symbolTag? cs = some tag := by
  constructor
  · intro listed
    obtain ⟨entry, member, same⟩ := List.mem_map.mp listed
    have found : (symbols.lookup (String.ofList cs)).isSome = true :=
      List.lookup_isSome_iff.mpr ⟨entry, member, beq_iff_eq.mpr same.symm⟩
    exact Option.isSome_iff_exists.mp found
  · rintro ⟨tag, found⟩
    exact List.mem_map.mpr ⟨_, mem_symbols_of_symbolTag? found, rfl⟩

end Vocabulary

theorem not_isLexeme_nil : ¬ IsLexeme [] := by
  intro h
  cases h with
  | word h | digits h => cases h
  | symbol h => exact absurd h (by decide)

theorem isLexeme_iff_of_isAlpha (letter : c.isAlpha = true) :
    IsLexeme (c :: cs) ↔ cs.all Char.isAlphanum = true := by
  constructor
  · intro h
    cases h with
    | word h => exact (isIdentifier_cons_iff.mp h).2
    | digits h =>
      have digit := (isDigits_cons_iff.mp h).1
      rw [(not_isDigit_of_isAlpha letter).1] at digit
      cases digit
    | symbol h =>
      obtain ⟨tag, found⟩ := Vocabulary.mem_map_fst_symbols_iff.mp h
      have noLetter := (Vocabulary.shape_of_symbolTag? found).2.1
      rw [letter] at noLetter
      cases noLetter
  · intro later
    exact .word (isIdentifier_cons_iff.mpr ⟨letter, later⟩)

theorem isLexeme_iff_of_isDigit (noLetter : c.isAlpha = false) (digit : c.isDigit = true) :
    IsLexeme (c :: cs) ↔ cs.all Char.isDigit = true := by
  constructor
  · intro h
    cases h with
    | word h =>
      have letter := (isIdentifier_cons_iff.mp h).1
      rw [noLetter] at letter
      cases letter
    | digits h => exact (isDigits_cons_iff.mp h).2
    | symbol h =>
      obtain ⟨tag, found⟩ := Vocabulary.mem_map_fst_symbols_iff.mp h
      have noDigit := (Vocabulary.shape_of_symbolTag? found).2.2
      rw [digit] at noDigit
      cases noDigit
  · intro later
    exact .digits (isDigits_cons_iff.mpr ⟨digit, later⟩)

theorem isLexeme_iff_symbolTag? (noLetter : c.isAlpha = false) (noDigit : c.isDigit = false) :
    IsLexeme (c :: cs) ↔ ∃ tag, Vocabulary.symbolTag? (c :: cs) = some tag := by
  constructor
  · intro h
    cases h with
    | word h =>
      have letter := (isIdentifier_cons_iff.mp h).1
      rw [noLetter] at letter
      cases letter
    | digits h =>
      have digit := (isDigits_cons_iff.mp h).1
      rw [noDigit] at digit
      cases digit
    | symbol h => exact Vocabulary.mem_map_fst_symbols_iff.mp h
  · intro h
    exact .symbol (Vocabulary.mem_map_fst_symbols_iff.mpr h)

/-! ### Tags -/

theorem lookup_entries (cs : List Char) : Vocabulary.entries.lookup (String.ofList cs) =
    (Vocabulary.words.lookup (String.ofList cs)).or (Vocabulary.symbolTag? cs) :=
  List.lookup_append

theorem symbolTag?_eq_none (h : c.isAlpha = true ∨ c.isDigit = true) (cs : List Char) :
    Vocabulary.symbolTag? (c :: cs) = none := by
  cases found : Vocabulary.symbolTag? (c :: cs) with
  | none => rfl
  | some tag =>
    obtain ⟨-, noLetter, noDigit⟩ := Vocabulary.shape_of_symbolTag? found
    rw [noLetter, noDigit] at h
    rcases h with h | h <;> cases h

theorem lexemeTag_of_isAlpha (letter : c.isAlpha = true) (cs : List Char) :
    lexemeTag (c :: cs) = Vocabulary.wordTag (c :: cs) := by
  have noNumber : Lexeme.isDigits (c :: cs) = false := by
    simp [Lexeme.isDigits, (not_isDigit_of_isAlpha letter).1]
  rw [lexemeTag, lookup_entries, symbolTag?_eq_none (.inl letter), Option.or_none, noNumber]
  rfl

theorem lexemeTag_of_isDigits (noLetter : c.isAlpha = false)
    (digits : Lexeme.isDigits (c :: cs) = true) : lexemeTag (c :: cs) = .number := by
  have digit := (isDigits_cons_iff.mp digits).1
  rw [lexemeTag, lookup_entries, Vocabulary.lookup_words_of_not_isAlpha noLetter,
    symbolTag?_eq_none (.inr digit), digits]
  rfl

theorem lexemeTag_of_symbolTag? (found : Vocabulary.symbolTag? (c :: cs) = some tag) :
    lexemeTag (c :: cs) = tag := by
  have noLetter := (Vocabulary.shape_of_symbolTag? found).2.1
  rw [lexemeTag, lookup_entries, Vocabulary.lookup_words_of_not_isAlpha noLetter, found]
  rfl

/-- Every lexeme has a meaning. -/
theorem lexemeTag_ne_unknown (cs : List Char) : lexemeTag cs ≠ .unknown := by
  have known : ∀ entry ∈ Vocabulary.entries, entry.2 ≠ .unknown := by decide
  rw [lexemeTag]
  cases found : Vocabulary.entries.lookup (String.ofList cs) with
  | none =>
    rw [Option.getD_none]
    split
    · exact nofun
    · exact nofun
  | some tag => exact known _ (mem_of_lookup_eq_some found)

/-! ### The first token -/

/-- Of the runs of one kind of character with which a text begins, `takeWhile` takes the
longest. -/
theorem length_le_of_all_of_begins {p : Char → Bool} (all : ds.all p = true) (h : ds <+: cs) :
    ds.length ≤ (cs.takeWhile p).length := by
  obtain ⟨rest, rfl⟩ := h
  rw [List.takeWhile_append_of_pos (List.all_eq_true.mp all), List.length_append]
  exact Nat.le_add_right _ _

/-- A text that begins with a lexeme has a character, with which the lexeme begins as well. -/
theorem exists_of_isLexeme_of_begins {lexeme : List Char} (h : IsLexeme lexeme)
    (begins : lexeme <+: c :: cs) : ∃ ds, lexeme = c :: ds ∧ ds <+: cs := by
  cases lexeme with
  | nil => exact absurd h not_isLexeme_nil
  | cons d ds =>
    obtain ⟨rfl, later⟩ := List.cons_prefix_cons.mp begins
    exact ⟨ds, rfl, later⟩

/-- The longest lexeme of a kind that its first character decides. -/
theorem isLongestLexeme_takeWhile {p : Char → Bool}
    (kind : ∀ ds, IsLexeme (c :: ds) ↔ ds.all p = true) (cs : List Char) :
    IsLongestLexeme (c :: cs) (c :: cs.takeWhile p) where
  isLexeme := (kind _).mpr List.all_takeWhile
  begins := List.cons_prefix_cons.mpr ⟨rfl, List.takeWhile_prefix p⟩
  longest other h begins := by
    obtain ⟨ds, rfl, later⟩ := exists_of_isLexeme_of_begins h begins
    exact Nat.succ_le_succ (length_le_of_all_of_begins ((kind ds).mp h) later)

theorem IsLongestLexeme.isFirstPiece {text lexeme : List Char} (h : IsLongestLexeme text lexeme)
    (same : lexemeTag lexeme = tag) : IsFirstPiece text tag lexeme where
  unknown_iff := ⟨fun unknown => absurd (same.trans unknown) (lexemeTag_ne_unknown lexeme),
    fun nothing => absurd ⟨lexeme, h.isLexeme, h.begins⟩ nothing⟩
  single unknown := absurd (same.trans unknown) (lexemeTag_ne_unknown lexeme)
  longest _ := ⟨h, same.symm⟩

namespace Piece

variable {p : Piece}

/-- Of the symbols with which a text begins, the longest is read. -/
theorem isLongestLexeme_of_symbol? (noLetter : c.isAlpha = false) (noDigit : c.isDigit = false)
    (h : symbol? (c :: cs) = some p) :
    IsLongestLexeme (c :: cs) p.lexeme ∧ lexemeTag p.lexeme = p.tag := by
  have kind (ds : List Char) :
      IsLexeme (c :: ds) ↔ ∃ tag, Vocabulary.symbolTag? (c :: ds) = some tag :=
    isLexeme_iff_symbolTag? noLetter noDigit
  -- a symbol of one character is read where none of two begins
  have one {tag : Tag} (found : Vocabulary.symbolTag? [c] = some tag)
      (noMore : ∀ d ds, cs = d :: ds → Vocabulary.symbolTag? [c, d] = none) :
      IsLongestLexeme (c :: cs) [c] := by
    refine ⟨(kind []).mpr ⟨tag, found⟩, ⟨cs, rfl⟩, fun other lexeme begins => ?_⟩
    obtain ⟨ds, rfl, later⟩ := exists_of_isLexeme_of_begins lexeme begins
    obtain ⟨tag', found'⟩ := (kind ds).mp lexeme
    have short := (Vocabulary.shape_of_symbolTag? found').1
    match ds, later with
    | [], _ => exact Nat.le_refl 1
    | [d], later =>
      obtain ⟨rest, rfl⟩ := later
      rw [noMore d rest rfl] at found'
      cases found'
    | _ :: _ :: _, _ => simp at short
  cases cs with
  | nil =>
    obtain ⟨tag, found, rfl⟩ := Option.map_eq_some_iff.mp h
    exact ⟨one found nofun, lexemeTag_of_symbolTag? found⟩
  | cons d cs =>
    rw [symbol?] at h
    split at h
    case h_1 tag found =>
      obtain rfl := Option.some.inj h
      refine ⟨⟨(kind [d]).mpr ⟨tag, found⟩, ⟨cs, rfl⟩, fun other lexeme begins => ?_⟩,
        lexemeTag_of_symbolTag? found⟩
      obtain ⟨ds, rfl, -⟩ := exists_of_isLexeme_of_begins lexeme begins
      obtain ⟨tag', found'⟩ := (kind ds).mp lexeme
      exact Nat.succ_le_succ (Vocabulary.shape_of_symbolTag? found').1
    case h_2 noMore =>
      obtain ⟨tag, found, rfl⟩ := Option.map_eq_some_iff.mp h
      refine ⟨one found fun e ds same => ?_, lexemeTag_of_symbolTag? found⟩
      obtain ⟨rfl, -⟩ := List.cons.inj same
      exact noMore

theorem not_beginsWithLexeme_of_symbol? (noLetter : c.isAlpha = false)
    (noDigit : c.isDigit = false) (h : symbol? (c :: cs) = none) :
    ¬ BeginsWithLexeme (c :: cs) := by
  rintro ⟨lexeme, isLexeme, begins⟩
  obtain ⟨ds, rfl, later⟩ := exists_of_isLexeme_of_begins isLexeme begins
  obtain ⟨tag, found⟩ := (isLexeme_iff_symbolTag? noLetter noDigit).mp isLexeme
  have short := (Vocabulary.shape_of_symbolTag? found).1
  match ds, later with
  | [], _ =>
    rw [symbolTag?_eq_none_of_symbol? h] at found
    cases found
  | [d], later =>
    obtain ⟨rest, rfl⟩ := later
    rw [List.singleton_append, symbol?, found] at h
    cases h
  | _ :: _ :: _, _ => simp at short

/-- Cutting one token off a text follows the rule. -/
theorem isFirstPiece_cut (c : Char) (cs : List Char) :
    IsFirstPiece (c :: cs) (cut c cs).tag (cut c cs).lexeme := by
  unfold cut
  split
  case isTrue letter =>
    have longest := isLongestLexeme_takeWhile (fun _ => isLexeme_iff_of_isAlpha letter) cs
    exact longest.isFirstPiece (lexemeTag_of_isAlpha letter _)
  case isFalse noLetter =>
    rw [Bool.not_eq_true] at noLetter
    split
    case isTrue digit =>
      have longest :=
        isLongestLexeme_takeWhile (fun _ => isLexeme_iff_of_isDigit noLetter digit) cs
      refine longest.isFirstPiece (lexemeTag_of_isDigits noLetter ?_)
      exact isDigits_cons_iff.mpr ⟨digit, List.all_takeWhile⟩
    case isFalse noDigit =>
      rw [Bool.not_eq_true] at noDigit
      cases found : symbol? (c :: cs) with
      | none =>
        have nothing := not_beginsWithLexeme_of_symbol? noLetter noDigit found
        exact {
          unknown_iff := ⟨fun _ => nothing, fun _ => rfl⟩
          single := fun _ => ⟨rfl, ⟨cs, rfl⟩⟩
          longest := fun known => absurd rfl known }
      | some p =>
        obtain ⟨longest, same⟩ := isLongestLexeme_of_symbol? noLetter noDigit found
        exact longest.isFirstPiece same

end Piece

/-- Two beginnings of one text that are as long as each other are the same. -/
theorem eq_of_prefix_of_length_eq {text ds es : List Char} (h : ds <+: text) (h' : es <+: text)
    (same : ds.length = es.length) : ds = es :=
  (List.prefix_of_prefix_length_le h h' same.le).eq_of_length same

/-- Where a token begins there is some text. -/
theorem IsFirstPiece.ne_nil {rest lexeme : List Char}
    (h : IsFirstPiece (lexeme ++ rest) tag lexeme) : lexeme ++ rest ≠ [] := by
  intro nothing
  obtain ⟨rfl, -⟩ := List.append_eq_nil_iff.mp nothing
  by_cases unknown : tag = .unknown
  · cases (h.single unknown).1
  · exact not_isLexeme_nil (h.longest unknown).1.isLexeme

/-- The rule leaves one token only. -/
theorem IsFirstPiece.unique {text lexeme lexeme' : List Char} (h : IsFirstPiece text tag lexeme)
    (h' : IsFirstPiece text tag' lexeme') : tag = tag' ∧ lexeme = lexeme' := by
  by_cases unknown : tag = .unknown
  · -- no lexeme begins here, so both tokens are the first character
    have unknown' := h'.unknown_iff.mpr (h.unknown_iff.mp unknown)
    obtain ⟨one, begins⟩ := h.single unknown
    obtain ⟨one', begins'⟩ := h'.single unknown'
    exact ⟨unknown.trans unknown'.symm,
      eq_of_prefix_of_length_eq begins begins' (one.trans one'.symm)⟩
  · have unknown' : tag' ≠ .unknown := fun same =>
      unknown (h.unknown_iff.mpr (h'.unknown_iff.mp same))
    obtain ⟨longest, rfl⟩ := h.longest unknown
    obtain ⟨longest', rfl⟩ := h'.longest unknown'
    have same : lexeme = lexeme' := eq_of_prefix_of_length_eq longest.begins longest'.begins
      (Nat.le_antisymm (longest'.longest _ longest.isLexeme longest.begins)
        (longest.longest _ longest'.isLexeme longest'.begins))
    exact ⟨congrArg lexemeTag same, same⟩

/-! ### All tokens -/

/-- What the rule says of a token. -/
def Token.piece (t : Token) : Tag × List Char := (t.tag, t.lexeme.toList)

namespace CutsInto

variable {gap : List Char} {pieces : List (Tag × List Char)}

/-- More blanks in front of a text are skipped as well. -/
theorem append_of_isBlank (blank : ∀ c ∈ gap, Text.isBlank c = true) (h : CutsInto cs pieces) :
    CutsInto (gap ++ cs) pieces := by
  have together {gap' : List Char} (blank' : ∀ c ∈ gap', Text.isBlank c = true) :
      ∀ c ∈ gap ++ gap', Text.isBlank c = true :=
    fun c member => (List.mem_append.mp member).elim (blank c) (blank' c)
  cases h with
  | nothing blank' => exact .nothing (together blank')
  | piece blank' solid first later =>
    rw [← List.append_assoc]
    exact .piece (together blank') solid first later

/-- The tokens of a text are cut from it by the rule. -/
theorem sequence (p : Position) (cs : List Char) : ∃ pieces, CutsInto cs pieces ∧
    (Token.sequence p cs).map Token.piece = pieces ++ [(.endOfLine, [])] := by
  fun_induction Token.sequence p cs with
  | case1 p => exact ⟨[], .nothing (by simp), rfl⟩
  | case2 p c cs blank ih =>
    obtain ⟨pieces, cuts, tokens⟩ := ih
    have skipped : ∀ d ∈ [c], Text.isBlank d = true :=
      fun d member => List.mem_singleton.mp member ▸ blank
    exact ⟨pieces, append_of_isBlank skipped cuts, tokens⟩
  | case3 p c cs solid piece ih =>
    obtain ⟨pieces, cuts, tokens⟩ := ih
    have whole : piece.lexeme ++ piece.rest = c :: cs := (Piece.lexeme_append_rest c cs).1
    have first : IsFirstPiece (c :: cs) piece.tag piece.lexeme := Piece.isFirstPiece_cut c cs
    rw [← whole] at first
    refine ⟨(piece.tag, piece.lexeme) :: pieces, ?_, ?_⟩
    · rw [← whole, ← List.nil_append (piece.lexeme ++ piece.rest)]
      refine .piece (fun c member => absurd member List.not_mem_nil) ?_ first cuts
      rw [whole]
      simpa using solid
    · rw [List.map_cons, tokens, Token.piece, Token.ofPiece, String.toList_ofList]
      rfl

/-- Nothing is cut by the rule but the tokens of the text. -/
theorem map_piece_sequence (h : CutsInto cs pieces) (p : Position) :
    (Token.sequence p cs).map Token.piece = pieces ++ [(.endOfLine, [])] := by
  induction h generalizing p with
  | @nothing gap blank =>
    have skipped := Token.sequence_append_of_isBlank blank p []
    rw [List.append_nil, Token.sequence_nil] at skipped
    rw [skipped]
    rfl
  | @piece gap lexeme rest tag pieces blank solid first later ih =>
    obtain ⟨c, ds, text⟩ := List.exists_cons_of_ne_nil first.ne_nil
    rw [text] at first solid
    have solid : Text.isBlank c = false := solid c rfl
    -- the token that is cut off here is the only one that the rule allows
    obtain ⟨rfl, rfl⟩ := first.unique (Piece.isFirstPiece_cut c ds)
    have rest_eq : rest = (Piece.cut c ds).rest :=
      List.append_cancel_left (text.trans (Piece.lexeme_append_rest c ds).1.symm)
    rw [Token.sequence_append_of_isBlank blank, text, Token.sequence_cons_of_not_isBlank solid,
      List.map_cons, ← rest_eq, ih, Token.piece, Token.ofPiece, String.toList_ofList]
    rfl

end CutsInto

/-- A token that does not end its line is the first piece of the text from where it begins. -/
theorem Token.exists_isFirstPiece (p : Position) (cs : List Char) {t : Token}
    (h : t ∈ sequence p cs) (inner : t.tag ≠ .endOfLine) : ∃ i, i ≤ cs.length ∧
      t.position = p.advance (cs.take i) ∧ IsFirstPiece (cs.drop i) t.tag t.lexeme.toList := by
  fun_induction sequence p cs with
  | case1 p =>
    obtain rfl := List.mem_singleton.mp h
    exact absurd rfl inner
  | case2 p c cs blank ih =>
    obtain ⟨i, within, position, first⟩ := ih h
    exact ⟨i + 1, Nat.succ_le_succ within, position, first⟩
  | case3 p c cs solid piece ih =>
    have whole : piece.lexeme ++ piece.rest = c :: cs := (Piece.lexeme_append_rest c cs).1
    rcases List.mem_cons.mp h with rfl | later
    · refine ⟨0, Nat.zero_le _, rfl, ?_⟩
      rw [ofPiece, String.toList_ofList]
      exact Piece.isFirstPiece_cut c cs
    · obtain ⟨i, within, position, first⟩ := ih later
      refine ⟨piece.lexeme.length + i, ?_, ?_, ?_⟩
      · rw [← whole, List.length_append]
        exact Nat.add_le_add_left within _
      · rw [← whole, List.take_length_add_append, Position.advance_append]
        exact position
      · rw [← whole, List.drop_length_add_append]
        exact first

/-- Every token but the one that ends the line begins at one place of the text, and is the
longest lexeme with which the text goes on from there, with the tag that the vocabulary gives
it; where the text goes on with no lexeme it is one character without a meaning. Skipping
blanks and cutting such tokens off leads to these tokens and to no others. -/
theorem tokenize_longest_match (line : Int) (text : String) :
    (∀ t ∈ tokenize line text, t.tag ≠ .endOfLine →
      (∃ offset, t.BeginsAt line text offset) ∧
      ∀ offset, t.BeginsAt line text offset →
        IsFirstPiece (text.toList.drop offset) t.tag t.lexeme.toList) ∧
    ∀ pieces, CutsInto text.toList pieces ↔
      (tokenize line text).map Token.piece = pieces ++ [(.endOfLine, [])] := by
  constructor
  · intro t member inner
    obtain ⟨i, within, position, first⟩ := Token.exists_isFirstPiece _ _ member inner
    rw [Position.advance_startOf] at position
    have here : t.BeginsAt line text i := ⟨within, position⟩
    refine ⟨⟨i, here⟩, fun offset begins => ?_⟩
    rwa [begins.unique here]
  · intro pieces
    constructor
    · intro cuts
      exact cuts.map_piece_sequence _
    · intro tokens
      obtain ⟨pieces', cuts, tokens'⟩ := CutsInto.sequence (.startOf line) text.toList
      obtain rfl := List.append_cancel_right (tokens.symm.trans tokens')
      exact cuts

example : (tokenize 1 "endx<>=1a$").map Token.piece =
    [(.identifier, "endx".toList), (.notEqual, "<>".toList), (.equals, "=".toList),
      (.number, "1".toList), (.identifier, "a".toList), (.unknown, "$".toList),
      (.endOfLine, [])] := by
  decide +kernel

end LineBasic
