import LineBasic.Line.Basic
import LineBasic.Proofs.Token.Coverage
import LineBasic.Proofs.Token.Shape

/-!
# Texts one behind the other

Blanks, parentheses, the semicolon and the colon are part of no longer token. So where one of them
stands at the place where two texts meet, no token reaches from the one text into the other, and
the tokens of both are those of the first and those of the second.

## Main definitions

* `Text.isSeparator`: whether a character is part of no longer token.
* `Separated`: whether a separator stands where two texts meet.

## Main results

* `Token.sequence_append`: the tokens of two separated texts.
* `Token.sequence_append_cons`: the tokens of two texts with a separator between them.
* `tokenize_append`: tokenizing takes separated texts apart.
-/

namespace LineBasic

/-- Whether a character is part of no longer token: a blank, or a punctuation mark. -/
def Text.isSeparator (c : Char) : Bool :=
  isBlank c || ['(', ')', ';', ':'].contains c

/-- Whether a separator stands at one of the two places where a text meets the one behind it, if
none of them is empty. -/
def Separated (cs ds : List Char) : Prop :=
  ∀ c ∈ cs.getLast?, ∀ d ∈ ds.head?, Text.isSeparator c = true ∨ Text.isSeparator d = true

variable {c : Char} {cs ds es : List Char}

/-! ### Separators -/

theorem Text.isAlphanum_eq_false_of_isSeparator (h : isSeparator c = true) :
    c.isAlphanum = false := by
  rcases Bool.or_eq_true_iff.mp h with blank | mark
  · refine Bool.eq_false_iff.mpr fun alphanum => ?_
    rw [isBlank_eq_false_of_isAlphanum alphanum] at blank
    cases blank
  · have marks : ['(', ')', ';', ':'].all (!·.isAlphanum) = true := by decide
    simpa using List.all_eq_true.mp marks c (List.contains_iff_mem.mp mark)

/-- No symbol of two characters has a separator among them. -/
theorem Vocabulary.symbolTag?_pair_eq_none {d : Char}
    (h : Text.isSeparator c = true ∨ Text.isSeparator d = true) : symbolTag? [c, d] = none := by
  have pairs : symbols.all (fun entry =>
      entry.1.toList.length != 2 || entry.1.toList.all (!Text.isSeparator ·)) = true := by
    decide
  cases found : symbolTag? [c, d] with
  | none => rfl
  | some tag =>
    have clear := List.all_eq_true.mp pairs _ (mem_symbols_of_symbolTag? found)
    rw [String.toList_ofList] at clear
    have none : Text.isSeparator c = false ∧ Text.isSeparator d = false := by simpa using clear
    rw [none.1, none.2] at h
    rcases h with h | h <;> cases h

namespace Separated

theorem of_append (h : Separated (cs ++ ds) es) : Separated ds es := by
  intro c last
  refine h c ?_
  rw [List.getLast?_append, Option.mem_def.mp last]
  rfl

theorem tail (h : Separated (c :: cs) ds) : Separated cs ds := by
  rw [← List.singleton_append] at h
  exact h.of_append

/-- A run of letters or digits does not reach into a separated text. -/
theorem takeWhile_append {p : Char → Bool} (h : Separated (c :: cs) ds) (first : p c = true)
    (inWord : ∀ c, p c = true → c.isAlphanum = true) :
    (cs ++ ds).takeWhile p = cs.takeWhile p ∧
      (cs ++ ds).dropWhile p = cs.dropWhile p ++ ds := by
  have stops {d : Char} (separator : Text.isSeparator d = true) : p d = false := by
    refine Bool.eq_false_iff.mpr fun word => ?_
    have alphanum := inWord d word
    rw [Text.isAlphanum_eq_false_of_isSeparator separator] at alphanum
    cases alphanum
  induction cs generalizing c with
  | nil =>
    cases ds with
    | nil => exact ⟨rfl, rfl⟩
    | cons d ds =>
      have separator : Text.isSeparator d = true := by
        refine (h c rfl d rfl).resolve_left fun here => ?_
        rw [stops here] at first
        cases first
      simp [stops separator]
  | cons e cs ih =>
    by_cases word : p e = true
    · obtain ⟨taken, dropped⟩ := ih h.tail word
      simp [word, taken, dropped]
    · simp [word]

end Separated

/-! ### Tokens -/

/-- A symbol does not reach into a separated text. -/
theorem Piece.symbol?_append (h : Separated (c :: cs) ds) :
    symbol? (c :: cs ++ ds) =
      (symbol? (c :: cs)).map fun piece => { piece with rest := piece.rest ++ ds } := by
  cases cs with
  | nil =>
    cases ds with
    | nil =>
      simp only [symbol?, List.append_nil, Option.map_map]
      rfl
    | cons d ds =>
      have single := Vocabulary.symbolTag?_pair_eq_none (h c rfl d rfl)
      simp only [symbol?, List.singleton_append, single, Option.map_map]
      rfl
  | cons d cs =>
    simp only [symbol?, List.cons_append]
    cases Vocabulary.symbolTag? [c, d] with
    | none =>
      simp only [Option.map_map]
      rfl
    | some tag => rfl

/-- The first token of a text is the same whatever separated text follows. -/
theorem Piece.cut_append (h : Separated (c :: cs) ds) :
    cut c (cs ++ ds) = { cut c cs with rest := (cut c cs).rest ++ ds } := by
  unfold cut
  split
  case isTrue letter =>
    have word : c.isAlphanum = true := Bool.or_eq_true_iff.mpr (.inl letter)
    obtain ⟨taken, dropped⟩ := h.takeWhile_append word fun _ word => word
    simp only [Piece.word, taken, dropped]
  case isFalse =>
  split
  case isTrue digit =>
    obtain ⟨taken, dropped⟩ := h.takeWhile_append digit fun _ digit =>
      Bool.or_eq_true_iff.mpr (.inr digit)
    simp only [digits, taken, dropped]
  case isFalse =>
    rw [← List.cons_append, symbol?_append h]
    cases symbol? (c :: cs) <;> rfl

namespace Token

/-- The tokens of two separated texts are those of the first, without the one that ends it, and
those of the second. -/
theorem sequence_append (h : Separated cs ds) (p : Position) :
    sequence p (cs ++ ds) = (sequence p cs).dropLast ++ sequence (p.advance cs) ds := by
  fun_induction sequence p cs with
  | case1 p => rfl
  | case2 p c cs blank ih => rw [List.cons_append, sequence, if_pos blank, ih h.tail]; rfl
  | case3 p c cs solid piece ih =>
    have whole : piece.lexeme ++ piece.rest = c :: cs := (Piece.lexeme_append_rest c cs).1
    have solid : Text.isBlank c = false := Bool.eq_false_iff.mpr solid
    have first : Piece.cut c (cs ++ ds) = ⟨piece.tag, piece.lexeme, piece.rest ++ ds⟩ :=
      Piece.cut_append h
    rw [List.cons_append, sequence_cons_of_not_isBlank solid, first,
      List.dropLast_cons_of_ne_nil (sequence_ne_nil _ _), ← whole, Position.advance_append,
      ih (Separated.of_append (whole ▸ h))]
    rfl

/-- A separator stands apart from what precedes and what follows it. -/
theorem sequence_append_cons (separator : Text.isSeparator c = true) (p : Position)
    (cs ds : List Char) :
    sequence p (cs ++ c :: ds) = (sequence p cs).dropLast ++
      ((sequence (p.advance cs) [c]).dropLast ++ sequence (p.advance (cs ++ [c])) ds) := by
  have before : Separated cs (c :: ds) := fun _ _ d first =>
    .inr (Option.some.inj first ▸ separator)
  have behind : Separated [c] ds := fun d last _ _ => .inl (Option.some.inj last ▸ separator)
  rw [sequence_append before, ← List.singleton_append, sequence_append behind,
    Position.advance_append]

/-- A blank between two texts takes them apart. -/
theorem sequence_append_cons_of_isBlank (blank : Text.isBlank c = true) (p : Position)
    (cs ds : List Char) :
    sequence p (cs ++ c :: ds) =
      (sequence p cs).dropLast ++ sequence (p.advance (cs ++ [c])) ds := by
  have separator : Text.isSeparator c = true := Bool.or_eq_true_iff.mpr (.inl blank)
  have none (q : Position) : sequence q [c] = [endOfLine (q.next c)] := by
    rw [sequence, if_pos blank, sequence_nil]
  rw [sequence_append_cons separator, none]
  rfl

/-- A mark that is a token of its own, with the token that ends it left out. -/
theorem dropLast_sequence_singleton {tag : Tag} (solid : Text.isBlank c = false)
    (cut : Piece.cut c [] = ⟨tag, [c], []⟩) (p : Position) :
    (sequence p [c]).dropLast = [⟨tag, String.ofList [c], p⟩] := by
  rw [sequence_cons_of_not_isBlank solid, cut, sequence_nil]
  rfl

/-- A mark between two texts is a token of its own. -/
theorem sequence_append_mark {tag : Tag} (separator : Text.isSeparator c = true)
    (solid : Text.isBlank c = false) (cut : Piece.cut c [] = ⟨tag, [c], []⟩) (p : Position)
    (cs ds : List Char) :
    sequence p (cs ++ c :: ds) = (sequence p cs).dropLast ++
      ⟨tag, String.ofList [c], p.advance cs⟩ :: sequence (p.advance (cs ++ [c])) ds := by
  rw [sequence_append_cons separator, dropLast_sequence_singleton solid cut]
  rfl

theorem sequence_cons_mark {tag : Tag} (separator : Text.isSeparator c = true)
    (solid : Text.isBlank c = false) (cut : Piece.cut c [] = ⟨tag, [c], []⟩) (p : Position)
    (ds : List Char) :
    sequence p (c :: ds) = ⟨tag, String.ofList [c], p⟩ :: sequence (p.next c) ds := by
  have apart := sequence_append_mark separator solid cut p [] ds
  rw [sequence_nil] at apart
  exact apart

/-- Marks in a row are as many tokens. -/
theorem exists_sequence_replicate_append {tag : Tag} (separator : Text.isSeparator c = true)
    (solid : Text.isBlank c = false) (cut : Piece.cut c [] = ⟨tag, [c], []⟩) (n : Nat)
    (p : Position) (ds : List Char) : ∃ marks,
      sequence p (List.replicate n c ++ ds) =
        marks ++ sequence (p.advance (List.replicate n c)) ds ∧
      marks.length = n ∧ ∀ t ∈ marks, t.tag = tag := by
  induction n generalizing p with
  | zero => exact ⟨[], rfl, rfl, fun _ member => absurd member List.not_mem_nil⟩
  | succ n ih =>
    obtain ⟨marks, same, length, tags⟩ := ih (p.next c)
    refine ⟨⟨tag, String.ofList [c], p⟩ :: marks, ?_, congrArg (· + 1) length,
      List.forall_mem_cons.mpr ⟨rfl, tags⟩⟩
    rw [List.replicate_succ, List.cons_append, sequence_cons_mark separator solid cut, same]
    rfl

end Token

/-! ### Texts -/

variable {a b : String}

/-- With a separator where two texts without a line feed meet, the tokens of both are those of the
first, without the one that ends it, and those of the second, as many columns further on as the
first has characters. -/
theorem tokenize_append (oneLine : '\n' ∉ a.toList) (oneLine' : '\n' ∉ b.toList)
    (apart : a = "" ∨ b = "" ∨ (∃ c ∈ a.toList.getLast?, Text.isSeparator c = true) ∨
      ∃ c ∈ b.toList.head?, Text.isSeparator c = true) (line : Int) :
    tokenize line (a ++ b) =
      (tokenize line a).dropLast ++ (tokenize line b).map (·.right a.length) := by
  have separated : Separated a.toList b.toList := by
    intro c last d first
    rcases apart with rfl | rfl | ⟨c', last', separator⟩ | ⟨d', first', separator⟩
    · cases last
    · cases first
    · exact .inl (Option.some.inj (last'.symm.trans last) ▸ separator)
    · exact .inr (Option.some.inj (first'.symm.trans first) ▸ separator)
  have place : (Position.startOf line).advance a.toList =
      (Position.startOf line).right a.length := by
    rw [Position.advance_of_not_mem_newline oneLine, String.length_toList]
    rfl
  rw [tokenize, String.toList_append, Token.sequence_append separated, place,
    Token.sequence_right oneLine']
  rfl

/-- A word and a parenthesis, and a sign that goes on touching its number. -/
theorem tokenize_append_parenthesis :
    '\n' ∉ "if (x1".toList ∧ '\n' ∉ ")<= -2".toList ∧
    (∃ c ∈ ")<= -2".toList.head?, Text.isSeparator c = true) ∧
    tokenize 3 ("if (x1" ++ ")<= -2") =
      (tokenize 3 "if (x1").dropLast ++ (tokenize 3 ")<= -2").map (·.right 6) := by
  have oneLine : '\n' ∉ "if (x1".toList := by decide +kernel
  have oneLine' : '\n' ∉ ")<= -2".toList := by decide +kernel
  have separator : ∃ c ∈ ")<= -2".toList.head?, Text.isSeparator c = true :=
    ⟨')', by decide +kernel, by decide⟩
  exact ⟨oneLine, oneLine', separator,
    tokenize_append oneLine oneLine' (.inr (.inr (.inr separator))) 3⟩

end LineBasic
