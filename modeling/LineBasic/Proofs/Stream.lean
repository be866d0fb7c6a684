import LineBasic.Proofs.Token.Offset
import Mathlib.Data.List.TakeWhile

/-!
# Streams keep count of what they read

A stream may start anywhere, with any line and any column, even behind the end of its text.
Whatever it is asked from then on, it reads on: it never goes back and never goes past the end,
its line counts the line feeds that it has passed, and its column the characters behind the last
of them. Every request does no more than read a number of the characters that come next, so this
holds after one request and, by induction, after any number of them.

## Main definitions

* `CharStream.Request`, `CharStream.reply`: what a stream can be asked, and what it does then.
* `CharStream.after`: the stream after a sequence of requests.
* `CharStream.ReadsOn`: whether one stream has come from another by reading on.

## Main results

* `CharStream.exists_reply_eq_skip`: a request reads a number of the characters that come next.
* `CharStream.exists_after_eq_skip`: so does a sequence of requests.
* `CharStream.readsOn_after`: where a stream stands after any sequence of requests, and what one
  more of them does.
-/

namespace LineBasic

namespace Position

variable {cs : List Char}

/-- Behind a line feed it does not matter in which column the reading began. -/
theorem advance_eq_of_line_eq {p q : Position} (feed : '\n' ∈ cs) (same : p.line = q.line) :
    p.advance cs = q.advance cs := by
  induction cs generalizing p q with
  | nil => cases feed
  | cons c cs ih =>
    rw [advance_cons, advance_cons]
    by_cases here : c = '\n'
    · rw [next, next, if_pos here, if_pos here, same]
    · have later : '\n' ∈ cs := (List.mem_cons.mp feed).resolve_left (Ne.symm here)
      apply ih later
      rw [next, next, if_neg here, if_neg here]
      exact same

theorem advance_of_mem_newline (feed : '\n' ∈ cs) (p : Position) :
    p.advance cs = behind p.line cs := by
  rw [← advance_startOf]
  apply advance_eq_of_line_eq feed
  rfl

/-- The column behind some characters: they are counted from the last line feed among them, or
from the column before them. -/
theorem column_advance (p : Position) (cs : List Char) :
    (p.advance cs).column =
      if '\n' ∈ cs then 1 + ((cs.reverse.takeWhile (· ≠ '\n')).length : Int)
      else p.column + cs.length := by
  split
  case isTrue feed => rw [advance_of_mem_newline feed, behind]
  case isFalse noFeed => rw [advance_of_not_mem_newline noFeed]

end Position

namespace CharStream

/-- What a stream can be asked. -/
inductive Request
  /-- Show the character that stands some way before or behind the next one. -/
  | peek (distance : Int)
  /-- Read one character. -/
  | next
  /-- Say whether everything has been read. -/
  | atEnd
  /-- Read the blanks that come next. -/
  | skipBlanks
  /-- Read a symbol, if one comes next. -/
  | symbol
  /-- Read a token behind the blanks that come next. -/
  | token

/-- What a stream answers to a request. -/
inductive Reply
  | shown (c : Option Char)
  | character (c : Char)
  | refused (e : PastEnd)
  | ended (b : Bool)
  | done
  | symbol (t : Option Token)
  | token (t : Token)

/-- The reply to a request, and the stream afterwards. -/
def reply (s : CharStream) : Request → Reply × CharStream
  | .peek distance => (.shown (s.peek distance), s)
  | .next =>
    match s.next with
    | .ok (c, t) => (.character c, t)
    | .error e => (.refused e, s)
  | .atEnd => (.ended s.atEnd, s)
  | .skipBlanks => (.done, s.skipBlanks)
  | .symbol =>
    match s.symbol? with
    | some (t, u) => (.symbol (some t), u)
    | none => (.symbol none, s)
  | .token => (.token s.token.1, s.token.2)

/-- The stream after a sequence of requests. -/
def after (s : CharStream) (requests : List Request) : CharStream :=
  requests.foldl (fun s request => (s.reply request).2) s

/-- The characters from where one stream stands to where another one does. -/
def between (s t : CharStream) : List Char :=
  s.source.extract s.offset t.offset

/-- Whether a stream has come from another one by reading on in the same text. -/
structure ReadsOn (s t : CharStream) : Prop where
  source : t.source = s.source
  notBack : s.offset ≤ t.offset
  /-- Only a stream that starts behind the end stands there. -/
  notPast : t.offset ≤ max s.offset s.source.length
  line : t.position.line = s.position.line + (s.between t).count '\n'
  column : t.position.column =
    if '\n' ∈ s.between t then 1 + (((s.between t).reverse.takeWhile (· ≠ '\n')).length : Int)
    else s.position.column + ((t.offset : Int) - s.offset)

/-- What a stream does with one more request. -/
structure Answers (s : CharStream) : Prop where
  /-- A character is refused just at the end, and then nothing is read. -/
  refused : ∀ e, (s.reply .next).1 = .refused e ↔
    s.source.length ≤ s.offset ∧ e = ⟨s.offset, s.position.line⟩
  afterRefusal : s.source.length ≤ s.offset → (s.reply .next).2 = s
  peek : ∀ distance, (s.reply (.peek distance)).2 = s
  atEnd : (s.reply .atEnd).2 = s
  noSymbol : (s.reply .symbol).1 = .symbol none → (s.reply .symbol).2 = s
  /-- A token takes the stream further, unless only blanks are left; then it ends the line. -/
  token : (∃ c ∈ s.rest, Text.isBlank c = false) → s.offset < (s.reply .token).2.offset
  lastToken : (∀ c ∈ s.rest, Text.isBlank c = true) →
    s.reply .token = (.token (.endOfLine (s.position.advance s.rest)), s.skip s.rest.length)

variable {s t : CharStream} {n : Nat}

/-! ### Reading characters -/

theorem length_rest (s : CharStream) : s.rest.length = s.source.length - s.offset :=
  List.length_drop

theorem rest_eq_nil_iff : s.rest = [] ↔ s.source.length ≤ s.offset :=
  List.drop_eq_nil_iff

theorem skip_zero (s : CharStream) : s.skip 0 = s := rfl

/-- A stream that reads some of the characters that come next reads on. -/
theorem readsOn_skip (within : n ≤ s.rest.length) : s.ReadsOn (s.skip n) := by
  rw [length_rest] at within
  have passed : s.between (s.skip n) = s.rest.take n := by
    change (s.source.drop s.offset).take (s.offset + n - s.offset) = _
    rw [Nat.add_sub_cancel_left]
    rfl
  have count : (s.rest.take n).length = n := by
    rw [List.length_take, length_rest]
    omega
  constructor
  case source => rfl
  case notBack => exact Nat.le_add_right s.offset n
  case notPast =>
    change s.offset + n ≤ _
    omega
  case line =>
    rw [passed]
    exact Position.line_advance s.position _
  case column =>
    have distance : ((s.skip n).offset : Int) - s.offset = n := by
      change ((s.offset + n : Nat) : Int) - s.offset = n
      omega
    rw [passed, distance]
    have column := Position.column_advance s.position (s.rest.take n)
    rw [count] at column
    exact column

/-! ### One request -/

theorem reply_next_of_rest_eq_nil (none : s.rest = []) :
    s.reply .next = (.refused ⟨s.offset, s.position.line⟩, s) := by
  simp only [reply, next, none]

theorem reply_next_of_rest_eq_cons {c : Char} {cs : List Char} (some : s.rest = c :: cs) :
    s.reply .next = (.character c, s.skip 1) := by
  simp only [reply, next, some]

theorem exists_reply_symbol_eq (s : CharStream) : ∃ n ≤ s.rest.length,
    (s.reply .symbol).2 = s.skip n ∧ ((s.reply .symbol).1 = .symbol none → n = 0) := by
  cases found : Piece.symbol? s.rest with
  | none =>
    have missing : s.symbol? = none := by rw [symbol?, found, Option.map_none]
    refine ⟨0, Nat.zero_le _, ?_, fun _ => rfl⟩
    simp only [reply, missing, skip_zero]
  | some piece =>
    have whole := (Piece.lexeme_append_rest_of_symbol? found).1
    have read : s.symbol? = some (Token.ofPiece s.position piece, s.skip piece.lexeme.length) := by
      rw [symbol?, found, Option.map_some, Token.ofPiece]
    refine ⟨piece.lexeme.length, ?_, ?_, ?_⟩
    · rw [← whole, List.length_append]
      exact Nat.le_add_right _ _
    · simp only [reply, read]
    · intro nothing
      simp only [reply, read] at nothing
      cases nothing

/-- Where only blanks are left, a token reads them all and ends the line. -/
theorem reply_token_of_isBlank (blank : ∀ c ∈ s.rest, Text.isBlank c = true) :
    s.reply .token =
      (.token (.endOfLine (s.position.advance s.rest)), s.skip s.rest.length) := by
  have all : s.rest.takeWhile Text.isBlank = s.rest := List.takeWhile_eq_self_iff.mpr blank
  have skipped : s.skipBlanks = s.skip s.rest.length := by rw [skipBlanks, all]
  have nothing : (s.skip s.rest.length).rest = [] := by rw [rest_skip, List.drop_length]
  have place : (s.skip s.rest.length).position = s.position.advance s.rest := by
    rw [skip, List.take_length]
  simp only [reply, token, skipped, nothing, Token.endOfLine, place]

/-- Where more than blanks is left, a token reads at least one character. -/
theorem exists_reply_token_eq (solid : ∃ c ∈ s.rest, Text.isBlank c = false) :
    ∃ n ≤ s.rest.length, 0 < n ∧ (s.reply .token).2 = s.skip n := by
  have split := List.takeWhile_append_dropWhile (p := Text.isBlank) (l := s.rest)
  have left := s.rest_position_skipBlanks.1
  -- a token reads the blanks and the piece behind them, and no piece is empty
  cases more : s.skipBlanks.rest with
  | nil =>
    rw [left, List.dropWhile_eq_nil_iff] at more
    obtain ⟨c, member, solid⟩ := solid
    rw [more c member] at solid
    cases solid
  | cons c cs =>
    obtain ⟨whole, nonempty⟩ := Piece.lexeme_append_rest c cs
    have lengths := congrArg List.length split
    rw [← left, more, ← whole, List.length_append, List.length_append] at lengths
    have some := List.length_pos_iff.mpr nonempty
    refine ⟨(s.rest.takeWhile Text.isBlank).length + (Piece.cut c cs).lexeme.length, by omega,
      by omega, ?_⟩
    simp only [reply, token, more]
    exact s.skip_skip _ _

/-- Whatever a stream is asked, it reads a number of the characters that come next. -/
theorem exists_reply_eq_skip (s : CharStream) (request : Request) :
    ∃ n ≤ s.rest.length, (s.reply request).2 = s.skip n := by
  cases request with
  | peek distance => exact ⟨0, Nat.zero_le _, rfl⟩
  | atEnd => exact ⟨0, Nat.zero_le _, rfl⟩
  | next =>
    cases more : s.rest with
    | nil => exact ⟨0, Nat.zero_le _, by rw [reply_next_of_rest_eq_nil more, skip_zero]⟩
    | cons c cs =>
      refine ⟨1, ?_, by rw [reply_next_of_rest_eq_cons more]⟩
      exact Nat.succ_le_succ (Nat.zero_le _)
  | skipBlanks => exact ⟨_, (List.takeWhile_prefix Text.isBlank).length_le, rfl⟩
  | symbol =>
    obtain ⟨n, within, same, -⟩ := s.exists_reply_symbol_eq
    exact ⟨n, within, same⟩
  | token =>
    by_cases blank : ∀ c ∈ s.rest, Text.isBlank c = true
    · exact ⟨s.rest.length, Nat.le_refl _, by rw [reply_token_of_isBlank blank]⟩
    · have solid : ∃ c ∈ s.rest, Text.isBlank c = false := by simpa using blank
      obtain ⟨n, within, -, same⟩ := exists_reply_token_eq solid
      exact ⟨n, within, same⟩

theorem answers (s : CharStream) : s.Answers := by
  constructor
  case refused =>
    intro e
    rw [← rest_eq_nil_iff]
    cases more : s.rest with
    | nil => simp [reply_next_of_rest_eq_nil more, eq_comm]
    | cons c cs => simp [reply_next_of_rest_eq_cons more]
  case afterRefusal =>
    intro past
    rw [reply_next_of_rest_eq_nil (rest_eq_nil_iff.mpr past)]
  case peek => exact fun _ => rfl
  case atEnd => rfl
  case noSymbol =>
    intro nothing
    obtain ⟨n, -, same, zero⟩ := s.exists_reply_symbol_eq
    rw [same, zero nothing, skip_zero]
  case token =>
    intro solid
    obtain ⟨n, -, some, same⟩ := exists_reply_token_eq solid
    rw [same]
    exact Nat.lt_add_of_pos_right some
  case lastToken => exact reply_token_of_isBlank

/-! ### Any number of requests -/

/-- A sequence of requests reads a number of the characters that come next. -/
theorem exists_after_eq_skip (s : CharStream) (requests : List Request) :
    ∃ n ≤ s.rest.length, s.after requests = s.skip n := by
  -- what the first request leaves unread is what the others may read
  induction requests generalizing s with
  | nil => exact ⟨0, Nat.zero_le _, rfl⟩
  | cons request requests ih =>
    obtain ⟨first, within, same⟩ := s.exists_reply_eq_skip request
    obtain ⟨more, within', later⟩ := ih (s.skip first)
    rw [rest_skip, List.length_drop] at within'
    refine ⟨first + more, by omega, ?_⟩
    calc s.after (request :: requests)
      _ = (s.reply request).2.after requests := rfl
      _ = (s.skip first).after requests := by rw [same]
      _ = (s.skip first).skip more := later
      _ = s.skip (first + more) := s.skip_skip first more

/-- After any sequence of requests a stream stands no further back than it has started, and not
past the end unless it has started there; its line counts the line feeds that it has passed, and
its column the characters behind the last of them. There it refuses to read on just at the end,
and stays where it is if it refuses, shows a character, says whether it is at the end or finds no
symbol; a token takes it further unless only blanks are left. -/
theorem readsOn_after (s : CharStream) (requests : List Request) :
    s.ReadsOn (s.after requests) ∧ (s.after requests).Answers := by
  obtain ⟨n, within, same⟩ := s.exists_after_eq_skip requests
  rw [same]
  exact ⟨readsOn_skip within, answers _⟩

example : (CharStream.mk "a\n b".toList 0 ⟨5, 9⟩).after [.token, .skipBlanks, .symbol, .next, .next] =
    ⟨"a\n b".toList, 4, ⟨6, 3⟩⟩ := by
  decide +kernel

end CharStream

end LineBasic
