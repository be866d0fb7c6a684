/-!
# Texts stored as bytes

Files and standard input hold UTF-8. Decoding is strict: the first sequence of
bytes that is not well formed stops it, and the error names those bytes, where
they stand and what is wrong with them.

## Main definitions

* `encode` writes a text as bytes.
* `decode` reads bytes as a text.
* `DecodeError` says why bytes are not a text.
-/

namespace LineBasic.Text

/-- What is wrong with a sequence of bytes. -/
inductive DecodeCause
  /-- The byte cannot begin a character. -/
  | invalidStart
  /-- The next byte does not continue the character. -/
  | invalidContinuation
  /-- The input ends inside the character. -/
  | unexpectedEnd
  deriving DecidableEq, Repr

/-- The first bytes that are not UTF-8: the offset of the first of them, the
bytes themselves, and the reason. -/
structure DecodeError where
  offset : Nat
  bytes : List UInt8
  cause : DecodeCause
  deriving DecidableEq, Repr

/-- A character of which only the first bytes have been read. The next byte has
to lie between `low` and `high`; `missing` more follow that one. -/
structure Partial where
  offset : Nat
  bytes : List UInt8
  value : Nat
  low : Nat
  high : Nat
  missing : Nat
  deriving DecidableEq, Repr

namespace Partial

/-- The character announced by its first byte, if it takes more bytes. The
bounds on the second byte keep out spellings that are longer than necessary,
surrogates and code points past the last. -/
def start? (offset : Nat) (b : UInt8) : Option Partial :=
  let n := b.toNat
  -- two bytes; C0 and C1 could only spell what one byte spells
  if 0xC2 ≤ n ∧ n ≤ 0xDF then some ⟨offset, [b], n - 0xC0, 0x80, 0xBF, 0⟩
  -- three bytes; after ED the higher half would spell surrogates
  else if n = 0xE0 then some ⟨offset, [b], 0, 0xA0, 0xBF, 1⟩
  else if n = 0xED then some ⟨offset, [b], 0x0D, 0x80, 0x9F, 1⟩
  else if 0xE1 ≤ n ∧ n ≤ 0xEF then some ⟨offset, [b], n - 0xE0, 0x80, 0xBF, 1⟩
  -- four bytes; after F4 little room is left
  else if n = 0xF0 then some ⟨offset, [b], 0, 0x90, 0xBF, 2⟩
  else if 0xF1 ≤ n ∧ n ≤ 0xF3 then some ⟨offset, [b], n - 0xF0, 0x80, 0xBF, 2⟩
  else if n = 0xF4 then some ⟨offset, [b], 4, 0x80, 0x8F, 2⟩
  else none

/-- The value with the six bits of a further byte. -/
def extended (p : Partial) (b : UInt8) : Nat :=
  p.value * 64 + (b.toNat - 0x80)

/-- The character after a further byte that is not its last. -/
def extend (p : Partial) (b : UInt8) : Partial :=
  { p with
    bytes := p.bytes ++ [b], value := p.extended b, low := 0x80, high := 0xBF,
    missing := p.missing - 1 }

end Partial

/-- Decode bytes from an offset on, with a character that may already have
begun. -/
def decodeFrom (offset : Nat) (begun : Option Partial) :
    List UInt8 → Except DecodeError (List Char)
  | [] =>
    match begun with
    | none => .ok []
    | some p => .error ⟨p.offset, p.bytes, .unexpectedEnd⟩
  | b :: bytes =>
    match begun with
    | none =>
      if b.toNat < 0x80 then
        (decodeFrom (offset + 1) none bytes).map (Char.ofNat b.toNat :: ·)
      else
        match Partial.start? offset b with
        | none => .error ⟨offset, [b], .invalidStart⟩
        | some p => decodeFrom (offset + 1) (some p) bytes
    | some p =>
      if p.low ≤ b.toNat ∧ b.toNat ≤ p.high then
        if p.missing = 0 then
          (decodeFrom (offset + 1) none bytes).map (Char.ofNat (p.extended b) :: ·)
        else
          decodeFrom (offset + 1) (some (p.extend b)) bytes
      else
        .error ⟨p.offset, p.bytes, .invalidContinuation⟩

/-- The text that bytes hold. -/
def decode (bytes : List UInt8) : Except DecodeError String :=
  (decodeFrom 0 none bytes).map String.ofList

/-- The bytes of a text. -/
def encode (text : String) : List UInt8 :=
  text.toList.flatMap String.utf8EncodeChar

namespace DecodeCause

/-- The reason in words. -/
def message : DecodeCause → String
  | invalidStart => "invalid start byte"
  | invalidContinuation => "invalid continuation byte"
  | unexpectedEnd => "unexpected end of data"

end DecodeCause

namespace DecodeError

/-- The bytes and where they stand, in words: one byte is shown, of several only
the offsets of the first and the last. -/
def place (e : DecodeError) : String :=
  match e.bytes with
  | [b] =>
    let digits := String.ofList [Nat.digitChar (b.toNat / 16), Nat.digitChar (b.toNat % 16)]
    s!"byte 0x{digits} in position {e.offset}"
  | bytes => s!"bytes in position {e.offset}-{e.offset + bytes.length - 1}"

/-- The error in words. -/
def message (e : DecodeError) : String :=
  s!"\x27utf-8\x27 codec can\x27t decode {e.place}: {e.cause.message}"

end DecodeError

end LineBasic.Text
