import LineBasic.Proofs.Cursor.Expression
import LineBasic.Text.Utf8RoundTrip
import Mathlib.Algebra.Group.Nat.Defs

/-!
# Bytes that are decoded are those of a text

Decoding accepts no bytes but those that writing a text produces: no spelling that is longer than
necessary, no half of a surrogate pair and nothing past the last code point. While a character is
being read, the bytes so far and the bounds on the next one leave only code points that are written
with these bytes. The first byte sees to that, and every further byte keeps it.

## Main definitions

* `trailing`: the last bytes of a character.
* `Partial.Announces`: whether the bytes read of a character begin every code point that they leave.

## Main results

* `Partial.announces_of_start?`, `Partial.Announces.extend`: the first byte and every further one.
* `append_eq_of_decodeFrom`: what has been decoded is written with the bytes that were read.
* `decode_eq_ok_iff`: decoding accepts just the bytes of texts.
-/

namespace LineBasic.Text

/-- The last bytes of a character with a given code point, of six bits each. -/
def trailing (count n : Nat) : List UInt8 :=
  match count with
  | 0 => []
  | count + 1 => UInt8.ofNat (n / 64 ^ count % 64 + 128) :: trailing count n

/-- Whether every code point that the bytes read so far and the bounds on the next one leave is
written with these bytes. -/
structure Partial.Announces (p : Partial) : Prop where
  low : 0x80 ≤ p.low
  high : p.high ≤ 0xBF
  spelled : ∀ n, n / 64 ^ (p.missing + 1) = p.value →
    p.low ≤ n / 64 ^ p.missing % 64 + 128 → n / 64 ^ p.missing % 64 + 128 ≤ p.high →
    String.utf8EncodeChar (Char.ofNat n) = p.bytes ++ trailing (p.missing + 1) n

variable {offset n value low high : Nat} {b : UInt8} {bytes : List UInt8} {cs : List Char}
  {p : Partial}

/-! ### The bytes of a code point -/

theorem toNat_val_ofNat (valid : n.isValidChar) : (Char.ofNat n).val.toNat = n := by
  rw [Char.ofNat, dif_pos valid]
  rfl

theorem utf8EncodeChar_one (lead : b.toNat < 0x80) :
    String.utf8EncodeChar (Char.ofNat b.toNat) = [b] := by
  unfold String.utf8EncodeChar
  dsimp only
  rw [toNat_val_ofNat (.inl (by omega)), if_pos (by omega), UInt8.ofNat_toNat]

theorem utf8EncodeChar_two (lead : b.toNat = n / 64 + 0xC0) (more : 0x7F < n)
    (atMost : n ≤ 0x7FF) : String.utf8EncodeChar (Char.ofNat n) = b :: trailing 1 n := by
  have first : UInt8.ofNat (n / 64 % 32 + 192) = b := by
    rw [show n / 64 % 32 + 192 = b.toNat by omega, UInt8.ofNat_toNat]
  unfold String.utf8EncodeChar
  dsimp only
  rw [toNat_val_ofNat (.inl (by omega)), if_neg (by omega), if_pos (by omega), first]
  simp only [trailing, Nat.pow_zero, Nat.div_one]

theorem utf8EncodeChar_three (lead : b.toNat = n / 4096 + 0xE0) (more : 0x7FF < n)
    (valid : n < 0xD800 ∨ 0xDFFF < n) (atMost : n ≤ 0xFFFF) :
    String.utf8EncodeChar (Char.ofNat n) = b :: trailing 2 n := by
  have first : UInt8.ofNat (n / 4096 % 16 + 224) = b := by
    rw [show n / 4096 % 16 + 224 = b.toNat by omega, UInt8.ofNat_toNat]
  have isValid : n.isValidChar := valid.imp_right fun above => ⟨above, by omega⟩
  unfold String.utf8EncodeChar
  dsimp only
  rw [toNat_val_ofNat isValid, if_neg (by omega), if_neg (by omega), if_pos (by omega), first]
  simp only [trailing, Nat.pow_zero, Nat.pow_one, Nat.div_one]

theorem utf8EncodeChar_four (lead : b.toNat = n / 262144 + 0xF0) (more : 0xFFFF < n)
    (atMost : n < 0x110000) :
    String.utf8EncodeChar (Char.ofNat n) = b :: trailing 3 n := by
  have first : UInt8.ofNat (n / 262144 % 8 + 240) = b := by
    rw [show n / 262144 % 8 + 240 = b.toNat by omega, UInt8.ofNat_toNat]
  unfold String.utf8EncodeChar
  dsimp only
  rw [toNat_val_ofNat (.inr ⟨by omega, by omega⟩), if_neg (by omega), if_neg (by omega),
    if_neg (by omega), first]
  simp only [trailing, Nat.pow_zero, Nat.pow_one, Nat.div_one, Nat.reducePow]

namespace Partial

/-! ### Beginning and continuing a character -/

theorem announces_two (lead : b.toNat = value + 0xC0) (atLeast : 2 ≤ value) (atMost : value < 32) :
    Announces ⟨offset, [b], value, 0x80, 0xBF, 0⟩ where
  low := Nat.le_refl _
  high := Nat.le_refl _
  spelled n same above below := by
    dsimp only at same above below
    exact utf8EncodeChar_two (by omega) (by omega) (by omega)

/-- The second of three bytes leaves no code point that needs fewer, and no surrogate. -/
theorem announces_three (lead : b.toNat = value + 0xE0) (atMost : value < 16) (above : 0x80 ≤ low)
    (below : high ≤ 0xBF) (notShort : value = 0 → 0xA0 ≤ low)
    (noSurrogate : value = 0x0D → high ≤ 0x9F) :
    Announces ⟨offset, [b], value, low, high, 1⟩ where
  low := above
  high := below
  spelled n same atLeast atMost := by
    dsimp only at same atLeast atMost
    exact utf8EncodeChar_three (by omega) (by omega) (by omega) (by omega)

/-- The second of four bytes leaves no code point that needs fewer, and none past the last. -/
theorem announces_four (lead : b.toNat = value + 0xF0) (atMost : value ≤ 4) (above : 0x80 ≤ low)
    (below : high ≤ 0xBF) (notShort : value = 0 → 0x90 ≤ low) (notPast : value = 4 → high ≤ 0x8F) :
    Announces ⟨offset, [b], value, low, high, 2⟩ where
  low := above
  high := below
  spelled n same atLeast atMost := by
    dsimp only at same atLeast atMost
    exact utf8EncodeChar_four (by omega) (by omega) (by omega)

/-- A byte that begins a character leaves only code points that are written with it. -/
theorem announces_of_start? (h : start? offset b = some p) : p.bytes = [b] ∧ p.Announces := by
  unfold start? at h
  dsimp only at h
  -- the ranges of the first byte, in the order in which they are tried
  split at h
  case isTrue two =>
    obtain rfl := Option.some.inj h
    refine ⟨rfl, ?_⟩
    apply announces_two <;> omega
  split at h
  case isTrue lowest =>
    obtain rfl := Option.some.inj h
    refine ⟨rfl, ?_⟩
    apply announces_three <;> omega
  split at h
  case isTrue surrogates =>
    obtain rfl := Option.some.inj h
    refine ⟨rfl, ?_⟩
    apply announces_three <;> omega
  split at h
  case isTrue three =>
    obtain rfl := Option.some.inj h
    refine ⟨rfl, ?_⟩
    apply announces_three <;> omega
  split at h
  case isTrue lowest =>
    obtain rfl := Option.some.inj h
    refine ⟨rfl, ?_⟩
    apply announces_four <;> omega
  split at h
  case isTrue four =>
    obtain rfl := Option.some.inj h
    refine ⟨rfl, ?_⟩
    apply announces_four <;> omega
  split at h
  case isTrue highest =>
    obtain rfl := Option.some.inj h
    refine ⟨rfl, ?_⟩
    apply announces_four <;> omega
  case isFalse => cases h

namespace Announces

/-- A further byte within the bounds adds six bits. -/
theorem extended_div_mod (h : p.Announces) (within : p.low ≤ b.toNat ∧ b.toNat ≤ p.high) :
    p.extended b / 64 = p.value ∧ p.extended b % 64 + 128 = b.toNat := by
  have low := h.low
  have high := h.high
  unfold extended
  constructor
  · omega
  · omega

/-- It leaves only code points that are written with it as well. -/
theorem spelled_append (h : p.Announces) (within : p.low ≤ b.toNat ∧ b.toNat ≤ p.high)
    (same : n / 64 ^ p.missing = p.extended b) :
    String.utf8EncodeChar (Char.ofNat n) = p.bytes ++ b :: trailing p.missing n := by
  obtain ⟨front, last⟩ := h.extended_div_mod within
  have before : n / 64 ^ (p.missing + 1) = p.value := by
    rw [Nat.pow_succ, ← Nat.div_div_eq_div_mul, same, front]
  have next : n / 64 ^ p.missing % 64 + 128 = b.toNat := by rw [same, last]
  have spelled := h.spelled n before (next ▸ within.1) (next ▸ within.2)
  rw [trailing, next, UInt8.ofNat_toNat] at spelled
  exact spelled

theorem extend (h : p.Announces) (within : p.low ≤ b.toNat ∧ b.toNat ≤ p.high)
    (more : p.missing ≠ 0) : (p.extend b).Announces where
  low := Nat.le_refl _
  high := Nat.le_refl _
  spelled n same _ _ := by
    have missing : p.missing - 1 + 1 = p.missing := Nat.succ_pred more
    change n / 64 ^ (p.missing - 1 + 1) = p.extended b at same
    rw [missing] at same
    change _ = (p.bytes ++ [b]) ++ trailing (p.missing - 1 + 1) n
    rw [missing, List.append_assoc]
    exact h.spelled_append within same

theorem utf8EncodeChar_extended (h : p.Announces)
    (within : p.low ≤ b.toNat ∧ b.toNat ≤ p.high) (last : p.missing = 0) :
    String.utf8EncodeChar (Char.ofNat (p.extended b)) = p.bytes ++ [b] := by
  have same : p.extended b / 64 ^ p.missing = p.extended b := by
    rw [last, Nat.pow_zero, Nat.div_one]
  have spelled := h.spelled_append within same
  rw [last] at spelled
  exact spelled

end Announces

end Partial

/-! ### All bytes -/

/-- A byte that is read where no character has begun is a character, or begins one. -/
theorem cases_of_decodeFrom_none (h : decodeFrom offset none (b :: bytes) = .ok cs) :
    (b.toNat < 0x80 ∧ ∃ ds, decodeFrom (offset + 1) none bytes = .ok ds ∧
        cs = Char.ofNat b.toNat :: ds) ∨
      ∃ p, Partial.start? offset b = some p ∧ decodeFrom (offset + 1) (some p) bytes = .ok cs := by
  rw [decodeFrom] at h
  split at h
  case isTrue ascii =>
    obtain ⟨ds, later, rfl⟩ := map_eq_ok_iff.mp h
    exact .inl ⟨ascii, ds, later, rfl⟩
  case isFalse =>
    cases begins : Partial.start? offset b with
    | none =>
      rw [begins] at h
      cases h
    | some p =>
      rw [begins] at h
      exact .inr ⟨p, rfl, h⟩

/-- A byte that is read within a character lies within its bounds, and is the last of the
character or leaves more to come. -/
theorem cases_of_decodeFrom_some (h : decodeFrom offset (some p) (b :: bytes) = .ok cs) :
    (p.low ≤ b.toNat ∧ b.toNat ≤ p.high) ∧
      ((p.missing = 0 ∧ ∃ ds, decodeFrom (offset + 1) none bytes = .ok ds ∧
          cs = Char.ofNat (p.extended b) :: ds) ∨
        p.missing ≠ 0 ∧ decodeFrom (offset + 1) (some (p.extend b)) bytes = .ok cs) := by
  rw [decodeFrom] at h
  split at h
  case isFalse => cases h
  case isTrue within =>
    refine ⟨within, ?_⟩
    split at h
    case isTrue last =>
      obtain ⟨ds, later, rfl⟩ := map_eq_ok_iff.mp h
      exact .inl ⟨last, ds, later, rfl⟩
    case isFalse more => exact .inr ⟨more, h⟩

/-- What has been decoded is written with the bytes that were read, those of a character that had
begun among them. -/
theorem append_eq_of_decodeFrom {begun : Option Partial} (h : decodeFrom offset begun bytes = .ok cs)
    (announces : ∀ p ∈ begun, p.Announces) :
    begun.elim [] Partial.bytes ++ bytes = cs.flatMap String.utf8EncodeChar := by
  induction bytes generalizing offset begun cs with
  | nil =>
    cases begun with
    | none =>
      obtain rfl := Except.ok.inj h
      rfl
    | some p => cases h
  | cons b bytes ih =>
    cases begun with
    | none =>
      rcases cases_of_decodeFrom_none h with ⟨ascii, ds, later, rfl⟩ | ⟨p, begins, later⟩
      · have rest := ih later (by simp)
        rw [List.flatMap_cons, utf8EncodeChar_one ascii, ← rest]
        rfl
      · obtain ⟨first, announced⟩ := Partial.announces_of_start? begins
        have rest := ih later fun q same => Option.some.inj same ▸ announced
        rw [← rest, Option.elim_some, first]
        rfl
    | some p =>
      have announced := announces p rfl
      obtain ⟨within, ⟨last, ds, later, rfl⟩ | ⟨more, later⟩⟩ := cases_of_decodeFrom_some h
      · have rest := ih later (by simp)
        rw [List.flatMap_cons, announced.utf8EncodeChar_extended within last, ← rest]
        simp
      · have rest := ih later fun q same => Option.some.inj same ▸ announced.extend within more
        rw [← rest]
        simp [Partial.extend]

/-- Decoding accepts just the bytes of texts. -/
theorem decode_eq_ok_iff {text : String} : decode bytes = .ok text ↔ bytes = encode text := by
  constructor
  · intro decoded
    rw [decode] at decoded
    obtain ⟨cs, characters, rfl⟩ := map_eq_ok_iff.mp decoded
    rw [encode, String.toList_ofList, ← append_eq_of_decodeFrom characters (by simp)]
    rfl
  · rintro rfl
    exact decode_encode text

end LineBasic.Text
