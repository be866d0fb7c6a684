import LineBasic.Text.Utf8

/-!
# Decoding what was encoded

Every text is read back from its bytes. A character takes one to four bytes; in
each case its first byte announces the number of the others, and every byte lies
within the bounds that those before it set.

## Main results

* `decode_encode`: decoding the bytes of a text gives the text.
-/

namespace LineBasic.Text

private theorem toNat_ofNat_of_lt {n : Nat} (h : n < 256) : (UInt8.ofNat n).toNat = n := by
  simp [Nat.mod_eq_of_lt h]

variable {offset began value low high missing n : Nat} {read bytes : List UInt8} {b : UInt8}

theorem decodeFrom_ascii (h : n < 0x80) :
    decodeFrom offset none (UInt8.ofNat n :: bytes) =
      (decodeFrom (offset + 1) none bytes).map (Char.ofNat n :: ·) := by
  rw [decodeFrom, toNat_ofNat_of_lt (by omega), if_pos h]

theorem decodeFrom_first {p : Partial} (h : 0x80 ≤ b.toNat)
    (begins : Partial.start? offset b = some p) :
    decodeFrom offset none (b :: bytes) = decodeFrom (offset + 1) (some p) bytes := by
  rw [decodeFrom]
  simp only [begins, if_neg (Nat.not_lt.mpr h)]

theorem decodeFrom_next (h : n < 256) (atLeast : low ≤ n) (atMost : n ≤ high) :
    decodeFrom offset (some ⟨began, read, value, low, high, missing + 1⟩)
        (UInt8.ofNat n :: bytes) =
      decodeFrom (offset + 1)
        (some ⟨began, read ++ [UInt8.ofNat n], value * 64 + (n - 0x80), 0x80, 0xBF, missing⟩)
        bytes := by
  rw [decodeFrom]
  dsimp only [Partial.extend, Partial.extended]
  rw [toNat_ofNat_of_lt h, if_pos ⟨atLeast, atMost⟩, if_neg (Nat.succ_ne_zero missing)]
  rfl

theorem decodeFrom_last (h : n < 256) (atLeast : low ≤ n) (atMost : n ≤ high) :
    decodeFrom offset (some ⟨began, read, value, low, high, 0⟩) (UInt8.ofNat n :: bytes) =
      (decodeFrom (offset + 1) none bytes).map (Char.ofNat (value * 64 + (n - 0x80)) :: ·) := by
  rw [decodeFrom]
  dsimp only [Partial.extended]
  rw [toNat_ofNat_of_lt h, if_pos ⟨atLeast, atMost⟩, if_pos rfl]

/-- A character of two bytes. -/
theorem decodeFrom_two (more : 0x7F < n) (atMost : n ≤ 0x7FF) :
    decodeFrom offset none
        (UInt8.ofNat (n / 64 % 32 + 192) :: UInt8.ofNat (n % 64 + 128) :: bytes) =
      (decodeFrom (offset + 2) none bytes).map (Char.ofNat n :: ·) := by
  have first := toNat_ofNat_of_lt (show n / 64 % 32 + 192 < 256 by omega)
  have begins : Partial.start? offset (UInt8.ofNat (n / 64 % 32 + 192)) =
      some ⟨offset, [UInt8.ofNat (n / 64 % 32 + 192)], n / 64 % 32, 0x80, 0xBF, 0⟩ := by
    simp only [Partial.start?, first]
    rw [if_pos (by omega), Nat.add_sub_cancel]
  rw [decodeFrom_first (by omega) begins, decodeFrom_last (by omega) (by omega) (by omega)]
  rw [show n / 64 % 32 * 64 + (n % 64 + 128 - 128) = n by omega]

/-- A character of three bytes. The bounds on the second one exclude two bytes'
worth of code points below and the surrogates. -/
theorem decodeFrom_three (more : 0x7FF < n) (atMost : n ≤ 0xFFFF)
    (valid : n < 0xD800 ∨ 0xDFFF < n) :
    decodeFrom offset none
        (UInt8.ofNat (n / 4096 % 16 + 224) :: UInt8.ofNat (n / 64 % 64 + 128) ::
          UInt8.ofNat (n % 64 + 128) :: bytes) =
      (decodeFrom (offset + 3) none bytes).map (Char.ofNat n :: ·) := by
  have first := toNat_ofNat_of_lt (show n / 4096 % 16 + 224 < 256 by omega)
  obtain ⟨low, high, begins, atLeastLow, atMostHigh⟩ : ∃ low high,
      Partial.start? offset (UInt8.ofNat (n / 4096 % 16 + 224)) =
        some ⟨offset, [UInt8.ofNat (n / 4096 % 16 + 224)], n / 4096 % 16, low, high, 0 + 1⟩ ∧
      low ≤ n / 64 % 64 + 128 ∧ n / 64 % 64 + 128 ≤ high := by
    simp only [Partial.start?, first]
    rw [if_neg (by omega)]
    -- the bound on the second byte is raised for the lowest characters and cut for surrogates
    by_cases isLowest : n / 4096 % 16 = 0
    · rw [if_pos (by omega), isLowest]
      exact ⟨0xA0, 0xBF, rfl, by omega, by omega⟩
    rw [if_neg (by omega)]
    by_cases isSurrogate : n / 4096 % 16 = 0x0D
    · rw [if_pos (by omega), isSurrogate]
      exact ⟨0x80, 0x9F, rfl, by omega, by omega⟩
    rw [if_neg (by omega), if_pos (by omega), Nat.add_sub_cancel]
    exact ⟨0x80, 0xBF, rfl, by omega, by omega⟩
  rw [decodeFrom_first (by omega) begins, decodeFrom_next (by omega) atLeastLow atMostHigh,
    decodeFrom_last (by omega) (by omega) (by omega)]
  rw [show (n / 4096 % 16 * 64 + (n / 64 % 64 + 128 - 128)) * 64 + (n % 64 + 128 - 128) = n by
    omega]

/-- A character of four bytes. The bounds on the second one exclude the code
points that need fewer bytes and those past the last. -/
theorem decodeFrom_four (more : 0xFFFF < n) (atMost : n < 0x110000) :
    decodeFrom offset none
        (UInt8.ofNat (n / 262144 % 8 + 240) :: UInt8.ofNat (n / 4096 % 64 + 128) ::
          UInt8.ofNat (n / 64 % 64 + 128) :: UInt8.ofNat (n % 64 + 128) :: bytes) =
      (decodeFrom (offset + 4) none bytes).map (Char.ofNat n :: ·) := by
  have first := toNat_ofNat_of_lt (show n / 262144 % 8 + 240 < 256 by omega)
  obtain ⟨low, high, begins, atLeastLow, atMostHigh⟩ : ∃ low high,
      Partial.start? offset (UInt8.ofNat (n / 262144 % 8 + 240)) =
        some ⟨offset, [UInt8.ofNat (n / 262144 % 8 + 240)], n / 262144 % 8, low, high, 0 + 1 + 1⟩ ∧
      low ≤ n / 4096 % 64 + 128 ∧ n / 4096 % 64 + 128 ≤ high := by
    simp only [Partial.start?, first]
    rw [if_neg (by omega), if_neg (by omega), if_neg (by omega), if_neg (by omega)]
    -- the bound on the second byte keeps characters above three bytes and below the last
    by_cases isLowest : n / 262144 % 8 = 0
    · rw [if_pos (by omega), isLowest]
      exact ⟨0x90, 0xBF, rfl, by omega, by omega⟩
    rw [if_neg (by omega)]
    by_cases isHighest : n / 262144 % 8 = 4
    · rw [if_neg (by omega), if_pos (by omega), isHighest]
      exact ⟨0x80, 0x8F, rfl, by omega, by omega⟩
    rw [if_pos (by omega), Nat.add_sub_cancel]
    exact ⟨0x80, 0xBF, rfl, by omega, by omega⟩
  rw [decodeFrom_first (by omega) begins, decodeFrom_next (by omega) atLeastLow atMostHigh,
    decodeFrom_next (by omega) (by omega) (by omega),
    decodeFrom_last (by omega) (by omega) (by omega)]
  rw [show ((n / 262144 % 8 * 64 + (n / 4096 % 64 + 128 - 128)) * 64 +
    (n / 64 % 64 + 128 - 128)) * 64 + (n % 64 + 128 - 128) = n by omega]

/-- The bytes of a character are read as that character. -/
theorem decodeFrom_utf8EncodeChar (c : Char) :
    decodeFrom offset none (String.utf8EncodeChar c ++ bytes) =
      (decodeFrom (offset + (String.utf8EncodeChar c).length) none bytes).map (c :: ·) := by
  have valid : c.val.toNat < 0xD800 ∨ 0xDFFF < c.val.toNat ∧ c.val.toNat < 0x110000 := c.valid
  have back : Char.ofNat c.val.toNat = c := Char.ofNat_toNat c
  unfold String.utf8EncodeChar
  dsimp only
  generalize c.val.toNat = n at valid back
  subst back
  by_cases one : n ≤ 0x7F
  · rw [if_pos one]
    exact decodeFrom_ascii (by omega)
  rw [if_neg one]
  by_cases two : n ≤ 0x7FF
  · rw [if_pos two]
    exact decodeFrom_two (by omega) two
  rw [if_neg two]
  by_cases three : n ≤ 0xFFFF
  · rw [if_pos three]
    exact decodeFrom_three (by omega) three (by omega)
  rw [if_neg three]
  exact decodeFrom_four (by omega) (by omega)

theorem decodeFrom_flatMap_utf8EncodeChar (cs : List Char) :
    decodeFrom offset none (cs.flatMap String.utf8EncodeChar) = .ok cs := by
  induction cs generalizing offset with
  | nil => rfl
  | cons c cs ih =>
    rw [List.flatMap_cons, decodeFrom_utf8EncodeChar, ih]
    rfl

/-- Decoding the bytes of a text gives the text. -/
theorem decode_encode (text : String) : decode (encode text) = .ok text := by
  rw [decode, encode, decodeFrom_flatMap_utf8EncodeChar]
  exact congrArg Except.ok String.ofList_toList

end LineBasic.Text
