import ShaderCatalog.Proofs.Except
import ShaderCatalog.Text.Utf8

namespace ShaderCatalog

/-! UTF-8 is read back: the bytes of a text are decoded as the text, and no others are. -/

namespace Utf8

theorem toNat_ofNat {n : Nat} (small : n < 0x100) : (UInt8.ofNat n).toNat = n :=
  Nat.mod_eq_of_lt small

/-! What the first byte announces. It narrows the second one where other bytes would tell a
character that fewer bytes are enough for, or none at all. -/

section

variable {n : Nat}

theorem first_of_one (small : n < 0x80) :
    first (UInt8.ofNat n) = some (.inl (Char.ofNat n)) := by
  rw [first, toNat_ofNat (by omega), if_pos small]

theorem first_of_two (large : 0x80 ≤ n) (small : n < 0x800) :
    first (UInt8.ofNat (0xC0 + n / 0x40)) =
      some (.inr ⟨UInt8.ofNat (0xC0 + n / 0x40), 1, n / 0x40, 0, 0x80, 0xBF⟩) := by
  rw [first, toNat_ofNat (by omega), if_neg (by omega), if_neg (by omega), if_pos (by omega),
    Nat.add_sub_cancel_left]

theorem first_of_three (large : 0x800 ≤ n) (small : n < 0x10000)
    (noSurrogate : n < 0xD800 ∨ 0xDFFF < n) :
    ∃ low high, first (UInt8.ofNat (0xE0 + n / 0x1000)) =
        some (.inr ⟨UInt8.ofNat (0xE0 + n / 0x1000), 1, n / 0x1000, 1, low, high⟩) ∧
      low ≤ 0x80 + n / 0x40 % 0x40 ∧ 0x80 + n / 0x40 % 0x40 ≤ high := by
  refine ⟨if 0xE0 + n / 0x1000 = 0xE0 then 0xA0 else 0x80,
    if 0xE0 + n / 0x1000 = 0xED then 0x9F else 0xBF, ?_, ?_, ?_⟩
  · rw [first, toNat_ofNat (by omega), if_neg (by omega), if_neg (by omega), if_neg (by omega),
      if_pos (by omega), Nat.add_sub_cancel_left]
  · split <;> omega
  · split <;> omega

theorem first_of_four (large : 0x10000 ≤ n) (small : n < 0x110000) :
    ∃ low high, first (UInt8.ofNat (0xF0 + n / 0x40000)) =
        some (.inr ⟨UInt8.ofNat (0xF0 + n / 0x40000), 1, n / 0x40000, 2, low, high⟩) ∧
      low ≤ 0x80 + n / 0x1000 % 0x40 ∧ 0x80 + n / 0x1000 % 0x40 ≤ high := by
  refine ⟨if 0xF0 + n / 0x40000 = 0xF0 then 0x90 else 0x80,
    if 0xF0 + n / 0x40000 = 0xF4 then 0x8F else 0xBF, ?_, ?_, ?_⟩
  · rw [first, toNat_ofNat (by omega), if_neg (by omega), if_neg (by omega), if_neg (by omega),
      if_neg (by omega), if_pos (by omega), Nat.add_sub_cancel_left]
  · split <;> omega
  · split <;> omega

end

section

variable {position : Nat} {byte : UInt8} {rest : Bytes}

theorem decodeFrom_of_character {c : Char} (announced : first byte = some (.inl c)) :
    decodeFrom position none (byte :: rest) =
      (decodeFrom (position + 1) none rest).map (c :: ·) := by
  rw [decodeFrom, announced]

theorem decodeFrom_of_pending {pending : Pending} (announced : first byte = some (.inr pending)) :
    decodeFrom position none (byte :: rest) =
      decodeFrom (position + 1) (some pending) rest := by
  rw [decodeFrom, announced]

variable {read value owed low high digit : Nat} (small : digit < 0x40)
  (atLeast : low ≤ 0x80 + digit) (atMost : 0x80 + digit ≤ high)

include small atLeast atMost

theorem decodeFrom_of_digit :
    decodeFrom position (some ⟨byte, read, value, owed + 1, low, high⟩)
        (UInt8.ofNat (0x80 + digit) :: rest) =
      decodeFrom (position + 1)
        (some ⟨byte, read + 1, value * 0x40 + digit, owed, 0x80, 0xBF⟩) rest := by
  rw [decodeFrom, Pending.next, toNat_ofNat (by omega), if_pos ⟨atLeast, atMost⟩,
    Nat.add_sub_cancel_left]

theorem decodeFrom_of_lastDigit :
    decodeFrom position (some ⟨byte, read, value, 0, low, high⟩)
        (UInt8.ofNat (0x80 + digit) :: rest) =
      (decodeFrom (position + 1) none rest).map (Char.ofNat (value * 0x40 + digit) :: ·) := by
  rw [decodeFrom, Pending.next, toNat_ofNat (by omega), if_pos ⟨atLeast, atMost⟩,
    Nat.add_sub_cancel_left]

end

/-- The bytes of a character are decoded as the character, whatever follows them. -/
theorem decodeFrom_encodeChar_append (c : Char) (position : Nat) (rest : Bytes) :
    ∃ next, decodeFrom position none (encodeChar c ++ rest) =
      (decodeFrom next none rest).map (c :: ·) := by
  have isCharacter : c.toNat < 0xD800 ∨ 0xDFFF < c.toNat ∧ c.toNat < 0x110000 := c.valid
  have digitSmall (n : Nat) : n % 0x40 < 0x40 := Nat.mod_lt n (by decide)
  have inRange (n : Nat) : 0x80 + n % 0x40 ≤ 0xBF := by omega
  rw [encodeChar_eq]
  split
  next small =>
    refine ⟨position + 1, ?_⟩
    rw [List.singleton_append, decodeFrom_of_character (first_of_one small), Char.ofNat_toNat]
  next large =>
    split
    next small =>
      refine ⟨position + 2, ?_⟩
      have value : c.toNat / 0x40 * 0x40 + c.toNat % 0x40 = c.toNat := by omega
      rw [List.cons_append, List.singleton_append,
        decodeFrom_of_pending (first_of_two (by omega) small),
        decodeFrom_of_lastDigit (digitSmall _) (by omega) (inRange _), value, Char.ofNat_toNat]
    next larger =>
      split
      next small =>
        obtain ⟨low, high, announced, atLeast, atMost⟩ :=
          first_of_three (by omega) small (by omega)
        refine ⟨position + 3, ?_⟩
        have value : (c.toNat / 0x1000 * 0x40 + c.toNat / 0x40 % 0x40) * 0x40 + c.toNat % 0x40 =
            c.toNat := by omega
        rw [List.cons_append, List.cons_append, List.singleton_append,
          decodeFrom_of_pending announced, decodeFrom_of_digit (digitSmall _) atLeast atMost,
          decodeFrom_of_lastDigit (digitSmall _) (by omega) (inRange _), value, Char.ofNat_toNat]
      next largest =>
        obtain ⟨low, high, announced, atLeast, atMost⟩ :=
          first_of_four (n := c.toNat) (by omega) (by omega)
        refine ⟨position + 4, ?_⟩
        have value : ((c.toNat / 0x40000 * 0x40 + c.toNat / 0x1000 % 0x40) * 0x40 +
            c.toNat / 0x40 % 0x40) * 0x40 + c.toNat % 0x40 = c.toNat := by omega
        rw [List.cons_append, List.cons_append, List.cons_append, List.singleton_append,
          decodeFrom_of_pending announced, decodeFrom_of_digit (digitSmall _) atLeast atMost,
          decodeFrom_of_digit (digitSmall _) (by omega) (inRange _),
          decodeFrom_of_lastDigit (digitSmall _) (by omega) (inRange _), value, Char.ofNat_toNat]

theorem decodeFrom_encode (text : Text) (position : Nat) :
    decodeFrom position none (encode text) = .ok text := by
  induction text generalizing position with
  | nil => rfl
  | cons c text induction =>
      obtain ⟨next, decoded⟩ := decodeFrom_encodeChar_append c position (encode text)
      rw [encode, List.flatMap_cons]
      exact decoded.trans (by rw [induction next]; rfl)

theorem decode_encode (text : Text) : decode (encode text) = .ok text :=
  decodeFrom_encode text 0

/-! What is decoded is what was encoded, so that no other bytes are accepted. -/

inductive Announces (byte : UInt8) : Option (Char ⊕ Pending) → Prop where
  | nothing : Announces byte none
  | one (small : byte.toNat < 0x80) : Announces byte (some (.inl (Char.ofNat byte.toNat)))
  | two (large : 0xC2 ≤ byte.toNat) (small : byte.toNat < 0xE0) :
      Announces byte (some (.inr ⟨byte, 1, byte.toNat - 0xC0, 0, 0x80, 0xBF⟩))
  | three {low high : Nat} (large : 0xE0 ≤ byte.toNat) (small : byte.toNat < 0xF0)
      (atLeast : 0x80 ≤ low) (atMost : high ≤ 0xBF) (isLong : byte.toNat = 0xE0 → low = 0xA0)
      (noSurrogate : byte.toNat = 0xED → high = 0x9F) :
      Announces byte (some (.inr ⟨byte, 1, byte.toNat - 0xE0, 1, low, high⟩))
  | four {low high : Nat} (large : 0xF0 ≤ byte.toNat) (small : byte.toNat < 0xF5)
      (atLeast : 0x80 ≤ low) (atMost : high ≤ 0xBF) (isLong : byte.toNat = 0xF0 → low = 0x90)
      (inRange : byte.toNat = 0xF4 → high = 0x8F) :
      Announces byte (some (.inr ⟨byte, 1, byte.toNat - 0xF0, 2, low, high⟩))

theorem announces_first (byte : UInt8) : Announces byte (first byte) := by
  simp only [first]
  split
  next small => exact .one small
  next =>
    split
    next => exact .nothing
    next large =>
      split
      next small => exact .two (Nat.le_of_not_lt large) small
      next large =>
        split
        next small =>
          exact .three (Nat.le_of_not_lt large) small (by split <;> omega) (by split <;> omega)
            (fun same => if_pos same) (fun same => if_pos same)
        next large =>
          split
          next small =>
            exact .four (Nat.le_of_not_lt large) small (by split <;> omega) (by split <;> omega)
              (fun same => if_pos same) (fun same => if_pos same)
          next => exact .nothing

section

variable {position : Nat} {byte : UInt8} {bytes : Bytes} {text : Text}

theorem exists_digit_of_decodeFrom {read value owed low high : Nat}
    (decoded : decodeFrom position (some ⟨byte, read, value, owed, low, high⟩) bytes = .ok text)
    (atLeast : 0x80 ≤ low) (atMost : high ≤ 0xBF) :
    ∃ digit rest, bytes = UInt8.ofNat (0x80 + digit) :: rest ∧ digit < 0x40 ∧
      low ≤ 0x80 + digit ∧ 0x80 + digit ≤ high := by
  cases bytes with
  | nil => cases decoded
  | cons second rest =>
      rw [decodeFrom, Pending.next] at decoded
      by_cases fits : low ≤ second.toNat ∧ second.toNat ≤ high
      · have split : 0x80 + (second.toNat - 0x80) = second.toNat := by omega
        refine ⟨second.toNat - 0x80, rest, ?_, by omega, by omega, by omega⟩
        rw [split, UInt8.ofNat_toNat]
      · simp [fits] at decoded

theorem toNat_charOfNat {n : Nat} (valid : n.isValidChar) : (Char.ofNat n).toNat = n := by
  rw [Char.ofNat, dif_pos valid]
  rfl

theorem exists_encodeChar_of_decodeFrom
    (decoded : decodeFrom position none (byte :: bytes) = .ok text) :
    ∃ c others next rest, text = c :: others ∧ byte :: bytes = encodeChar c ++ rest ∧
      decodeFrom next none rest = .ok others := by
  have announces := announces_first byte
  generalize announced : first byte = content at announces
  cases announces with
  | nothing => simp [decodeFrom, announced] at decoded
  | one small =>
      rw [decodeFrom_of_character announced] at decoded
      obtain ⟨others, rest, rfl⟩ := map_eq_ok_iff.mp decoded
      refine ⟨_, others, _, bytes, rfl, ?_, rest⟩
      rw [encodeChar_eq, toNat_charOfNat (.inl (by omega)), if_pos small,
        UInt8.ofNat_toNat, List.singleton_append]
  | two large small =>
      rw [decodeFrom_of_pending announced] at decoded
      obtain ⟨digit, bytes, rfl, digitSmall, above, below⟩ :=
        exists_digit_of_decodeFrom decoded (by omega) (by omega)
      rw [decodeFrom_of_lastDigit digitSmall above below] at decoded
      obtain ⟨others, rest, rfl⟩ := map_eq_ok_iff.mp decoded
      refine ⟨_, others, _, bytes, rfl, ?_, rest⟩
      have lead : 0xC0 + ((byte.toNat - 0xC0) * 0x40 + digit) / 0x40 = byte.toNat := by omega
      have digits : ((byte.toNat - 0xC0) * 0x40 + digit) % 0x40 = digit := by omega
      rw [encodeChar_eq, toNat_charOfNat (.inl (by omega)), if_neg (by omega), if_pos (by omega),
        lead, digits, UInt8.ofNat_toNat, List.cons_append, List.singleton_append]
  | three large small atLeast atMost isLong noSurrogate =>
      rw [decodeFrom_of_pending announced] at decoded
      obtain ⟨digit, bytes, rfl, digitSmall, above, below⟩ :=
        exists_digit_of_decodeFrom decoded atLeast atMost
      rw [decodeFrom_of_digit digitSmall above below] at decoded
      obtain ⟨last, bytes, rfl, lastSmall, lastAbove, lastBelow⟩ :=
        exists_digit_of_decodeFrom decoded (by omega) (by omega)
      rw [decodeFrom_of_lastDigit lastSmall lastAbove lastBelow] at decoded
      obtain ⟨others, rest, rfl⟩ := map_eq_ok_iff.mp decoded
      refine ⟨_, others, _, bytes, rfl, ?_, rest⟩
      -- The narrowed second byte rules out numbers of fewer bytes and surrogates.
      generalize value : ((byte.toNat - 0xE0) * 0x40 + digit) * 0x40 + last = n
      have valid : n.isValidChar := by unfold Nat.isValidChar; omega
      have lead : 0xE0 + n / 0x1000 = byte.toNat := by omega
      have digits : n / 0x40 % 0x40 = digit ∧ n % 0x40 = last := by omega
      rw [encodeChar_eq, toNat_charOfNat valid, if_neg (by omega), if_neg (by omega),
        if_pos (by omega), lead, digits.1, digits.2, UInt8.ofNat_toNat]
      rfl
  | four large small atLeast atMost isLong inRange =>
      rw [decodeFrom_of_pending announced] at decoded
      obtain ⟨digit, bytes, rfl, digitSmall, above, below⟩ :=
        exists_digit_of_decodeFrom decoded atLeast atMost
      rw [decodeFrom_of_digit digitSmall above below] at decoded
      obtain ⟨next, bytes, rfl, nextSmall, nextAbove, nextBelow⟩ :=
        exists_digit_of_decodeFrom decoded (by omega) (by omega)
      rw [decodeFrom_of_digit nextSmall nextAbove nextBelow] at decoded
      obtain ⟨last, bytes, rfl, lastSmall, lastAbove, lastBelow⟩ :=
        exists_digit_of_decodeFrom decoded (by omega) (by omega)
      rw [decodeFrom_of_lastDigit lastSmall lastAbove lastBelow] at decoded
      obtain ⟨others, rest, rfl⟩ := map_eq_ok_iff.mp decoded
      refine ⟨_, others, _, bytes, rfl, ?_, rest⟩
      generalize value : (((byte.toNat - 0xF0) * 0x40 + digit) * 0x40 + next) * 0x40 + last = n
      have valid : n.isValidChar := by unfold Nat.isValidChar; omega
      have lead : 0xF0 + n / 0x40000 = byte.toNat := by omega
      have digits : n / 0x1000 % 0x40 = digit ∧ n / 0x40 % 0x40 = next ∧ n % 0x40 = last := by
        omega
      rw [encodeChar_eq, toNat_charOfNat valid, if_neg (by omega), if_neg (by omega),
        if_neg (by omega), lead, digits.1, digits.2.1, digits.2.2, UInt8.ofNat_toNat]
      rfl

end

theorem encode_of_decodeFrom {position : Nat} {bytes : Bytes} {text : Text}
    (decoded : decodeFrom position none bytes = .ok text) : encode text = bytes := by
  induction text generalizing position bytes with
  | nil =>
      cases bytes with
      | nil => rfl
      | cons byte bytes =>
          obtain ⟨c, others, next, rest, none, -⟩ := exists_encodeChar_of_decodeFrom decoded
          cases none
  | cons c text induction =>
      cases bytes with
      | nil => cases decoded
      | cons byte bytes =>
          obtain ⟨_, _, next, rest, same, split, onwards⟩ :=
            exists_encodeChar_of_decodeFrom decoded
          cases same
          rw [split, ← induction onwards]
          rfl

theorem decode_eq_ok_iff {bytes : Bytes} {text : Text} :
    decode bytes = .ok text ↔ encode text = bytes := by
  constructor
  · exact encode_of_decodeFrom
  · rintro rfl
    exact decode_encode text

end Utf8

end ShaderCatalog
