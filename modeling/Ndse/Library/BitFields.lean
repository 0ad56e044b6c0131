import Mathlib.Data.BitVec

/-!
# Fields of words

A word put together from fields is read back by masks and shifts.  The lemmas
here turn each of these into the extraction of a field, and the extraction from
an appended word into the extraction from one of its parts.
-/

namespace BitFields

variable {v w : Nat}

theorem getLsbD_append_high {high : BitVec v} {low : BitVec w} {index : Nat} (above : w ≤ index) :
    (high ++ low).getLsbD index = high.getLsbD (index - w) := by
  rw [BitVec.getLsbD_append, if_neg (not_lt.mpr above)]

theorem getLsbD_append_low {high : BitVec v} {low : BitVec w} {index : Nat} (below : index < w) :
    (high ++ low).getLsbD index = low.getLsbD index := by
  rw [BitVec.getLsbD_append, if_pos below]

/-- Two neighbouring bits. -/
theorem extractLsb'_two (word : BitVec w) (start : Nat) :
    word.extractLsb' start 2 =
      BitVec.ofBool (word.getLsbD (start + 1)) ++ BitVec.ofBool (word.getLsbD start) := by
  apply BitVec.eq_of_getLsbD_eq
  intro index inside
  match index with
  | 0 =>
      rw [BitVec.getLsbD_extractLsb', getLsbD_append_low (by decide), BitVec.getLsbD_ofBool]
      simp
  | 1 =>
      rw [BitVec.getLsbD_extractLsb', getLsbD_append_high (by decide), BitVec.getLsbD_ofBool]
      simp

/-- Three bits, the first one apart. -/
theorem extractLsb'_three (word : BitVec w) (start : Nat) :
    word.extractLsb' start 3 =
      BitVec.ofBool (word.getLsbD (start + 2)) ++ word.extractLsb' start 2 := by
  apply BitVec.eq_of_getLsbD_eq
  intro index inside
  match index with
  | 0 | 1 =>
      rw [BitVec.getLsbD_extractLsb', getLsbD_append_low (by decide), BitVec.getLsbD_extractLsb']
      simp
  | 2 =>
      rw [BitVec.getLsbD_extractLsb', getLsbD_append_high (by decide), BitVec.getLsbD_ofBool]
      simp

/-- Four bits by pairs. -/
theorem extractLsb'_four (word : BitVec w) (start : Nat) :
    word.extractLsb' start 4 = word.extractLsb' (start + 2) 2 ++ word.extractLsb' start 2 := by
  rw [BitVec.extractLsb'_append_extractLsb'_eq_extractLsb' rfl]

/-- A word is its bytes. -/
theorem append_bytes (word : BitVec 32) :
    word.extractLsb' 24 8 ++ word.extractLsb' 16 8 ++ word.extractLsb' 8 8 ++
      word.extractLsb' 0 8 = word := by
  have upper : word.extractLsb' 24 8 ++ word.extractLsb' 16 8 = word.extractLsb' 16 16 :=
    BitVec.extractLsb'_append_extractLsb'_eq_extractLsb' rfl
  have three : word.extractLsb' 16 16 ++ word.extractLsb' 8 8 = word.extractLsb' 8 24 :=
    BitVec.extractLsb'_append_extractLsb'_eq_extractLsb' rfl
  have all : word.extractLsb' 8 24 ++ word.extractLsb' 0 8 = word.extractLsb' 0 32 :=
    BitVec.extractLsb'_append_extractLsb'_eq_extractLsb' rfl
  rw [upper, three, all]
  exact BitVec.extractLsb'_eq_self

/-- A mask of ones, possibly shifted, keeps a field. -/
theorem and_mask (word : BitVec w) (start len : Nat) :
    word &&& BitVec.ofNat w ((2 ^ len - 1) <<< start) =
      (word.extractLsb' start len).setWidth w <<< start := by
  apply BitVec.eq_of_getLsbD_eq
  intro index inside
  simp only [BitVec.getLsbD_and, BitVec.getLsbD_ofNat, Nat.testBit_shiftLeft,
    Nat.testBit_two_pow_sub_one, BitVec.getLsbD_shiftLeft, BitVec.getLsbD_setWidth,
    BitVec.getLsbD_extractLsb']
  by_cases before : index < start
  · simp [before, not_le.mpr before]
  · have reached := not_lt.mp before
    have bound : index - start < w := by omega
    simp [before, inside, reached, bound, Bool.and_comm]

/-- The lowest field, by the mask of ones. -/
theorem and_ones (word : BitVec w) (len : Nat) :
    word &&& BitVec.ofNat w (2 ^ len - 1) = (word.extractLsb' 0 len).setWidth w := by
  have masked := and_mask word 0 len
  rwa [Nat.shiftLeft_zero, BitVec.shiftLeft_zero] at masked

/-- A signed field in front of zeros, by a shift to the top and back. -/
theorem sshiftRight_shiftLeft_setWidth {len zeros : Nat} (field : BitVec len)
    (fits : len + zeros ≤ w) :
    (field.setWidth w <<< (w - len)).sshiftRight (w - len - zeros) =
      (field ++ (0 : BitVec zeros)).signExtend w := by
  apply BitVec.eq_of_getLsbD_eq
  intro index inside
  simp only [BitVec.getLsbD_sshiftRight, BitVec.getLsbD_signExtend, BitVec.msb_eq_getLsbD_last,
    BitVec.getLsbD_append, BitVec.getLsbD_shiftLeft, BitVec.getLsbD_setWidth, inside, decide_true,
    Bool.true_and, decide_eq_false (not_le.mpr inside), Bool.not_false]
  by_cases inZeros : index < zeros
  · simp [inZeros, show index < len + zeros by omega,
      show w - len - zeros + index < w - len by omega,
      show w - len - zeros + index < w by omega]
  · by_cases inField : index < len + zeros
    · simp [inZeros, inField, show ¬ w - len - zeros + index < w - len by omega,
        show w - len - zeros + index < w by omega,
        show w - len - zeros + index - (w - len) = index - zeros by omega,
        show index - zeros < w by omega]
    · rcases Nat.eq_zero_or_pos len with rfl | positive
      · simp [show ¬ w - zeros + index < w by omega]
      · simp [inField, show ¬ w - len - zeros + index < w by omega,
          show ¬ len + zeros - 1 < zeros by omega, show len + zeros - 1 - zeros = len - 1 by omega,
          show w - 1 < w by omega, show ¬ w - 1 < w - len by omega,
          show w - 1 - (w - len) = len - 1 by omega, show len - 1 < w by omega]

/-- A halfword in a word: its fields. -/
theorem extractLsb'_setWidth {start len : Nat} (low : BitVec v) (inside : start + len ≤ v)
    (fits : v ≤ w) : (low.setWidth w).extractLsb' start len = low.extractLsb' start len := by
  apply BitVec.eq_of_getLsbD_eq
  intro index below
  simp only [BitVec.getLsbD_extractLsb', BitVec.getLsbD_setWidth]
  rw [decide_eq_true (show start + index < w by omega), Bool.true_and]

end BitFields
