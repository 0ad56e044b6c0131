import Mathlib.Data.BitVec

/-!
# Shifts that agree

When two shifts of a word by different amounts give the same word, in terms of
the bits of the word.
-/

namespace BitShifts

variable {width : Nat} {word : BitVec width}

/-- A word that a shift does not change is zero, since its lowest bits are. -/
theorem eq_shiftLeft_iff {amount : Nat} (positive : 0 < amount) :
    word = word <<< amount ↔ word = BitVec.ofNat width 0 := by
  constructor
  · intro same
    have zeros (bit : Nat) : word.getLsbD bit = false := by
      induction bit using Nat.strong_induction_on with
      | h bit ih =>
          rw [same, BitVec.getLsbD_shiftLeft]
          by_cases low : bit < amount
          · simp [low]
          · simp [ih (bit - amount) (by omega)]
    apply BitVec.eq_of_getLsbD_eq
    intro bit inside
    rw [zeros bit]
    simp
  · rintro rfl
    simp

theorem eq_ushiftRight_iff {amount : Nat} (positive : 0 < amount) :
    word = word >>> amount ↔ word = BitVec.ofNat width 0 := by
  constructor
  · intro same
    have zeros (rest bit : Nat) (above : width ≤ bit + rest) : word.getLsbD bit = false := by
      induction rest generalizing bit with
      | zero => exact BitVec.getLsbD_of_ge _ _ above
      | succ rest ih =>
          rw [same, BitVec.getLsbD_ushiftRight]
          exact ih (amount + bit) (by omega)
    apply BitVec.eq_of_getLsbD_eq
    intro bit inside
    rw [zeros width bit (by omega)]
    simp
  · rintro rfl
    simp

theorem shiftLeft_eq_iff {first second : Nat} (less : first < second) :
    word <<< first = word <<< second ↔ word <<< first = BitVec.ofNat width 0 := by
  rw [← @eq_shiftLeft_iff _ (word <<< first) _ (Nat.sub_pos_of_lt less),
    ← BitVec.shiftLeft_add, Nat.add_sub_cancel' less.le]

theorem ushiftRight_eq_iff {first second : Nat} (less : first < second) :
    word >>> first = word >>> second ↔ word >>> first = BitVec.ofNat width 0 := by
  rw [← @eq_ushiftRight_iff _ (word >>> first) _ (Nat.sub_pos_of_lt less),
    ← BitVec.shiftRight_add, Nat.add_sub_cancel' less.le]

theorem shiftLeft_eq_zero_iff {amount : Nat} :
    word <<< amount = BitVec.ofNat width 0 ↔ ∀ bit < width - amount, word.getLsbD bit = false := by
  constructor
  · intro zero bit low
    have read := congrArg (BitVec.getLsbD · (bit + amount)) zero
    rwa [BitVec.getLsbD_shiftLeft, Nat.add_sub_cancel, BitVec.getLsbD_zero,
      decide_eq_true (by omega), decide_eq_false (by omega), Bool.not_false, Bool.true_and,
      Bool.true_and] at read
  · intro zeros
    apply BitVec.eq_of_getLsbD_eq
    intro bit inside
    rw [BitVec.getLsbD_shiftLeft]
    by_cases low : bit < amount
    · simp [low]
    · simp [zeros (bit - amount) (by omega)]

theorem ushiftRight_eq_zero_iff {amount : Nat} :
    word >>> amount = BitVec.ofNat width 0 ↔
      ∀ bit < width, amount ≤ bit → word.getLsbD bit = false := by
  constructor
  · intro zero bit inside high
    have read := congrArg (BitVec.getLsbD · (bit - amount)) zero
    simpa [Nat.add_sub_cancel' high] using read
  · intro zeros
    apply BitVec.eq_of_getLsbD_eq
    intro bit inside
    rw [BitVec.getLsbD_ushiftRight]
    by_cases high : amount + bit < width
    · simp [zeros (amount + bit) high (by omega)]
    · simp [BitVec.getLsbD_of_ge _ _ (not_lt.mp high)]

theorem getLsbD_sshiftRight_width {bit : Nat} (inside : bit < width) :
    (word.sshiftRight width).getLsbD bit = word.msb := by
  rw [BitVec.getLsbD_sshiftRight, if_neg (by omega), decide_eq_false (by omega)]
  rfl

/-- A signed shift that leaves nothing but the sign. -/
theorem sshiftRight_eq_fill_iff {amount : Nat} :
    word.sshiftRight width = word.sshiftRight amount ↔
      ∀ bit < width, amount ≤ bit → word.getLsbD bit = word.msb := by
  constructor
  · intro same bit inside high
    have read := congrArg (BitVec.getLsbD · (bit - amount)) same
    rw [getLsbD_sshiftRight_width (by omega), BitVec.getLsbD_sshiftRight,
      Nat.add_sub_cancel' high, if_pos inside, decide_eq_false (by omega)] at read
    exact read.symm
  · intro signs
    apply BitVec.eq_of_getLsbD_eq
    intro bit inside
    rw [getLsbD_sshiftRight_width inside, BitVec.getLsbD_sshiftRight, decide_eq_false (by omega)]
    by_cases high : amount + bit < width
    · rw [if_pos high, signs _ high (by omega)]
      rfl
    · rw [if_neg high]
      rfl

end BitShifts
