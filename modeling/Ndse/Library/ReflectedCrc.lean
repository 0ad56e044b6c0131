import Mathlib.Data.BitVec
import Mathlib.Logic.Function.Iterate

/-!
# Reflected cyclic redundancy checks

The check of a byte string is computed bit by bit, least significant bit first:
each step shifts the register and adds the polynomial if a one falls out.  The
steps are linear, so eight of them on the low byte of the register can be looked
up in a table, and they lose nothing, so the check tells byte strings apart that
differ in no more neighbouring bytes than the register holds.
-/

namespace ReflectedCrc

variable {w : Nat} (polynomial : BitVec w)

def bitStep (crc : BitVec w) : BitVec w :=
  if crc.getLsbD 0 then crc >>> 1 ^^^ polynomial else crc >>> 1

/-- A byte is added to the low end of the register. -/
def byteStep (crc : BitVec w) (byte : BitVec 8) : BitVec w :=
  (bitStep polynomial)^[8] (crc ^^^ byte.setWidth w)

/-- The check of some bytes from an initial register on. -/
def check (crc : BitVec w) (bytes : List (BitVec 8)) : BitVec w :=
  bytes.foldl (byteStep polynomial) crc

@[simp]
theorem check_nil (crc : BitVec w) : check polynomial crc [] = crc := rfl

@[simp]
theorem check_append (crc : BitVec w) (first second : List (BitVec 8)) :
    check polynomial crc (first ++ second) =
      check polynomial (check polynomial crc first) second :=
  List.foldl_append

/-! ### Linearity -/

theorem bitStep_xor (one other : BitVec w) :
    bitStep polynomial (one ^^^ other) = bitStep polynomial one ^^^ bitStep polynomial other := by
  have cancel (a b : BitVec w) : a ^^^ polynomial ^^^ (b ^^^ polynomial) = a ^^^ b := by
    rw [BitVec.xor_assoc, BitVec.xor_comm b, ← BitVec.xor_assoc polynomial, BitVec.xor_self,
      BitVec.zero_xor]
  rw [bitStep, bitStep, bitStep, BitVec.getLsbD_xor, BitVec.ushiftRight_xor_distrib]
  cases one.getLsbD 0 <;> cases other.getLsbD 0
  · rfl
  · exact BitVec.xor_assoc _ _ _
  · change one >>> 1 ^^^ other >>> 1 ^^^ polynomial = one >>> 1 ^^^ polynomial ^^^ other >>> 1
    rw [BitVec.xor_assoc, BitVec.xor_comm (other >>> 1), ← BitVec.xor_assoc]
  · exact (cancel _ _).symm

theorem iterate_bitStep_xor (count : Nat) (one other : BitVec w) :
    (bitStep polynomial)^[count] (one ^^^ other) =
      (bitStep polynomial)^[count] one ^^^ (bitStep polynomial)^[count] other := by
  induction count generalizing one other with
  | zero => rfl
  | succ count ih =>
      rw [Function.iterate_succ_apply, Function.iterate_succ_apply, Function.iterate_succ_apply,
        bitStep_xor, ih]

/-- Zeros that fall out leave a shift. -/
theorem iterate_bitStep_of_low_zero (count : Nat) {crc : BitVec w}
    (zero : ∀ bit < count, crc.getLsbD bit = false) :
    (bitStep polynomial)^[count] crc = crc >>> count := by
  induction count generalizing crc with
  | zero => exact (BitVec.ushiftRight_zero crc).symm
  | succ count ih =>
      have first : bitStep polynomial crc = crc >>> 1 := by
        rw [bitStep, zero 0 (Nat.succ_pos count)]
        rfl
      rw [Function.iterate_succ_apply, first, ih, ← BitVec.shiftRight_add, Nat.add_comm]
      intro bit inside
      rw [BitVec.getLsbD_ushiftRight]
      exact zero (1 + bit) (by omega)

/-! ### Tables -/

/-- The table has the eight steps of every byte. -/
def TableFor (table : BitVec 8 → BitVec w) : Prop :=
  ∀ byte : BitVec 8, table byte = (bitStep polynomial)^[8] (byte.setWidth w)

/-- The step of a byte with the table. -/
def tableStep (table : BitVec 8 → BitVec w) (crc : BitVec w) (byte : BitVec 8) : BitVec w :=
  crc >>> 8 ^^^ table ((crc ^^^ byte.setWidth w).setWidth 8)

variable {polynomial}

/-- A register is its low byte and what is above it. -/
theorem split_low_byte (crc : BitVec w) :
    crc = crc >>> 8 <<< 8 ^^^ (crc.setWidth 8).setWidth w := by
  apply BitVec.eq_of_getLsbD_eq
  intro bit inside
  rw [BitVec.getLsbD_xor, BitVec.getLsbD_shiftLeft, BitVec.getLsbD_ushiftRight,
    BitVec.getLsbD_setWidth, BitVec.getLsbD_setWidth]
  by_cases low : bit < 8
  · simp [low, inside]
  · simp [low, inside, show 8 + (bit - 8) = bit by omega]

theorem TableFor.tableStep_eq {table : BitVec 8 → BitVec w} (right : TableFor polynomial table)
    (crc : BitVec w) (byte : BitVec 8) :
    tableStep table crc byte = byteStep polynomial crc byte := by
  have high : (crc ^^^ byte.setWidth w) >>> 8 = crc >>> 8 := by
    apply BitVec.eq_of_getLsbD_eq
    intro bit _
    rw [BitVec.getLsbD_ushiftRight, BitVec.getLsbD_ushiftRight, BitVec.getLsbD_xor,
      BitVec.getLsbD_setWidth, BitVec.getLsbD_of_ge byte (8 + bit) (by omega), Bool.and_false,
      Bool.xor_false]
  have shifted : (bitStep polynomial)^[8] (crc >>> 8 <<< 8) = crc >>> 8 := by
    rw [iterate_bitStep_of_low_zero]
    · apply BitVec.eq_of_getLsbD_eq
      intro bit inside
      rw [BitVec.getLsbD_ushiftRight, BitVec.getLsbD_shiftLeft, BitVec.getLsbD_ushiftRight,
        BitVec.getLsbD_ushiftRight]
      by_cases within : 8 + bit < w
      · simp [within]
      · simp [BitVec.getLsbD_of_ge crc (8 + bit) (by omega)]
    · intro bit low
      rw [BitVec.getLsbD_shiftLeft, decide_eq_true low, Bool.not_true, Bool.and_false,
        Bool.false_and]
  have split := congrArg (bitStep polynomial)^[8] (split_low_byte (crc ^^^ byte.setWidth w))
  rw [tableStep, byteStep, split, iterate_bitStep_xor, high, shifted, right]

/-! ### Errors -/

/-- The polynomial has the highest bit, which no shift leaves. -/
def Monic (polynomial : BitVec w) : Prop := polynomial.getLsbD (w - 1) = true

theorem eq_zero_of_bitStep (monic : Monic polynomial) {crc : BitVec w}
    (zero : bitStep polynomial crc = 0#w) : crc = 0#w := by
  have positive : 0 < w := by
    by_contra none
    rw [Monic, BitVec.getLsbD_of_ge _ _ (by omega)] at monic
    cases monic
  rw [bitStep] at zero
  cases low : crc.getLsbD 0 with
  | true =>
      rw [if_pos low] at zero
      have top := congrArg (·.getLsbD (w - 1)) zero
      simp only [BitVec.getLsbD_xor, BitVec.getLsbD_ushiftRight, BitVec.getLsbD_zero] at top
      rw [BitVec.getLsbD_of_ge crc _ (by omega), show polynomial.getLsbD (w - 1) = true from monic]
        at top
      cases top
  | false =>
      rw [low, if_neg Bool.false_ne_true] at zero
      apply BitVec.eq_of_getLsbD_eq
      intro bit _
      cases bit with
      | zero => rw [low, BitVec.getLsbD_zero]
      | succ bit =>
          have above := congrArg (·.getLsbD bit) zero
          simp only [BitVec.getLsbD_ushiftRight, BitVec.getLsbD_zero] at above
          rw [Nat.add_comm, above, BitVec.getLsbD_zero]

theorem bitStep_injective (monic : Monic polynomial) :
    Function.Injective (bitStep polynomial) := by
  intro one other same
  have zero : bitStep polynomial (one ^^^ other) = 0#w := by
    rw [bitStep_xor, same, BitVec.xor_self]
  exact BitVec.xor_eq_zero_iff.mp (eq_zero_of_bitStep monic zero)

theorem byteStep_injective (monic : Monic polynomial) (byte : BitVec 8) :
    Function.Injective (byteStep polynomial · byte) := by
  intro one other same
  exact BitVec.xor_left_inj _ |>.mp ((bitStep_injective monic).iterate 8 same)

theorem check_injective (monic : Monic polynomial) (bytes : List (BitVec 8)) :
    Function.Injective (check polynomial · bytes) := by
  induction bytes with
  | nil => exact fun _ _ same => same
  | cons byte bytes ih => exact fun _ _ same => byteStep_injective monic byte (ih same)

/-- Registers whose steps of a byte differ in low bits only. -/
theorem xor_eq_shiftLeft (monic : Monic polynomial) {one other : BitVec w} {count : Nat}
    (room : count + 8 ≤ w)
    (small : ∀ bit, count ≤ bit → ((bitStep polynomial)^[8] one ^^^
      (bitStep polynomial)^[8] other).getLsbD bit = false) :
    one ^^^ other =
      ((bitStep polynomial)^[8] one ^^^ (bitStep polynomial)^[8] other) <<< 8 := by
  rw [← iterate_bitStep_xor] at small ⊢
  generalize one ^^^ other = difference at small ⊢
  have shifted : (bitStep polynomial)^[8] ((bitStep polynomial)^[8] difference <<< 8) =
      (bitStep polynomial)^[8] difference := by
    generalize (bitStep polynomial)^[8] difference = lower at small ⊢
    rw [iterate_bitStep_of_low_zero]
    · apply BitVec.eq_of_getLsbD_eq
      intro bit _
      rw [BitVec.getLsbD_ushiftRight, BitVec.getLsbD_shiftLeft, Nat.add_sub_cancel_left]
      by_cases low : bit < count
      · rw [decide_eq_true (show 8 + bit < w by omega),
          decide_eq_false (show ¬8 + bit < 8 by omega)]
        rfl
      · rw [small bit (not_lt.mp low), Bool.and_false]
    · intro bit low
      rw [BitVec.getLsbD_shiftLeft, decide_eq_true low, Bool.not_true, Bool.and_false,
        Bool.false_and]
  exact (bitStep_injective monic).iterate 8 shifted.symm

/-- A few bytes only make up for a difference in as many low bits. -/
theorem low_of_check_eq (monic : Monic polynomial) {xs ys : List (BitVec 8)} {one other : BitVec w}
    (length : xs.length = ys.length) (short : 8 * xs.length ≤ w)
    (same : check polynomial one xs = check polynomial other ys) :
    ∀ bit, 8 * xs.length ≤ bit → (one ^^^ other).getLsbD bit = false := by
  induction xs generalizing ys one other with
  | nil =>
      obtain rfl := List.length_eq_zero_iff.mp length.symm
      rw [check_nil, check_nil] at same
      rw [same, BitVec.xor_self]
      exact fun _ _ => BitVec.getLsbD_zero
  | cons x xs ih =>
      cases ys with
      | nil => cases length
      | cons y ys =>
          rw [List.length_cons] at short ⊢
          have later := ih (Nat.succ.inj length) (by omega) same
          have shifted := xor_eq_shiftLeft monic (by omega) later
          intro bit above
          have here := congrArg (·.getLsbD bit) shifted
          have behind := later (bit - 8) (by omega)
          simp only [BitVec.getLsbD_xor, BitVec.getLsbD_shiftLeft, BitVec.getLsbD_setWidth,
            BitVec.getLsbD_of_ge x bit (by omega), BitVec.getLsbD_of_ge y bit (by omega)] at here
          simp only [byteStep, BitVec.getLsbD_xor] at behind
          rw [behind] at here
          simpa using here

theorem eq_of_check_eq (monic : Monic polynomial) {xs ys : List (BitVec 8)} {crc : BitVec w}
    (length : xs.length = ys.length) (short : 8 * xs.length ≤ w)
    (same : check polynomial crc xs = check polynomial crc ys) : xs = ys := by
  induction xs generalizing ys crc with
  | nil => exact (List.length_eq_zero_iff.mp length.symm).symm
  | cons x xs ih =>
      cases ys with
      | nil => cases length
      | cons y ys =>
          rw [List.length_cons] at short
          have later := low_of_check_eq monic (Nat.succ.inj length) (by omega) same
          have shifted := xor_eq_shiftLeft monic (by omega) later
          have equal : x = y := by
            apply BitVec.eq_of_getLsbD_eq
            intro bit inside
            have here := congrArg (·.getLsbD bit) shifted
            simp only [BitVec.getLsbD_xor, BitVec.getLsbD_shiftLeft, BitVec.getLsbD_setWidth,
              decide_eq_true inside, decide_eq_true (show bit < w by omega)] at here
            cases first : x.getLsbD bit <;> cases second : y.getLsbD bit <;> simp_all
          subst equal
          rw [ih (Nat.succ.inj length) (by omega) same]

/-- Two byte strings with the same check that differ in so few neighbouring bytes
that the register holds them do not differ at all. -/
theorem eq_of_check_window (monic : Monic polynomial) {xs ys : List (BitVec 8)} {crc : BitVec w}
    {start count : Nat} (length : xs.length = ys.length) (short : 8 * count ≤ w)
    (before : xs.take start = ys.take start)
    (behind : xs.drop (start + count) = ys.drop (start + count))
    (same : check polynomial crc xs = check polynomial crc ys) : xs = ys := by
  have parts (bytes : List (BitVec 8)) : bytes = bytes.take start ++
      ((bytes.drop start).take count ++ bytes.drop (start + count)) := by
    rw [← List.drop_drop, List.take_append_drop, List.take_append_drop]
  rw [parts xs, parts ys, before, behind, check_append, check_append, check_append,
    check_append] at same
  have middle := eq_of_check_eq monic
    (by rw [List.length_take, List.length_take, List.length_drop, List.length_drop, length])
    (by rw [List.length_take]; omega) (check_injective monic _ same)
  rw [parts xs, parts ys, before, behind, middle]

end ReflectedCrc
