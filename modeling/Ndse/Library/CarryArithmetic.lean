import Mathlib.Data.BitVec

/-!
# Addition and subtraction with a carry

Carry, borrow and overflow of additions and subtractions with a carry or borrow
coming in.  A subtraction with borrow is the addition of the complement with
the opposite carry; its borrow is the opposite of that carry, and the overflow
is the same.
-/

namespace CarryArithmetic

variable {width : Nat}

/-- `a + b + carry`. -/
def addCarry (a b : BitVec width) (carry : Bool) : BitVec width :=
  a + b + BitVec.ofNat width carry.toNat

/-- The carry out of `a + b + carry`. -/
def carryOut (a b : BitVec width) (carry : Bool) : Bool :=
  decide (2 ^ width ≤ a.toNat + b.toNat + carry.toNat)

/-- `a - b - borrow`. -/
def subBorrow (a b : BitVec width) (borrow : Bool) : BitVec width :=
  a - b - BitVec.ofNat width borrow.toNat

/-- The borrow out of `a - b - borrow`. -/
def borrowOut (a b : BitVec width) (borrow : Bool) : Bool :=
  decide (a.toNat < b.toNat + borrow.toNat)

/-- A signed value does not fit. -/
def overflows (width : Nat) (value : Int) : Bool :=
  decide (value < -2 ^ (width - 1) ∨ 2 ^ (width - 1) ≤ value)

/-- Signed overflow of `a + b + carry`. -/
def addOverflow (a b : BitVec width) (carry : Bool) : Bool :=
  overflows width (a.toInt + b.toInt + carry.toNat)

/-- Signed overflow of `a - b - borrow`. -/
def subOverflow (a b : BitVec width) (borrow : Bool) : Bool :=
  overflows width (a.toInt - b.toInt - borrow.toNat)

theorem toNat_not (b : Bool) : (!b).toNat = 1 - b.toNat := by cases b <;> rfl

theorem toNat_le_one (b : Bool) : b.toNat ≤ 1 := by cases b <;> decide

@[simp]
theorem addCarry_false (a b : BitVec width) : addCarry a b false = a + b := by simp [addCarry]

@[simp]
theorem subBorrow_false (a b : BitVec width) : subBorrow a b false = a - b := by
  simp [subBorrow]

theorem addCarry_comm (a b : BitVec width) (carry : Bool) :
    addCarry a b carry = addCarry b a carry := by
  rw [addCarry, addCarry, BitVec.add_comm a]

theorem carryOut_comm (a b : BitVec width) (carry : Bool) :
    carryOut a b carry = carryOut b a carry := by
  rw [carryOut, carryOut, Nat.add_comm a.toNat]

theorem addOverflow_comm (a b : BitVec width) (carry : Bool) :
    addOverflow a b carry = addOverflow b a carry := by
  rw [addOverflow, addOverflow, Int.add_comm a.toInt]

theorem subBorrow_eq_addCarry (a b : BitVec width) (borrow : Bool) :
    subBorrow a b borrow = addCarry a (~~~b) (!borrow) := by
  have negated : -b = ~~~b + BitVec.ofNat width 1 := BitVec.neg_eq_not_add b
  cases borrow with
  | false =>
      rw [subBorrow, addCarry, BitVec.sub_eq_add_neg a b, negated]
      simp [BitVec.add_assoc]
  | true =>
      rw [subBorrow, addCarry, BitVec.sub_eq_add_neg a b, negated, ← BitVec.add_assoc]
      simp

theorem addCarry_not_eq_subBorrow (a b : BitVec width) (carry : Bool) :
    addCarry a (~~~b) carry = subBorrow a b (!carry) := by
  rw [subBorrow_eq_addCarry, Bool.not_not]

/-- The borrow can be added to the subtrahend first. -/
theorem sub_addCarry_zero (a b : BitVec width) (borrow : Bool) :
    a - addCarry b 0 borrow = subBorrow a b borrow := by
  rw [addCarry, subBorrow, add_zero, sub_add_eq_sub_sub]

theorem borrowOut_eq_not_carryOut (a b : BitVec width) (borrow : Bool) :
    borrowOut a b borrow = !carryOut a (~~~b) (!borrow) := by
  have bound := b.isLt
  have small := toNat_le_one borrow
  rw [borrowOut, carryOut, BitVec.toNat_not, toNat_not, ← decide_not]
  congr 1
  rw [eq_iff_iff]
  omega

theorem toInt_not (positive : 0 < width) (b : BitVec width) : (~~~b).toInt = -1 - b.toInt := by
  have bound := b.isLt
  have even : 2 ^ width = 2 * 2 ^ (width - 1) := by
    rw [← Nat.pow_succ', show (width - 1).succ = width by omega]
  rw [BitVec.toInt_eq_toNat_cond, BitVec.toInt_eq_toNat_cond, BitVec.toNat_not]
  split <;> split <;> omega

theorem subOverflow_eq_addOverflow (positive : 0 < width) (a b : BitVec width) (borrow : Bool) :
    subOverflow a b borrow = addOverflow a (~~~b) (!borrow) := by
  have small := toNat_le_one borrow
  rw [subOverflow, addOverflow, toInt_not positive, toNat_not]
  congr 1
  omega

/-! ### Adding the negated constant -/

theorem addCarry_neg (a b : BitVec width) : addCarry a (-b) false = addCarry a (~~~b) true := by
  rw [addCarry_not_eq_subBorrow, addCarry_false, Bool.not_true, subBorrow_false,
    BitVec.sub_eq_add_neg]

/-- There is no carry out of the negation of zero. -/
theorem carryOut_neg (a : BitVec width) {b : BitVec width} (nonzero : b ≠ BitVec.ofNat width 0) :
    carryOut a (-b) false = carryOut a (~~~b) true := by
  have positive : b.toNat ≠ 0 := by
    intro zero
    exact nonzero (BitVec.eq_of_toNat_eq zero)
  have bound := b.isLt
  rw [carryOut, carryOut, BitVec.toNat_neg, BitVec.toNat_not, Nat.mod_eq_of_lt (by omega)]
  congr 1
  rw [eq_iff_iff, Bool.toNat_false, Bool.toNat_true]
  omega

theorem carryOut_allOnes (a : BitVec width) : carryOut a (BitVec.allOnes width) true = true := by
  have positive := Nat.two_pow_pos width
  rw [carryOut, BitVec.toNat_allOnes, Bool.toNat_true, decide_eq_true_eq]
  omega

theorem carryOut_zero (a : BitVec width) : carryOut (BitVec.ofNat width 0) a false = false := by
  have bound := a.isLt
  rw [carryOut, BitVec.toNat_zero, Bool.toNat_false, decide_eq_false_iff_not]
  omega

/-- The least value is its own negation. -/
theorem addOverflow_neg (positive : 0 < width) (a : BitVec width) {b : BitVec width}
    (inside : b ≠ BitVec.intMin width) :
    addOverflow a (-b) false = addOverflow a (~~~b) true := by
  rw [addOverflow, addOverflow, BitVec.toInt_neg_of_ne_intMin inside, toInt_not positive]
  congr 1
  rw [Bool.toNat_false, Bool.toNat_true]
  omega

/-! ### Numbers in two parts -/

theorem toNat_append_eq {upper : Nat} (high : BitVec upper) (low : BitVec width) :
    (high ++ low).toNat = low.toNat + 2 ^ width * high.toNat := by
  rw [BitVec.toNat_append, ← Nat.shiftLeft_add_eq_or_of_lt low.isLt, Nat.shiftLeft_eq,
    Nat.mul_comm, Nat.add_comm]

/-- Two numbers in two parts each are added part by part. -/
theorem append_add_append {upper : Nat} (high high' : BitVec upper) (low low' : BitVec width) :
    (high ++ low) + (high' ++ low') =
      addCarry high high' (carryOut low low' false) ++ addCarry low low' false := by
  have bound := low.isLt
  have bound' := low'.isLt
  have positive := Nat.two_pow_pos width
  have carry : (carryOut low low' false).toNat = (low.toNat + low'.toNat) / 2 ^ width := by
    rw [carryOut, Bool.toNat_false, Nat.add_zero]
    by_cases carries : 2 ^ width ≤ low.toNat + low'.toNat
    · rw [decide_eq_true carries]
      change 1 = _
      exact (Nat.div_eq_of_lt_le (by rwa [Nat.one_mul]) (by omega)).symm
    · rw [decide_eq_false carries]
      exact (Nat.div_eq_of_lt (by omega)).symm
  have sum : low.toNat + 2 ^ width * high.toNat + (low'.toNat + 2 ^ width * high'.toNat) =
      low.toNat + low'.toNat + 2 ^ width * (high.toNat + high'.toNat) := by
    rw [Nat.mul_add]
    omega
  apply BitVec.eq_of_toNat_eq
  rw [BitVec.toNat_add, toNat_append_eq, toNat_append_eq, toNat_append_eq, addCarry_false, addCarry,
    BitVec.toNat_add, BitVec.toNat_add, BitVec.toNat_add, BitVec.toNat_ofNat, carry, sum,
    Nat.add_comm upper, Nat.pow_add, Nat.mod_mul, Nat.add_mul_mod_self_left,
    Nat.add_mul_div_left _ _ positive, Nat.add_mod_mod, Nat.mod_add_mod]
  congr 3
  omega

end CarryArithmetic
