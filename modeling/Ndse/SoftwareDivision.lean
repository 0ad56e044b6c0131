import Ndse.Processor
import Mathlib.Data.BitVec
import Mathlib.Tactic.Linarith

/-!
# Division by software interrupt

The division of both processors works on the registers of one of them, and what it
leaves as the remainder is the dividend less the quotient.
-/

namespace Ndse

namespace Hle

/-- `HLE<T>::div`.  There is no result where the emulator breaks or the host's
division traps. -/
def div (_ : Cpu) (processors : Cpu → Processor) : Option (Cpu → Processor) :=
  -- The context is that of one processor, whatever `T` is.
  let processor := processors .arm9
  let ctx := processor.ctx
  if ctx.regs 1 = 0 ∨ ctx.regs 0 = BitVec.intMin 32 ∧ ctx.regs 1 = -1 then none
  else
    let r0 := (ctx.regs 0).sdiv (ctx.regs 1)
    let r1 := ctx.regs 0 - r0
    some (Function.update processors .arm9
      (((processor.writeReg 0 r0).writeReg 1 r1).writeReg 2 (if r0.slt 0 then -r0 else r0)))

/-! ### Truncated division -/

/-- A quotient and a remainder that truncated division leaves. -/
structure Divided (dividend divisor quotient remainder : BitVec 32) : Prop where
  sum : dividend.toInt = quotient.toInt * divisor.toInt + remainder.toInt
  small : remainder.toInt.natAbs < divisor.toInt.natAbs
  sign : remainder = 0 ∨ remainder.toInt.sign = dividend.toInt.sign

variable {dividend divisor : BitVec 32}

theorem toInt_ne_zero (nonzero : divisor ≠ 0) : divisor.toInt ≠ 0 :=
  fun zero => nonzero (BitVec.eq_of_toInt_eq (zero.trans BitVec.toInt_zero.symm))

/-- A quotient that is not zero and a divisor other than one leave a difference
that does not vanish modulo `2 ^ 32`. -/
theorem not_dvd_quotient (nonzero : divisor ≠ 0)
    (bounded : ¬(dividend = BitVec.intMin 32 ∧ divisor = -1)) (not_one : divisor ≠ 1)
    (large : divisor.toInt.natAbs ≤ dividend.toInt.natAbs) {quotient : Int}
    (size : quotient.natAbs = dividend.toInt.natAbs / divisor.toInt.natAbs) :
    ¬(2 ^ 32 : Int) ∣ quotient * (divisor.toInt - 1) := by
  have divisor_ne := toInt_ne_zero nonzero
  have divisor_ne_one : divisor.toInt ≠ 1 := fun one => not_one (BitVec.eq_of_toInt_eq one)
  have low : -2 ^ 31 ≤ dividend.toInt := BitVec.le_toInt dividend
  have high : dividend.toInt < 2 ^ 31 := BitVec.toInt_lt
  have product : quotient.natAbs * divisor.toInt.natAbs ≤ dividend.toInt.natAbs :=
    size ▸ Nat.div_mul_le_self _ _
  have some : 0 < quotient.natAbs := by
    rw [size]
    exact Nat.div_pos large (by omega)
  -- The quotient is at most half of the dividend, but for the divisor minus one.
  have strict : quotient.natAbs * divisor.toInt.natAbs + quotient.natAbs < 2 ^ 32 := by
    by_cases minus_one : divisor.toInt = -1
    · have not_min : dividend.toInt ≠ -2 ^ 31 := fun min =>
        bounded ⟨BitVec.eq_of_toInt_eq min, BitVec.eq_of_toInt_eq minus_one⟩
      rw [minus_one] at product ⊢
      change quotient.natAbs * 1 ≤ _ at product
      change quotient.natAbs * 1 + _ < _
      omega
    · have half : quotient.natAbs * 2 ≤ quotient.natAbs * divisor.toInt.natAbs :=
        Nat.mul_le_mul_left _ (by omega)
      omega
  intro divides
  have least : 2 ^ 32 ≤ (quotient * (divisor.toInt - 1)).natAbs :=
    Nat.le_of_dvd (Int.natAbs_pos.mpr (mul_ne_zero (Int.natAbs_pos.mp some)
      (sub_ne_zero.mpr divisor_ne_one))) (Int.natAbs_dvd_natAbs.mpr divides)
  have most : (quotient * (divisor.toInt - 1)).natAbs ≤
      quotient.natAbs * divisor.toInt.natAbs + quotient.natAbs := by
    rw [Int.natAbs_mul, ← Nat.mul_succ]
    exact Nat.mul_le_mul_left _ (by omega)
  omega

/-- The dividend less the quotient is the remainder for the divisor one and for
dividends that are smaller than the divisor. -/
theorem divided_iff (nonzero : divisor ≠ 0)
    (bounded : ¬(dividend = BitVec.intMin 32 ∧ divisor = -1)) :
    Divided dividend divisor (dividend.sdiv divisor) (dividend - dividend.sdiv divisor) ↔
      divisor = 1 ∨ dividend.toInt.natAbs < divisor.toInt.natAbs := by
  have quotient : (dividend.sdiv divisor).toInt = dividend.toInt.tdiv divisor.toInt :=
    BitVec.toInt_sdiv_of_ne_or_ne _ _ (not_and_or.mp bounded)
  have size : (dividend.sdiv divisor).toInt.natAbs =
      dividend.toInt.natAbs / divisor.toInt.natAbs := by
    rw [quotient]
    exact Int.natAbs_tdiv _ _
  constructor
  · intro divided
    by_contra neither
    obtain ⟨not_one, large⟩ := not_or.mp neither
    apply not_dvd_quotient nonzero bounded not_one (not_lt.mp large) size
    have sum := divided.sum
    rw [BitVec.toInt_sub] at sum
    have congruent := Int.dvd_self_sub_bmod
      (x := dividend.toInt - (dividend.sdiv divisor).toInt) (m := 2 ^ 32)
    have same : dividend.toInt - (dividend.sdiv divisor).toInt -
        (dividend.toInt - (dividend.sdiv divisor).toInt).bmod (2 ^ 32) =
        (dividend.sdiv divisor).toInt * (divisor.toInt - 1) := by
      linarith
    rw [same] at congruent
    exact congruent
  · rintro (rfl | small)
    · have whole : dividend.sdiv 1 = dividend := BitVec.sdiv_one
      rw [whole, BitVec.sub_self]
      exact ⟨by simp, by decide, Or.inl rfl⟩
    · have zero : dividend.sdiv divisor = 0 := by
        apply BitVec.eq_of_toInt_eq
        exact Int.natAbs_eq_zero.mp (size.trans (Nat.div_eq_of_lt small))
      have rest : dividend - 0 = dividend := BitVec.sub_zero dividend
      rw [zero, rest]
      exact ⟨by simp, small, Or.inr rfl⟩

/-! ### The interrupt -/

/-- A processor has divided its registers and left the other one as it was. -/
structure DividedOn (cpu : Cpu) (processors after : Cpu → Processor) : Prop where
  divided : Divided ((processors cpu).ctx.regs 0) ((processors cpu).ctx.regs 1)
    ((after cpu).ctx.regs 0) ((after cpu).ctx.regs 1)
  result : ∃ index, index ≠ 0 ∧ index ≠ 1 ∧
    ((after cpu).ctx.regs index).toNat = ((after cpu).ctx.regs 0).toInt.natAbs ∧
    ∀ other, other ≠ 0 → other ≠ 1 → other ≠ index →
      (after cpu).ctx.regs other = (processors cpu).ctx.regs other
  others : ∀ other, other ≠ cpu → after other = processors other

/-- The registers after a division. -/
def quotientRegs (regs : Fin 16 → BitVec 32) : Fin 16 → BitVec 32 :=
  let r0 := (regs 0).sdiv (regs 1)
  Function.update (Function.update (Function.update regs 0 r0) 1 (regs 0 - r0)) 2
    (if r0.slt 0 then -r0 else r0)

theorem toNat_magnitude (value : BitVec 32) :
    (if value.slt 0 then -value else value).toNat = value.toInt.natAbs := by
  have magnitude := BitVec.toInt_eq_toNat_cond value
  have bound := value.isLt
  have negative : value.slt 0 = true ↔ value.toInt < 0 := BitVec.slt_iff_toInt_lt
  split
  · next below =>
    have sign := negative.mp below
    rw [BitVec.toNat_neg]
    split at magnitude <;> omega
  · next above =>
    have sign := mt negative.mpr above
    split at magnitude <;> omega

theorem div_eq (cpu : Cpu) (processors : Cpu → Processor)
    (nonzero : (processors .arm9).ctx.regs 1 ≠ 0)
    (bounded : ¬((processors .arm9).ctx.regs 0 = BitVec.intMin 32 ∧
      (processors .arm9).ctx.regs 1 = -1)) :
    ∃ after, div cpu processors = some after ∧
      (after .arm9).ctx.regs = quotientRegs (processors .arm9).ctx.regs ∧
      ∀ other, other ≠ .arm9 → after other = processors other := by
  refine ⟨_, if_neg (not_or.mpr ⟨nonzero, bounded⟩), ?_, fun other ne => ?_⟩
  · rw [Function.update_self]
    simp [Processor.writeReg, quotientRegs]
  · exact Function.update_of_ne ne _ _

/-- The division of a processor is right exactly on the ARM9 for the divisor one and
for dividends that are smaller than the divisor. -/
theorem div_right_iff (cpu : Cpu) (processors : Cpu → Processor)
    (nonzero : (processors cpu).ctx.regs 1 ≠ 0)
    (bounded : ¬((processors cpu).ctx.regs 0 = BitVec.intMin 32 ∧
      (processors cpu).ctx.regs 1 = -1)) :
    (∃ after, div cpu processors = some after ∧ DividedOn cpu processors after) ↔
      cpu = .arm9 ∧ ((processors cpu).ctx.regs 1 = 1 ∨
        ((processors cpu).ctx.regs 0).toInt.natAbs <
          ((processors cpu).ctx.regs 1).toInt.natAbs) := by
  cases cpu with
  | arm9 =>
      obtain ⟨after, run, regs, others⟩ := div_eq .arm9 processors nonzero bounded
      have iff := divided_iff nonzero bounded
      constructor
      · rintro ⟨after', run', right⟩
        cases run.symm.trans run'
        have divided := right.divided
        rw [regs] at divided
        exact ⟨rfl, iff.mp divided⟩
      · rintro ⟨-, small⟩
        refine ⟨after, run, ?_, ⟨2, by decide, by decide, ?_, fun other _ _ _ => ?_⟩, others⟩
        · rw [regs]
          exact iff.mpr small
        · rw [regs]
          exact toNat_magnitude _
        · rw [regs]
          simp [quotientRegs, *]
  | arm7 =>
      constructor
      · rintro ⟨after, run, right⟩
        have kept : after .arm7 = processors .arm7 := by
          rw [div] at run
          split at run
          · cases run
          · cases run
            exact Function.update_of_ne (by decide) _ _
        have small := right.divided.small
        rw [kept] at small
        exact absurd small (lt_irrefl _)
      · rintro ⟨other, -⟩
        cases other

/-- Both processors with a dividend and a divisor. -/
def dividing (dividend divisor : BitVec 32) (_ : Cpu) : Processor :=
  (Processor.boot.writeReg 0 dividend).writeReg 1 divisor

theorem div_right_iff_five_sevenths :
    (∃ after, div .arm9 (dividing (-5) 7) = some after ∧
        DividedOn .arm9 (dividing (-5) 7) after) ↔
      Cpu.arm9 = .arm9 ∧ ((dividing (-5) 7 .arm9).ctx.regs 1 = 1 ∨
        ((dividing (-5) 7 .arm9).ctx.regs 0).toInt.natAbs <
          ((dividing (-5) 7 .arm9).ctx.regs 1).toInt.natAbs) :=
  div_right_iff .arm9 (dividing (-5) 7) (by decide) (by decide)

/-- Seven divided by two leaves four. -/
theorem div_seven_halves :
    ¬∃ after, div .arm9 (dividing 7 2) = some after ∧ DividedOn .arm9 (dividing 7 2) after := by
  rintro ⟨after, run, right⟩
  cases run
  have small := right.divided.small
  revert small
  decide

end Hle

end Ndse
