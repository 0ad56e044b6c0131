import Ndse.Disassembler
import Ndse.Library.CarryArithmetic

/-!
# Data processing instructions of the architecture

What the data processing instructions compute: the shifted operand, the result
and the condition flags of the arithmetic operations.
-/

namespace Ndse

open CarryArithmetic

/-- The sixteen operations. -/
inductive DataOp
  | and | eor | sub | rsb | add | adc | sbc | rsc
  | tst | teq | cmp | cmn | orr | mov | bic | mvn
deriving DecidableEq, Repr

namespace DataOp

/-- The compares have no destination. -/
def writes : DataOp → Bool
  | tst | teq | cmp | cmn => false
  | _ => true

/-- The moves have no first operand. -/
def reads : DataOp → Bool
  | mov | mvn => false
  | _ => true

/-- The operands and the carry an arithmetic operation adds: subtraction adds
the complement, and the carry is the opposite of a borrow. -/
def addends (op : DataOp) (a b : BitVec 32) (carry : Bool) :
    Option (BitVec 32 × BitVec 32 × Bool) :=
  match op with
  | add | cmn => some (a, b, false)
  | adc => some (a, b, carry)
  | sub | cmp => some (a, ~~~b, true)
  | sbc => some (a, ~~~b, carry)
  | rsb => some (~~~a, b, true)
  | rsc => some (~~~a, b, carry)
  | _ => none

/-- The result on the register operand and the second operand. -/
def result (op : DataOp) (a b : BitVec 32) (carry : Bool) : BitVec 32 :=
  match op with
  | and | tst => a &&& b
  | eor | teq => a ^^^ b
  | orr => a ||| b
  | mov => b
  | bic => a &&& ~~~b
  | mvn => ~~~b
  | add | cmn => a + b
  | adc => addCarry a b carry
  | sub | cmp => a - b
  | sbc => addCarry a (~~~b) carry
  | rsb => b - a
  | rsc => addCarry (~~~a) b carry

end DataOp

/-- The condition flags. -/
@[ext]
structure Nzcv where
  n : Bool
  z : Bool
  c : Bool
  v : Bool
deriving DecidableEq, Repr

namespace Nzcv

/-- The flags of an addition with carry. -/
def ofAddition (a b : BitVec 32) (carry : Bool) : Nzcv where
  n := (addCarry a b carry).msb
  z := addCarry a b carry == 0
  c := carryOut a b carry
  v := addOverflow a b carry

theorem ofAddition_comm (a b : BitVec 32) (carry : Bool) :
    ofAddition a b carry = ofAddition b a carry := by
  rw [ofAddition, ofAddition, addCarry_comm, carryOut_comm, addOverflow_comm]

/-- A subtraction as the addition of the negated number. -/
theorem ofAddition_neg (a : BitVec 32) {b : BitVec 32} (nonzero : b ≠ 0#32)
    (inside : b ≠ BitVec.intMin 32) : ofAddition a (-b) false = ofAddition a (~~~b) true := by
  rw [ofAddition, ofAddition, addCarry_neg, carryOut_neg a nonzero,
    addOverflow_neg (by decide) a inside]

/-- The flags in terms of the natural number that is added up. -/
theorem ofAddition_eq (a b : BitVec 32) (carry : Bool) :
    ofAddition a b carry =
      let sum := a.toNat + b.toNat + carry.toNat
      { n := decide (2 ^ 31 ≤ sum % 2 ^ 32)
        z := decide (sum % 2 ^ 32 = 0)
        c := decide (2 ^ 32 ≤ sum)
        v := decide (a.toNat < 2 ^ 31 ∧ b.toNat < 2 ^ 31 ∧ 2 ^ 31 ≤ sum ∨
          2 ^ 31 ≤ a.toNat ∧ 2 ^ 31 ≤ b.toNat ∧ sum < 2 ^ 32 + 2 ^ 31) } := by
  have small := toNat_le_one carry
  have boundA := a.isLt
  have boundB := b.isLt
  have value : (addCarry a b carry).toNat = (a.toNat + b.toNat + carry.toNat) % 2 ^ 32 := by
    rw [addCarry, BitVec.toNat_add, BitVec.toNat_add, BitVec.toNat_ofNat]
    omega
  apply Nzcv.ext
  · rw [ofAddition, BitVec.msb_eq_decide, value]
  · rw [ofAddition, Bool.eq_iff_iff, beq_iff_eq, decide_eq_true_eq, ← BitVec.toNat_inj, value]
    rfl
  · rfl
  · rw [ofAddition, addOverflow, overflows, BitVec.toInt_eq_toNat_cond, BitVec.toInt_eq_toNat_cond]
    rw [decide_eq_decide]
    split <;> split <;> omega

theorem ofAddition_zero (a : BitVec 32) : ofAddition a 0 false = ⟨a.msb, a == 0, false, false⟩ := by
  have carry : carryOut a 0 false = false := by
    rw [carryOut_comm]
    exact carryOut_zero a
  have overflow : addOverflow a 0 false = false := by
    refine (congrArg Nzcv.v (ofAddition_eq a 0 false)).trans ?_
    simp
  rw [ofAddition, carry, overflow]
  simp

/-- Taking zero away borrows nothing. -/
theorem ofAddition_allOnes (a : BitVec 32) :
    ofAddition a (BitVec.allOnes 32) true = ⟨a.msb, a == 0, true, false⟩ := by
  have bound := a.isLt
  have negated : (BitVec.allOnes 32).toInt = -1 := by decide
  have least := BitVec.le_toInt a
  have most : a.toInt < 2 ^ 31 := BitVec.toInt_lt
  have overflow : addOverflow a (BitVec.allOnes 32) true = false := by
    rw [addOverflow, overflows, negated, decide_eq_false_iff_not, Bool.toNat_true]
    omega
  have same : addCarry a (BitVec.allOnes 32) true = a := by
    rw [← BitVec.not_zero, addCarry_not_eq_subBorrow]
    simp
  rw [ofAddition, carryOut_allOnes, overflow, same]

/-- The carry coming in shows in the flags where it changes the sign or the
result from or to zero. -/
theorem ofAddition_carry_iff (a b : BitVec 32) :
    ofAddition a b true = ofAddition a b false ↔
      a + b ≠ 0 ∧ a + b ≠ BitVec.intMax 32 ∧ a + b ≠ BitVec.allOnes 32 := by
  have boundA := a.isLt
  have boundB := b.isLt
  rw [ofAddition_eq, ofAddition_eq, Nzcv.ext_iff]
  simp only [decide_eq_decide, Bool.toNat_true, Bool.toNat_false, ne_eq, ← BitVec.toNat_inj,
    BitVec.toNat_add, BitVec.toNat_intMax, BitVec.toNat_allOnes, BitVec.toNat_zero,
    BitVec.ofNat_eq_ofNat]
  omega

/-- Adding the carry on its own loses the carry and the overflow of the sum. -/
theorem ofAddition_zero_iff (a b : BitVec 32) (carry : Bool) :
    ofAddition (a + b) 0 carry = ofAddition a b carry ↔
      carryOut a b false = false ∧ addOverflow a b false = false := by
  have boundA := a.isLt
  have boundB := b.isLt
  have small := toNat_le_one carry
  have flags := ofAddition_eq a b false
  have carryFlag : carryOut a b false = _ := congrArg Nzcv.c flags
  have overflowFlag : addOverflow a b false = _ := congrArg Nzcv.v flags
  rw [carryFlag, overflowFlag, ofAddition_eq, ofAddition_eq, Nzcv.ext_iff]
  simp only [decide_eq_decide, decide_eq_false_iff_not, Bool.toNat_false, BitVec.toNat_add,
    BitVec.toNat_zero, BitVec.ofNat_eq_ofNat]
  omega

/-- The negation of the least value is the one that adds with another overflow. -/
theorem ofAddition_neg_iff (a : BitVec 32) {b : BitVec 32} (nonzero : b ≠ 0#32) :
    ofAddition a (-b) false = ofAddition a (~~~b) true ↔ b ≠ BitVec.intMin 32 := by
  constructor
  · rintro same rfl
    have boundA := a.isLt
    rw [ofAddition_eq, ofAddition_eq, Nzcv.ext_iff] at same
    simp only [decide_eq_decide, Bool.toNat_false, Bool.toNat_true, BitVec.toNat_neg,
      BitVec.toNat_not, BitVec.toNat_intMin] at same
    omega
  · exact ofAddition_neg a nonzero

theorem ofAddition_not_iff (a b : BitVec 32) (held carry : Bool) :
    ofAddition a (~~~b) held = ofAddition a (~~~b) carry ↔
      held = carry ∨ a - b ≠ 0 ∧ a - b ≠ 1 ∧ a - b ≠ BitVec.intMin 32 := by
  have boundA := a.isLt
  have boundB := b.isLt
  have differs : ofAddition a (~~~b) true = ofAddition a (~~~b) false ↔
      a - b ≠ 0 ∧ a - b ≠ 1 ∧ a - b ≠ BitVec.intMin 32 := by
    rw [ofAddition_carry_iff]
    simp only [ne_eq, ← BitVec.toNat_inj, BitVec.toNat_add, BitVec.toNat_sub, BitVec.toNat_not,
      BitVec.toNat_intMax, BitVec.toNat_intMin, BitVec.toNat_allOnes, BitVec.toNat_ofNat,
      BitVec.ofNat_eq_ofNat]
    omega
  cases held <;> cases carry
  · simp
  · rw [eq_comm, differs]
    simp
  · rw [differs]
    simp
  · simp

/-- The borrow can be taken to the subtrahend first unless that wraps or
overflows. -/
theorem ofAddition_borrow_iff (a b : BitVec 32) (held carry : Bool) :
    ofAddition a (~~~addCarry b 0 (!held)) true = ofAddition (~~~b) a carry ↔
      (held = false → b ≠ BitVec.allOnes 32 ∧ b ≠ BitVec.intMax 32) ∧
        (held = carry ∨ a - b ≠ 0 ∧ a - b ≠ 1 ∧ a - b ≠ BitVec.intMin 32) := by
  have bound := a.isLt
  have small := toNat_le_one carry
  rw [← ofAddition_not_iff, ofAddition_comm (~~~b)]
  cases held with
  | true => simp
  | false =>
      by_cases wraps : b = BitVec.allOnes 32
      · refine iff_of_false ?_ fun right => (right.1 rfl).1 wraps
        rw [wraps, show ~~~addCarry (BitVec.allOnes 32) 0 (!false) = BitVec.allOnes 32 by decide,
          show ~~~BitVec.allOnes 32 = (0 : BitVec 32) by decide, ofAddition_eq, ofAddition_eq,
          Nzcv.ext_iff]
        simp only [decide_eq_decide, Bool.toNat_true, BitVec.toNat_allOnes, BitVec.toNat_zero,
          BitVec.ofNat_eq_ofNat]
        omega
      by_cases overflows : b = BitVec.intMax 32
      · refine iff_of_false ?_ fun right => (right.1 rfl).2 overflows
        rw [overflows, show ~~~addCarry (BitVec.intMax 32) 0 (!false) = BitVec.intMax 32 by decide,
          show ~~~BitVec.intMax 32 = BitVec.intMin 32 by decide, ofAddition_eq, ofAddition_eq,
          Nzcv.ext_iff]
        simp only [decide_eq_decide, Bool.toNat_true, BitVec.toNat_intMax, BitVec.toNat_intMin]
        omega
      · -- what is negated is neither zero nor the least value
        have next : addCarry b 0 (!false) = b + 1 := by simp [addCarry]
        have negated : ~~~b = -(b + 1) := by bv_omega
        have nonzero : b + 1 ≠ 0#32 := fun zero =>
          wraps ((eq_neg_of_add_eq_zero_left zero).trans (by decide))
        have inside : b + 1 ≠ BitVec.intMin 32 := fun least =>
          overflows ((eq_sub_of_add_eq least).trans (by decide))
        rw [next, ← ofAddition_neg a nonzero inside, ← negated]
        exact ⟨fun same => ⟨fun _ => ⟨wraps, overflows⟩, same⟩, fun right => right.2⟩

/-- A borrow in place of a carry. -/
def complementCarry (flags : Nzcv) : Nzcv := { flags with c := !flags.c }

@[simp]
theorem complementCarry_complementCarry (flags : Nzcv) :
    flags.complementCarry.complementCarry = flags := by
  simp [complementCarry]

theorem complementCarry_ne (flags : Nzcv) : flags.complementCarry ≠ flags := by
  intro same
  have carry := congrArg c same
  simp [complementCarry] at carry

/-- The flags as they lie in the host word. -/
def ofX86 (word : BitVec 32) : Nzcv where
  n := word.getLsbD 15
  z := word.getLsbD 14
  c := word.getLsbD 8
  v := word.getLsbD 0

end Nzcv

/-- The value of a shifted register. -/
def Shift.operand (amount : Nat) (value : BitVec 32) (carry : Bool) : Shift → BitVec 32
  | .lsl => value <<< amount
  | .lsr => value >>> amount
  | .asr => value.sshiftRight amount
  | .ror => value.rotateRight amount
  | .rrx => (BitVec.ofBool carry ++ value.extractLsb' 1 31 : BitVec (1 + 31))

/-- The operation of an instruction the compiler accepts, and whether its
second operand is a shifted register. -/
def Inst.dataOp : Inst → Option (DataOp × Bool)
  | .andI => some (.and, false)
  | .eorI => some (.eor, false)
  | .subI => some (.sub, false)
  | .rsbI => some (.rsb, false)
  | .addI => some (.add, false)
  | .adcI => some (.adc, false)
  | .sbcI => some (.sbc, false)
  | .tstI => some (.tst, false)
  | .teqI => some (.teq, false)
  | .cmpI => some (.cmp, false)
  | .cmnI => some (.cmn, false)
  | .orrI => some (.orr, false)
  | .movI => some (.mov, false)
  | .bicI => some (.bic, false)
  | .mvnI => some (.mvn, false)
  | .andR => some (.and, true)
  | .eorR => some (.eor, true)
  | .subR => some (.sub, true)
  | .rsbR => some (.rsb, true)
  | .addR => some (.add, true)
  | .adcR => some (.adc, true)
  | .sbcR => some (.sbc, true)
  | .rscR => some (.rsc, true)
  | .tstR => some (.tst, true)
  | .teqR => some (.teq, true)
  | .cmpR => some (.cmp, true)
  | .cmnR => some (.cmn, true)
  | .orrR => some (.orr, true)
  | .movR => some (.mov, true)
  | .bicR => some (.bic, true)
  | .mvnR => some (.mvn, true)
  | _ => none

namespace Context

/-- The second operand. -/
def operand (ctx : Context) (shifted : Bool) (regs : Fin 16 → BitVec 32) (carry : Bool) :
    BitVec 32 :=
  if shifted then ctx.shift.operand ctx.imm.toNat (regs ctx.rm) carry else ctx.imm

theorem operand_immediate (ctx : Context) (regs : Fin 16 → BitVec 32) (carry : Bool) :
    ctx.operand false regs carry = ctx.imm := rfl

/-- The result of a data processing instruction. -/
def dataResult (ctx : Context) (op : DataOp) (shifted : Bool) (regs : Fin 16 → BitVec 32)
    (carry : Bool) : BitVec 32 :=
  op.result (regs ctx.rn) (ctx.operand shifted regs carry) carry

/-- The registers after a data processing instruction. -/
def dataRegs (ctx : Context) (op : DataOp) (shifted : Bool) (regs : Fin 16 → BitVec 32)
    (carry : Bool) : Fin 16 → BitVec 32 :=
  if op.writes then Function.update regs ctx.rd (ctx.dataResult op shifted regs carry)
  else regs

/-- The condition flags of an arithmetic instruction. -/
def dataFlags (ctx : Context) (op : DataOp) (shifted : Bool) (regs : Fin 16 → BitVec 32)
    (carry : Bool) : Option Nzcv :=
  (op.addends (regs ctx.rn) (ctx.operand shifted regs carry) carry).map
    fun addends => .ofAddition addends.1 addends.2.1 addends.2.2

theorem dataRegs_of_writes {op : DataOp} (writes : op.writes = true) (ctx : Context)
    (shifted : Bool) (regs : Fin 16 → BitVec 32) (carry : Bool) :
    ctx.dataRegs op shifted regs carry =
      Function.update regs ctx.rd (ctx.dataResult op shifted regs carry) := by
  rw [dataRegs, if_pos writes]

/-- An instruction that is always executed, without the program counter, and
with an operand as the disassembler decodes it; not the word that is taken for
debug magic. -/
structure AlwaysData (ctx : Context) (op : DataOp) (shifted : Bool) : Prop where
  instruction : ctx.instruction.dataOp = some (op, shifted)
  always : ctx.cond = .al
  rd : op.writes = true → ctx.rd ≠ 15
  rn : op.reads = true → ctx.rn ≠ 15
  rm : shifted = true → ctx.rm ≠ 15
  shift : shifted = true → ctx.shift.Decoded ctx.imm.toNat
  noMagic : ¬(ctx.instruction = .movR ∧ ctx.rd = 12 ∧ ctx.rm = 12 ∧ ctx.shift = .lsl ∧ ctx.imm = 0)

end Context

end Ndse
