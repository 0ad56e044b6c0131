import Ndse.CompilerFlags
import Ndse.Library.BitShifts

/-!
# Translated shifts by a register

The host takes shift counts modulo 32.  The code clamps the amount, shifts right
in two steps, and jumps over everything for an amount of zero; it takes the
whole amount register where the architecture takes its low byte.
-/

namespace Ndse

open FlatCode

/-! ### The architecture -/

namespace Shift

/-- The value of a register shifted by an amount below 256. -/
def byAmount (amount : Nat) (value : BitVec 32) : Shift → BitVec 32
  | .lsl => value <<< amount
  | .lsr => value >>> amount
  | .asr => value.sshiftRight amount
  | .ror => value.rotateRight (amount % 32)
  | .rrx => value

/-- The carry out of such a shift. -/
def carryByAmount (amount : Nat) (value : BitVec 32) (carry : Bool) (kind : Shift) : Bool :=
  if amount = 0 then carry
  else
    match kind with
    | .lsl => if amount ≤ 32 then value.getLsbD (32 - amount) else false
    | .lsr => if amount ≤ 32 then value.getLsbD (amount - 1) else false
    | .asr => if amount ≤ 32 then value.getLsbD (amount - 1) else value.msb
    | .ror => (value.rotateRight (amount % 32)).msb
    | .rrx => carry

end Shift

/-! ### The host -/

/-- What the code leaves in `eax`. -/
def clampedShift (amount : Nat) (value : BitVec 32) : Shift → BitVec 32
  | .lsl => value <<< min amount 31
  | .lsr => value >>> min amount 32
  | .asr => value.sshiftRight (min amount 32)
  | .ror => value.rotateRight (amount % 32)
  | .rrx => value

/-- What the code leaves in the lowest bit of `esi`. -/
def clampedCarry (amount : Nat) (value : BitVec 32) (carry : Bool) (kind : Shift) : Bool :=
  if amount = 0 then carry
  else
    match kind with
    | .lsl => value.getLsbD (32 - min amount 31)
    | .lsr | .asr => value.getLsbD (min amount 32 - 1)
    | .ror => if amount % 32 = 0 then false else (value.rotateRight (amount % 32)).msb
    | .rrx => false

theorem rotateRight_zero (value : BitVec 32) : value.rotateRight 0 = value := by
  apply BitVec.eq_of_getLsbD_eq
  intro bit inside
  simp [inside]

/-! ### Amounts above 31 -/

/-- Storing the carry looks at one more bit, unless the low byte is zero. -/
def carryBit (setFlags : Bool) (low : Nat) : Nat := if setFlags && low != 0 then 1 else 0

/-- The operands on which the whole amount and its low byte shift alike.  Above
the width the code shifts all but one bit out to the left, and all bits out to
the right; where the low byte asks for less, the bits that it would keep must be
zero, or copies of the sign.  A low byte of zero keeps the carry. -/
def shiftsAlike (setFlags : Bool) (amount : Nat) (value : BitVec 32) (carry : Bool) (kind : Shift) :
    Prop :=
  let low := amount % 256
  let extra := carryBit setFlags low
  match kind with
  | .lsl =>
      amount < 32 ∨ low = 31 ∨
        (∀ bit < 32 - min low 31 + extra, value.getLsbD bit = false) ∧
          (setFlags = true → low = 0 → carry = false)
  | .lsr =>
      amount ≤ 32 ∨ low = 32 ∨
        (∀ bit < 32, min low 32 - extra ≤ bit → value.getLsbD bit = false) ∧
          (setFlags = true → low = 0 → carry = false)
  | .asr =>
      amount ≤ 32 ∨ 32 ≤ low ∨
        (∀ bit < 32, low - extra ≤ bit → value.getLsbD bit = value.msb) ∧
          (setFlags = true → low = 0 → carry = value.msb)
  | .ror =>
      setFlags = true → amount = 0 ∨ amount % 32 ≠ 0 ∨
        (if low = 0 then carry = false else value.msb = false)
  | .rrx => True

/-- The code shifts as the architecture does. -/
def ClampsRight (setFlags : Bool) (amount : Nat) (value : BitVec 32) (carry : Bool)
    (kind : Shift) : Prop :=
  clampedShift amount value kind = kind.byAmount (amount % 256) value ∧
    (setFlags = true →
      clampedCarry amount value carry kind = kind.carryByAmount (amount % 256) value carry)

section Amounts

variable {setFlags : Bool} {amount : Nat} {value : BitVec 32} {carry : Bool}

theorem carryBit_of_ne {low : Nat} (nonzero : low ≠ 0) : carryBit true low = 1 := by
  simp [carryBit, nonzero]

theorem clampsRight_lsl :
    ClampsRight setFlags amount value carry .lsl ↔
      shiftsAlike setFlags amount value carry .lsl := by
  simp only [ClampsRight, shiftsAlike, clampedShift, Shift.byAmount, clampedCarry,
    Shift.carryByAmount]
  by_cases small : amount < 32
  · have same : amount % 256 = amount := Nat.mod_eq_of_lt (by omega)
    simp [small, same, Nat.min_eq_left (show amount ≤ 31 by omega), small.le]
  rw [Nat.min_eq_right (show 31 ≤ amount by omega), if_neg (show amount ≠ 0 by omega)]
  generalize amount % 256 = low
  by_cases exact : low = 31
  · simp [exact]
  have values : value <<< 31 = value <<< low ↔
      ∀ bit < 32 - min low 31, value.getLsbD bit = false := by
    rw [← BitShifts.shiftLeft_eq_zero_iff]
    obtain below | above := lt_or_gt_of_ne exact
    · rw [eq_comm, BitShifts.shiftLeft_eq_iff below, Nat.min_eq_left below.le]
    · rw [BitShifts.shiftLeft_eq_iff above, Nat.min_eq_right (le_of_lt above)]
  simp only [values, small, exact, false_or]
  cases setFlags with
  | false => simp [carryBit]
  | true =>
      by_cases zero : low = 0
      · subst zero
        simp only [carryBit, forall_const, if_true]
        refine and_congr_right fun zeros => ?_
        rw [zeros (32 - 31) (by decide)]
        exact eq_comm
      · simp only [carryBit_of_ne zero, Nat.forall_lt_succ_right, zero, if_false, forall_const,
          false_imp_iff, and_true]
        refine and_congr_right fun zeros => ?_
        obtain below | above := lt_or_gt_of_ne exact
        · rw [if_pos (by omega), zeros (32 - 31) (by omega), Nat.min_eq_left below.le]
          exact eq_comm
        · rw [Nat.min_eq_right (le_of_lt above)]
          split
          · rw [zeros (32 - low) (by omega)]
          · rfl

/-- The next higher bits and the bit below them. -/
theorem forall_bits_pred {low : Nat} {holds : Nat → Prop} (positive : 0 < low) (inside : low ≤ 32) :
    (∀ bit < 32, low - 1 ≤ bit → holds bit) ↔
      (∀ bit < 32, low ≤ bit → holds bit) ∧ holds (low - 1) := by
  constructor
  · intro all
    exact ⟨fun bit less high => all bit less (by omega), all _ (by omega) le_rfl⟩
  · rintro ⟨above, first⟩ bit less high
    obtain same | higher := Nat.eq_or_lt_of_le high
    · rwa [← same]
    · exact above bit less (by omega)

theorem clampsRight_lsr :
    ClampsRight setFlags amount value carry .lsr ↔
      shiftsAlike setFlags amount value carry .lsr := by
  simp only [ClampsRight, shiftsAlike, clampedShift, Shift.byAmount, clampedCarry,
    Shift.carryByAmount]
  by_cases small : amount ≤ 32
  · have same : amount % 256 = amount := Nat.mod_eq_of_lt (by omega)
    simp [small, same]
  rw [Nat.min_eq_right (show 32 ≤ amount by omega), if_neg (show amount ≠ 0 by omega)]
  generalize amount % 256 = low
  by_cases exact : low = 32
  · simp [exact]
  have values : value >>> 32 = value >>> low ↔
      ∀ bit < 32, min low 32 ≤ bit → value.getLsbD bit = false := by
    rw [← BitShifts.ushiftRight_eq_zero_iff]
    obtain below | above := lt_or_gt_of_ne exact
    · rw [eq_comm, BitShifts.ushiftRight_eq_iff below, Nat.min_eq_left below.le]
    · rw [BitShifts.ushiftRight_eq_iff above, Nat.min_eq_right (le_of_lt above)]
  simp only [values, small, exact, false_or]
  cases setFlags with
  | false => simp [carryBit]
  | true =>
      by_cases zero : low = 0
      · subst zero
        simp only [carryBit, forall_const, if_true]
        refine and_congr_right fun zeros => ?_
        rw [zeros (32 - 1) (by decide) (by decide)]
        exact eq_comm
      · simp only [carryBit_of_ne zero, forall_bits_pred (show 0 < min low 32 by omega)
          (Nat.min_le_right _ _), zero, if_false, forall_const, false_imp_iff, and_true]
        refine and_congr_right fun zeros => ?_
        obtain below | above := lt_or_gt_of_ne exact
        · rw [if_pos (by omega), zeros (32 - 1) (by decide) (by omega),
            Nat.min_eq_left below.le]
          exact eq_comm
        · rw [Nat.min_eq_right (le_of_lt above), if_neg (by omega)]

theorem clampsRight_asr :
    ClampsRight setFlags amount value carry .asr ↔
      shiftsAlike setFlags amount value carry .asr := by
  simp only [ClampsRight, shiftsAlike, clampedShift, Shift.byAmount, clampedCarry,
    Shift.carryByAmount]
  by_cases small : amount ≤ 32
  · have same : amount % 256 = amount := Nat.mod_eq_of_lt (by omega)
    simp [small, same]
  rw [Nat.min_eq_right (show 32 ≤ amount by omega), if_neg (show amount ≠ 0 by omega)]
  generalize amount % 256 = low
  have sign : value.getLsbD (32 - 1) = value.msb := (BitVec.msb_eq_getLsbD_last value).symm
  by_cases whole : 32 ≤ low
  · have values : value.sshiftRight 32 = value.sshiftRight low := by
      rw [BitShifts.sshiftRight_eq_fill_iff]
      intro bit inside high
      omega
    have nonzero : low ≠ 0 := by omega
    simp only [values, whole, nonzero, if_false, or_true, true_or, iff_true, true_and]
    rintro -
    split
    · rw [show low = 32 by omega]
    · exact sign
  simp only [BitShifts.sshiftRight_eq_fill_iff, small, whole, false_or]
  cases setFlags with
  | false => simp [carryBit]
  | true =>
      by_cases zero : low = 0
      · subst zero
        simp only [carryBit, forall_const, if_true, sign]
        exact and_congr_right fun _ => eq_comm
      · simp only [carryBit_of_ne zero, forall_bits_pred (Nat.pos_of_ne_zero zero)
          (show low ≤ 32 by omega), zero, if_false, forall_const, false_imp_iff, and_true]
        refine and_congr_right fun signs => ?_
        rw [if_pos (by omega), sign]
        exact eq_comm

/-- Rotations are alike, but a host rotation by nothing leaves the carry of the
mask, which is clear. -/
theorem clampsRight_ror :
    ClampsRight setFlags amount value carry .ror ↔
      shiftsAlike setFlags amount value carry .ror := by
  have rotation : amount % 256 % 32 = amount % 32 := by omega
  simp only [ClampsRight, shiftsAlike, clampedShift, Shift.byAmount, clampedCarry,
    Shift.carryByAmount, rotation, true_and]
  refine imp_congr_right fun _ => ?_
  by_cases zero : amount = 0
  · simp [zero]
  by_cases whole : amount % 32 = 0
  · simp only [zero, whole, if_false, if_true, rotateRight_zero, ne_eq, not_true_eq_false, false_or]
    split <;> exact eq_comm
  · have low : amount % 256 ≠ 0 := by omega
    simp [zero, whole, low]

theorem clampsRight_iff {kind : Shift} (shift : kind ≠ .rrx) :
    ClampsRight setFlags amount value carry kind ↔
      shiftsAlike setFlags amount value carry kind := by
  cases kind with
  | lsl => exact clampsRight_lsl
  | lsr => exact clampsRight_lsr
  | asr => exact clampsRight_asr
  | ror => exact clampsRight_ror
  | rrx => exact absurd rfl shift

end Amounts

namespace Compiler

variable {World : Type} (env : HostEnv World) {ctx : Context} {emitter : Emitter}
  {state : HostState World}

/-- An amount above 31 becomes 31. -/
def clampCode : List HostInstr := [.push (.imm8 0x1F), .pop esi, .alu .cmp ecx esi, .cmovaEcxEsi]

/-- Some code computes on host registers only: the contexts are the same, `eax`
is this value and `ecx` is this amount. -/
structure Prepared (before after : HostState World) (amount : Nat) : Prop extends
    KeepsContexts before after where
  eax : after.regs .eax = before.regs .eax
  ecx : (after.regs .ecx).toNat = amount

theorem prepared_clamp (state : HostState World) :
    Prepared state (applyAll env clampCode state) (min (state.regs .ecx).toNat 31) := by
  have below : (CarryArithmetic.borrowOut (state.regs .ecx) 31#32 false ||
        state.regs .ecx - 31#32 == 0#32) = decide ((state.regs .ecx).toNat ≤ 31) := by
    rw [Bool.eq_iff_iff]
    simp only [CarryArithmetic.borrowOut, Bool.or_eq_true, decide_eq_true_eq, beq_iff_eq,
      BitVec.toNat_ofNat, Bool.toNat_false]
    rw [BitVec.sub_eq_iff_eq_add, BitVec.zero_add, ← BitVec.toNat_inj]
    simp only [BitVec.toNat_ofNat]
    omega
  by_cases small : (state.regs .ecx).toNat ≤ 31
  · rw [decide_eq_true small] at below
    refine ⟨⟨?_, ?_⟩, ?_, ?_⟩ <;>
      simp [clampCode, HostInstr.apply, AluOp.writes, aluFlags, HostFlags.ofResult, aluResult,
        HostState.push, below, small]
  · rw [decide_eq_false small] at below
    refine ⟨⟨?_, ?_⟩, ?_, ?_⟩ <;>
      simp [clampCode, HostInstr.apply, AluOp.writes, aluFlags, HostFlags.ofResult, aluResult,
        HostState.push, below, not_le.mp small, le_of_lt]

/-- Behind a shift of `eax` by `ecx`: the value, and the carry in the lowest bit
of `esi`. -/
structure Shifted (before after : HostState World) (kind : Shift) (carry : Bool) : Prop extends
    KeepsContexts before after where
  value : after.regs .eax =
    clampedShift (before.regs .ecx).toNat (before.regs .eax) kind
  carry : (after.regs .esi).getLsbD 0 =
    clampedCarry (before.regs .ecx).toNat (before.regs .eax) carry kind

theorem storeCarry_low :
    ((applyAll env storeCarry state).regs .esi).getLsbD 0 = state.flags.cf := by
  simp [storeCarry, HostInstr.apply, rotateLeftCarry]

theorem storeCarry_eax : (applyAll env storeCarry state).regs .eax = state.regs .eax := by
  simp [storeCarry, HostInstr.apply]

/-- The shift instructions themselves, in front of `rcl esi, 1`. -/
theorem shifted_of_prepared {code : List HostInstr} {middle : HostState World} {amount : Nat}
    {kind : Shift} {carry : Bool} (prepared : Prepared state middle amount)
    (kept : KeepsContexts middle (applyAll env code middle))
    (value : (applyAll env code middle).regs .eax =
      clampedShift (state.regs .ecx).toNat (state.regs .eax) kind)
    (carried : (applyAll env code middle).flags.cf =
      clampedCarry (state.regs .ecx).toNat (state.regs .eax) carry kind) :
    Shifted state (applyAll env (code ++ storeCarry) middle) kind carry := by
  have stored := keepsGuest_storeCarry env (applyAll env code middle)
  rw [applyAll_append]
  refine ⟨(prepared.toKeepsContexts.trans kept).trans stored.toKeepsContexts, ?_, ?_⟩
  · rw [storeCarry_eax, value]
  · rw [storeCarry_low, carried]

/-- One decrement in front of the clamp. -/
theorem prepared_decClamp (nonzero : state.regs .ecx ≠ 0) :
    Prepared state (applyAll env (.dec ecx :: clampCode) state)
      (min (state.regs .ecx).toNat 32 - 1) := by
  have clamp := prepared_clamp env ((HostInstr.dec ecx).apply env state)
  have positive : 0 < (state.regs .ecx).toNat := by
    rw [Nat.pos_iff_ne_zero]
    exact fun zero => nonzero (BitVec.eq_of_toNat_eq zero)
  have less : (state.regs .ecx - 1).toNat = (state.regs .ecx).toNat - 1 := by
    have bound := (state.regs .ecx).isLt
    have one : (1 : BitVec 32).toNat = 1 := rfl
    rw [BitVec.toNat_sub, one]
    omega
  refine ⟨⟨?_, ?_⟩, ?_, ?_⟩
  · rw [applyAll_cons, clamp.processor]
    simp [HostInstr.apply]
  · rw [applyAll_cons, clamp.ebp]
    simp [HostInstr.apply]
  · rw [applyAll_cons, clamp.eax]
    simp [HostInstr.apply]
  · rw [applyAll_cons, clamp.ecx]
    have stepped : ((HostInstr.dec ecx).apply env state).regs .ecx = state.regs .ecx - 1 := by
      simp [HostInstr.apply]
    rw [stepped, less]
    omega

theorem shiftopBody_shifted (kind : ctx.shift ≠ .rrx) (state : HostState World)
    (nonzero : state.regs .ecx ≠ 0) (carry : Bool) :
    Shifted state (applyAll env (shiftopBody ctx) state) ctx.shift carry := by
  have positive : (state.regs .ecx).toNat ≠ 0 := fun zero =>
    nonzero (BitVec.eq_of_toNat_eq zero)
  have clamp := prepared_clamp env state
  have decClamp := prepared_decClamp env nonzero
  have small : min (state.regs .ecx).toNat 31 % 32 = min (state.regs .ecx).toNat 31 := by omega
  have decSmall : (min (state.regs .ecx).toNat 32 - 1) % 32 =
      min (state.regs .ecx).toNat 32 - 1 := by omega
  have step : min (state.regs .ecx).toNat 32 - 1 + 1 = min (state.regs .ecx).toNat 32 := by omega
  cases shift : ctx.shift with
  | lsl =>
      have split : shiftopBody ctx = clampCode ++ ([.shiftCl .shl] ++ storeCarry) := by
        simp [shiftopBody, shift, clampCode]
      have some : min (state.regs .ecx).toNat 31 ≠ 0 := by omega
      rw [split, applyAll_append]
      generalize applyAll env clampCode state = middle at clamp
      refine shifted_of_prepared env clamp ⟨?_, ?_⟩ ?_ ?_
      · simp [HostInstr.apply]
      · simp [HostInstr.apply]
      · simp [HostInstr.apply, clamp.eax, clamp.ecx, clampedShift, shiftResult, small]
      · simp [HostInstr.apply, clamp.eax, clamp.ecx, clampedCarry, shiftFlags, positive, small,
          some, HostFlags.ofResult]
  | lsr =>
      have split : shiftopBody ctx =
          .dec ecx :: clampCode ++ ([.shiftCl .shr, .shift .shr 1] ++ storeCarry) := by
        simp [shiftopBody, shift, clampCode]
      rw [split, applyAll_append]
      generalize applyAll env (.dec ecx :: clampCode) state = middle at decClamp
      refine shifted_of_prepared env decClamp ⟨?_, ?_⟩ ?_ ?_
      · simp [HostInstr.apply]
      · simp [HostInstr.apply]
      · simp [HostInstr.apply, decClamp.eax, decClamp.ecx, clampedShift, shiftResult, decSmall,
          ← BitVec.shiftRight_add, step]
      · simp [HostInstr.apply, decClamp.eax, decClamp.ecx, clampedCarry, shiftFlags, positive,
          decSmall, shiftResult, HostFlags.ofResult]
  | asr =>
      have split : shiftopBody ctx =
          .dec ecx :: clampCode ++ ([.shiftCl .sar, .shift .sar 1] ++ storeCarry) := by
        simp [shiftopBody, shift, clampCode]
      rw [split, applyAll_append]
      generalize applyAll env (.dec ecx :: clampCode) state = middle at decClamp
      refine shifted_of_prepared env decClamp ⟨?_, ?_⟩ ?_ ?_
      · simp [HostInstr.apply]
      · simp [HostInstr.apply]
      · simp [HostInstr.apply, decClamp.eax, decClamp.ecx, clampedShift, shiftResult, decSmall,
          ← BitVec.sshiftRight_add, step]
      · have inside : min (state.regs .ecx).toNat 32 - 1 < 32 := by omega
        simp [HostInstr.apply, decClamp.eax, decClamp.ecx, clampedCarry, shiftFlags, positive,
          decSmall, shiftResult, HostFlags.ofResult, BitVec.getElem_sshiftRight, inside]
  | ror =>
      have split : shiftopBody ctx =
          [.alu .and ecx (.imm8 0x1F)] ++ ([.shiftCl .ror] ++ storeCarry) := by
        simp [shiftopBody, shift]
      have masked : Prepared state (applyAll env [.alu .and ecx (.imm8 0x1F)] state)
          ((state.regs .ecx).toNat % 32) := by
        refine ⟨⟨?_, ?_⟩, ?_, ?_⟩ <;> simp [HostInstr.apply, AluOp.writes, aluResult]
        exact Nat.and_two_pow_sub_one_eq_mod _ 5
      have cleared : (applyAll env [.alu .and ecx (.imm8 0x1F)] state).flags.cf = false := by
        simp [HostInstr.apply, AluOp.writes, aluFlags, HostFlags.ofResult]
      rw [split, applyAll_append]
      generalize applyAll env [.alu .and ecx (.imm8 0x1F)] state = middle at masked cleared
      refine shifted_of_prepared env masked ⟨?_, ?_⟩ ?_ ?_
      · simp [HostInstr.apply]
      · simp [HostInstr.apply]
      · simp [HostInstr.apply, masked.eax, masked.ecx, clampedShift, shiftResult]
      · by_cases whole : (state.regs .ecx).toNat % 32 = 0
        · simp [HostInstr.apply, masked.ecx, clampedCarry, shiftFlags, positive, whole, cleared]
        · simp [HostInstr.apply, masked.eax, masked.ecx, clampedCarry, shiftFlags, positive, whole,
            shiftResult]
  | rrx => exact absurd shift kind

/-- The saved carry is taken from the stored flags, and kept where the body is
jumped over. -/
theorem shiftop_shifted (kind : ctx.shift ≠ .rrx) (state : HostState World) :
    ∃ after, Finishes (hostIsa env) (shiftopEaxEcx ctx) state after ∧
      Shifted state after ctx.shift (state.context.x86Flags.getLsbD 8) := by
  let saved := applyAll env
    [.mov esi (.field .x86Flags), .shrEsi 8, .alu .or ecx ecx] state
  have contexts : KeepsContexts state saved := by
    constructor <;> simp [saved, HostInstr.apply, AluOp.writes]
  have eaxKept : saved.regs .eax = state.regs .eax := by
    simp [saved, HostInstr.apply, AluOp.writes]
  have ecxKept : saved.regs .ecx = state.regs .ecx := by
    simp [saved, HostInstr.apply, AluOp.writes, aluResult]
  have carry : (saved.regs .esi).getLsbD 0 = state.context.x86Flags.getLsbD 8 := by
    simp [saved, HostInstr.apply, AluOp.writes, shiftResult]
  have zero : saved.flags.zf = (state.regs .ecx == 0) := by
    simp [saved, HostInstr.apply, AluOp.writes, aluFlags, HostFlags.ofResult, aluResult]
  have start : Finishes (hostIsa env)
      [.mov esi (.field .x86Flags), .shrEsi 8, .alu .or ecx ecx] state saved :=
    finishes_of_straight env (by simp [HostInstr.straight]) state
  have split : shiftopEaxEcx ctx =
      [.mov esi (.field .x86Flags), .shrEsi 8, .alu .or ecx ecx] ++
        .jcc .z (bytes (shiftopBody ctx)) :: shiftopBody ctx := by
    simp [shiftopEaxEcx]
  rw [split]
  by_cases none : state.regs .ecx = 0
  · refine ⟨saved, start.append (hostIsa env) (Finishes.skip (hostIsa env) ?_),
      contexts, ?_, ?_⟩
    · simp only [hostIsa, HostInstr.exec, JumpCond.holds, zero, none]
      rfl
    · rw [none, eaxKept]
      cases ctx.shift <;> simp [clampedShift, rotateRight_zero]
    · rw [none, carry]
      simp [clampedCarry]
  · have body := shiftopBody_shifted env kind saved (ecxKept ▸ none)
      (state.context.x86Flags.getLsbD 8)
    have straight : Straight (shiftopBody ctx) := by
      rw [shiftopBody]
      cases ctx.shift <;> simp [HostInstr.straight, storeCarry]
    have falls : (hostIsa env).exec (.jcc .z (bytes (shiftopBody ctx))) saved =
        some (saved, 0) := by
      rw [beq_false_of_ne none] at zero
      simp [hostIsa, HostInstr.exec, JumpCond.holds, zero]
    refine ⟨_, start.append (hostIsa env)
      (Finishes.cons (hostIsa env) falls (finishes_of_straight env straight saved)),
      contexts.trans body.toKeepsContexts, ?_, ?_⟩
    · rw [body.value, ecxKept, eaxKept]
    · rw [body.carry, ecxKept, eaxKept]

/-! ### The moves -/

/-- A move of a shifted register with the amount in a register, without the
program counter. -/
structure MovesShifted (ctx : Context) : Prop where
  instruction : ctx.instruction = .movRR
  shift : ctx.shift ≠ .rrx
  rd : ctx.rd ≠ 15
  rm : ctx.rm ≠ 15
  rs : ctx.rs ≠ 15

/-- The destination holds the shifted register, and where flags are set the
stored carry is the last bit that was shifted out. -/
def ShiftsByRegister (before after : HostState World) (ctx : Context) : Prop :=
  let value := before.context.regs ctx.rm
  let amount := (before.context.regs ctx.rs).toNat % 256
  after.context.regs ctx.rd = ctx.shift.byAmount amount value ∧
    (ctx.sBit = true → (Nzcv.ofX86 after.context.x86Flags).c =
      ctx.shift.carryByAmount amount value (before.context.x86Flags.getLsbD 8))

/-- What the code makes of the same operands. -/
structure ShiftsClamped (before after : HostState World) (ctx : Context) : Prop where
  value : after.context.regs ctx.rd =
    clampedShift (before.context.regs ctx.rs).toNat (before.context.regs ctx.rm) ctx.shift
  carry : ctx.sBit = true → (Nzcv.ofX86 after.context.x86Flags).c =
    clampedCarry (before.context.regs ctx.rs).toNat (before.context.regs ctx.rm)
      (before.context.x86Flags.getLsbD 8) ctx.shift

/-- The operands are loaded into `ecx` and `eax`. -/
theorem loadOperands (emitter : Emitter) (state : HostState World) (rm : ctx.rm ≠ 15)
    (rs : ctx.rs ≠ 15) :
    applyAll env (loadEcxRegOrPc emitter ctx.rs 0 ++ loadEaxEcxOrReg emitter ctx.rm ctx.rs) state =
      (state.setReg .ecx (state.context.regs ctx.rs)).setReg .eax (state.context.regs ctx.rm) := by
  rw [loadEcxRegOrPc, if_pos rs, loadEaxEcxOrReg, if_neg rm]
  by_cases same : ctx.rm = ctx.rs
  · simp [same, addEcx, HostInstr.apply]
  · simp [same, addEcx, loadEaxRegOrPc, rm, addEax, HostInstr.apply]

/-- The code behind the shifter. -/
def movRRTail (ctx : Context) (emitter : Emitter) : List HostInstr :=
  .mov (guest ctx.rd) eax ::
    if ctx.sBit then .alu .or eax (.imm8 0) :: loadCarry ++ storeFlags emitter else []

theorem movRR_split (accepted : MovesShifted ctx) (flagsActual : Bool) :
    (compileBody ctx emitter flagsActual).code =
      (loadEcxRegOrPc emitter ctx.rs 0 ++ loadEaxEcxOrReg emitter ctx.rm ctx.rs) ++
        (shiftopEaxEcx ctx ++ movRRTail ctx emitter) := by
  simp only [compileBody, accepted.instruction, flagging, registerShift, breakIfPc, accepted.rd,
    if_false, movRRTail]
  split <;> simp

theorem straight_movRRTail (ctx : Context) (emitter : Emitter) :
    Straight (movRRTail ctx emitter) := by
  simp [movRRTail, HostInstr.straight, loadCarry]

theorem movRRTail_rd :
    (applyAll env (movRRTail ctx emitter) state).context.regs ctx.rd = state.regs .eax := by
  rw [movRRTail]
  cases ctx.sBit <;> cases stores : emitter.lookaheadS <;>
    simp [HostInstr.apply, AluOp.writes, loadCarry, storeFlags, stores]

theorem movRRTail_carry (sBit : ctx.sBit = true) (stores : emitter.lookaheadS = false) :
    (Nzcv.ofX86 (applyAll env (movRRTail ctx emitter) state).context.x86Flags).c =
      (state.regs .esi).getLsbD 0 := by
  rw [movRRTail, if_pos sBit, ← List.cons_append, applyAll_append, storeFlags_nzcv env stores]
  simp [HostInstr.apply, AluOp.writes, loadCarry, HostFlags.nzcv]

theorem movRR_shiftsClamped (accepted : MovesShifted ctx) (emitter : Emitter)
    (stores : emitter.lookaheadS = false) (flagsActual : Bool) (state : HostState World) :
    ∃ after, Finishes (hostIsa env) (compileBody ctx emitter flagsActual).code state after ∧
      ShiftsClamped state after ctx := by
  let loaded :=
    (state.setReg .ecx (state.context.regs ctx.rs)).setReg .eax (state.context.regs ctx.rm)
  obtain ⟨shifted, shiftRun, result⟩ := shiftop_shifted env accepted.shift loaded
  have loads : Finishes (hostIsa env)
      (loadEcxRegOrPc emitter ctx.rs 0 ++ loadEaxEcxOrReg emitter ctx.rm ctx.rs) state loaded := by
    have values := loadOperands env emitter state accepted.rm accepted.rs
    rw [show loaded = _ from values.symm]
    apply finishes_of_straight
    simp [loadEcxRegOrPc, loadEaxEcxOrReg, loadEaxRegOrPc, accepted.rs, accepted.rm, addEcx,
      addEax, HostInstr.straight]
  have stored := finishes_of_straight env (straight_movRRTail ctx emitter) shifted
  have ecxLoaded : loaded.regs .ecx = state.context.regs ctx.rs := by simp [loaded]
  have eaxLoaded : loaded.regs .eax = state.context.regs ctx.rm := by simp [loaded]
  have same : loaded.context = state.context := by simp [loaded]
  refine ⟨_, movRR_split accepted flagsActual ▸ loads.append (hostIsa env)
    (shiftRun.append (hostIsa env) stored), ?_, ?_⟩
  · rw [movRRTail_rd, result.value, ecxLoaded, eaxLoaded]
  · intro sBit
    rw [movRRTail_carry env sBit stores, result.carry, ecxLoaded, eaxLoaded, same]

/-- The two descriptions of what is stored. -/
theorem shiftsByRegister_iff_clampsRight {before after : HostState World}
    (clamped : ShiftsClamped before after ctx) :
    ShiftsByRegister before after ctx ↔
      ClampsRight ctx.sBit (before.context.regs ctx.rs).toNat (before.context.regs ctx.rm)
        (before.context.x86Flags.getLsbD 8) ctx.shift := by
  refine and_congr (by rw [clamped.value]) (imp_congr_right fun sBit => ?_)
  rw [clamped.carry sBit]

/-- A shift by a register gives what the architecture says exactly on the
operands above, whatever the condition it is executed under. -/
theorem registerShift_iff (env : HostEnv World) (ctx : Context) (instBits inst : Nat)
    (flagsUpdated : Bool) (accepted : MovesShifted ctx) (state : HostState World)
    (executed : Executed env ctx ⟨instBits, inst, false⟩ flagsUpdated state) :
    (∃ after,
      Finishes (hostIsa env) (compileInstruction ctx ⟨instBits, inst, false⟩ flagsUpdated).code
          state after ∧
        ShiftsByRegister state after ctx) ↔
      shiftsAlike ctx.sBit (state.context.regs ctx.rs).toNat (state.context.regs ctx.rm)
        (state.context.x86Flags.getLsbD 8) ctx.shift := by
  let emitter : Emitter := ⟨instBits, inst, false⟩
  have kept := keepsGuest_testCode env ctx emitter flagsUpdated state
  obtain ⟨after, run, clamped⟩ := movRR_shiftsClamped env accepted emitter rfl
    (flagsHeld emitter flagsUpdated || conditional ctx)
    (applyAll env (testCode ctx emitter flagsUpdated) state)
  have finishes := finishes_of_body env executed run
  have stored := shiftsByRegister_iff_clampsRight clamped
  rw [ShiftsByRegister, kept.context] at stored
  rw [← clampsRight_iff accepted.shift, ← stored]
  constructor
  · rintro ⟨other, otherRun, shifts⟩
    rwa [← finishes.unique (hostIsa env) otherRun] at shifts
  · intro shifts
    exact ⟨after, finishes, shifts⟩

/-- `movs r0, r1, lsl r2` under a condition. -/
def moveShifted (cond : Condition) : Context :=
  { constantOne .movRR with cond := cond, rn := 0, rm := 1, rs := 2, sBit := true, imm := 0 }

theorem moveShifted_movesShifted (cond : Condition) : MovesShifted (moveShifted cond) := by
  constructor <;> simp [moveShifted, constantOne]

/-- Executed under `NE`. -/
theorem registerShift_iff_seven :
    (∃ after,
      Finishes (hostIsa .idle) (compileInstruction (moveShifted .ne) ⟨2, 0, false⟩ false).code
          (uniform 7 : HostState Unit) after ∧
        ShiftsByRegister (uniform 7) after (moveShifted .ne)) ↔
      shiftsAlike true 7 7 false .lsl :=
  registerShift_iff .idle (moveShifted .ne) 2 0 false (moveShifted_movesShifted .ne) (uniform 7)
    (by decide)

/-- With 33 in both registers one bit is left. -/
theorem registerShift_fail_large :
    MovesShifted (moveShifted .al) ∧
      ¬∃ after,
        Finishes (hostIsa .idle) (compileInstruction (moveShifted .al) ⟨2, 0, false⟩ false).code
            (uniform 33 : HostState Unit) after ∧
          ShiftsByRegister (uniform 33) after (moveShifted .al) := by
  have accepted := moveShifted_movesShifted .al
  refine ⟨accepted, ?_⟩
  rintro ⟨after, run, value, -⟩
  obtain ⟨other, otherRun, clamped⟩ := movRR_shiftsClamped .idle accepted ⟨2, 0, false⟩ rfl false
    (counted .idle ⟨2, 0, false⟩ (uniform 33))
  have finishes := finishes_of_body .idle (executed_always .idle rfl ⟨2, 0, false⟩ false _) otherRun
  rw [run.unique (hostIsa .idle) finishes, clamped.value] at value
  revert value
  decide

end Compiler

end Ndse
