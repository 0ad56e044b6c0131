import Ndse.CompilerLogic

/-!
# The move of the high-level core

The functions of the high-level core are an alternative to translated code: one
C++ function for each instruction, working on the register context.  `MOV_R`
shifts in place and then writes its shift amount where the shifted value belongs,
so it is right only where the two agree.
-/

namespace Ndse

/-! ### The code -/

namespace HlCore

/-- `FLAG_C`. -/
def flagC : BitVec 32 := 0x20000000

/-- `shifter`: what it leaves in its operand, and the carry it returns, which is
set when it is not zero. -/
def shifter (imm amount : BitVec 32) (op : Shift) (cpsr : BitVec 32) : BitVec 32 × BitVec 32 :=
  let amount := (amount &&& 0xFF).toNat
  if amount = 0 then (imm, cpsr &&& flagC)
  else
    match op with
    | .lsl =>
      if amount < 32 then (imm <<< amount, imm &&& ((1 : BitVec 32) <<< (32 - amount)))
      else if amount = 32 then (0, imm &&& 1)
      else (0, 0)
    | .lsr =>
      if amount < 32 then (imm >>> amount, imm &&& ((1 : BitVec 32) <<< (amount - 1)))
      else if amount = 32 then (0, imm &&& 0x80000000)
      else (0, 0)
    | .asr =>
      if amount < 32 then (imm.sshiftRight amount, imm &&& ((1 : BitVec 32) <<< (amount - 1)))
      else if imm &&& 0x80000000 ≠ 0 then (0xFFFFFFFF, 1)
      else (0, 0)
    | .ror =>
      let amount := amount % 32
      if amount = 0 then (imm, imm &&& 0x80000000)
      else (imm.rotateRight amount, imm &&& ((1 : BitVec 32) <<< (amount - 1)))
    | .rrx => ((imm >>> 1) ||| ((cpsr <<< 2) &&& 0x80000000), imm &&& 1)

/-- `TICK`. -/
def tick (ctx : EmulationContext) : EmulationContext :=
  { ctx with
    regs := Function.update ctx.regs 15
      (ctx.regs 15 + (2 : BitVec 32) <<< (~~~ctx.regs 15 &&& 1).toNat) }

/-- `HLCore<T>::MOV_R` with the `S_BIT` of its flags, which only decides whether
the condition flags are collected.  They are stored nowhere. -/
def movR (_setFlags : Bool) (imm : BitVec 32) (shift : Shift) (rm rd : Fin 16)
    (ctx : EmulationContext) : EmulationContext :=
  let shifted := shifter (ctx.regs rm) imm shift ctx.cpsr
  let ctx := { ctx with regs := Function.update ctx.regs rm shifted.1 }
  let ctx := { ctx with regs := Function.update ctx.regs rd imm }
  tick ctx

/-! ### The architecture -/

/-- The shifted register. -/
def operand (ctx : EmulationContext) (imm : BitVec 32) (shift : Shift) (rm : Fin 16) :
    BitVec 32 :=
  shift.operand imm.toNat (ctx.regs rm) (ctx.cpsr.getLsbD 29)

/-- The carry out of the shift. -/
def carryOut (ctx : EmulationContext) (imm : BitVec 32) (shift : Shift) (rm : Fin 16) : Bool :=
  shift.carryOut imm.toNat (ctx.regs rm) (ctx.cpsr.getLsbD 29)

/-- The status register with the flags of a value and a carry. -/
def withFlags (cpsr value : BitVec 32) (carry : Bool) : BitVec 32 :=
  (BitVec.ofBool value.msb ++ BitVec.ofBool (value == 0) ++ BitVec.ofBool carry ++
    cpsr.extractLsb' 0 29 : BitVec (1 + 1 + 1 + 29))

/-- What a move of a shifted register does; the program counter is not looked at. -/
structure Moves (setFlags : Bool) (imm : BitVec 32) (shift : Shift) (rm rd : Fin 16)
    (before after : EmulationContext) : Prop where
  value : after.regs rd = operand before imm shift rm
  others : ∀ reg, reg ≠ rd → reg ≠ 15 → after.regs reg = before.regs reg
  flags : setFlags = true →
    after.cpsr = withFlags before.cpsr (operand before imm shift rm) (carryOut before imm shift rm)

/-! ### Where the two agree -/

variable {imm : BitVec 32} {shift : Shift} {rm rd : Fin 16} {ctx : EmulationContext}

theorem movR_cpsr (setFlags : Bool) : (movR setFlags imm shift rm rd ctx).cpsr = ctx.cpsr := rfl

theorem movR_regs (setFlags : Bool) {reg : Fin 16} (other : reg ≠ 15) :
    (movR setFlags imm shift rm rd ctx).regs reg =
      Function.update (Function.update ctx.regs rm (shifter (ctx.regs rm) imm shift ctx.cpsr).1)
        rd imm reg :=
  Function.update_of_ne other _ _

theorem shifter_zero (value cpsr : BitVec 32) (shift : Shift) :
    (shifter value 0 shift cpsr).1 = value := rfl

theorem decoded_le (decoded : shift.Decoded imm.toNat) : imm.toNat ≤ 32 := by
  cases shift with
  | lsl => exact Nat.le_of_lt decoded
  | lsr | asr => exact decoded.2
  | ror => exact Nat.le_of_lt decoded.2
  | rrx => exact (Nat.le_of_eq decoded).trans (Nat.zero_le 32)

theorem decoded_amount (decoded : shift.Decoded imm.toNat) : (imm &&& 0xFF).toNat = imm.toNat := by
  have small := decoded_le decoded
  rw [BitVec.toNat_and, show (0xFF : BitVec 32).toNat = 2 ^ 8 - 1 from rfl,
    Nat.and_two_pow_sub_one_eq_mod, Nat.mod_eq_of_lt (by omega)]

/-- A bit of a word, as the C code tests it. -/
theorem and_bit_ne_zero_iff (value : BitVec 32) {bit : Nat} (inside : bit < 32) :
    value &&& (1 : BitVec 32) <<< bit ≠ 0 ↔ value.getLsbD bit = true := by
  change value &&& 1#32 <<< bit ≠ 0 ↔ _
  rw [← BitVec.twoPow_eq, BitVec.and_twoPow]
  split
  · next set =>
    simp only [set, iff_true]
    intro zero
    have bits := congrArg (BitVec.getLsbD · bit) zero
    simp [inside] at bits
  · next clear => simp [clear]

theorem asr_full (value : BitVec 32) :
    (if value &&& 0x80000000 ≠ 0 then ((0xFFFFFFFF : BitVec 32), (1 : BitVec 32))
      else (0, 0)).1 = value.sshiftRight 32 := by
  rw [show (0x80000000 : BitVec 32) = (1 : BitVec 32) <<< 31 from rfl]
  by_cases sign : value.msb = true
  · rw [if_pos ((and_bit_ne_zero_iff value (by decide)).mpr sign),
      BitVec.sshiftRight_eq_of_msb_true sign, BitVec.ushiftRight_eq_zero (Nat.le_refl 32)]
    rfl
  · rw [if_neg fun set => sign ((and_bit_ne_zero_iff value (by decide)).mp set),
      BitVec.sshiftRight_eq_of_msb_false (Bool.not_eq_true _ ▸ sign),
      BitVec.ushiftRight_eq_zero (Nat.le_refl 32)]
    rfl

/-- A shift by an amount other than 0 is done as the architecture says. -/
theorem shifter_value (value cpsr : BitVec 32) (carry : Bool) (decoded : shift.Decoded imm.toNat)
    (nonzero : imm ≠ 0) :
    (shifter value imm shift cpsr).1 = shift.operand imm.toNat value carry := by
  have small := decoded_le decoded
  have positive : imm.toNat ≠ 0 := fun zero => nonzero (BitVec.eq_of_toNat_eq zero)
  simp only [shifter, decoded_amount decoded, if_neg positive]
  cases shift with
  | lsl =>
      change imm.toNat < 32 at decoded
      exact congrArg Prod.fst (if_pos decoded)
  | lsr =>
      by_cases below : imm.toNat < 32
      · exact congrArg Prod.fst (if_pos below)
      · have full : imm.toNat = 32 := by omega
        simp only [full, Shift.operand]
        exact (BitVec.ushiftRight_eq_zero (Nat.le_refl 32)).symm
  | asr =>
      by_cases below : imm.toNat < 32
      · exact congrArg Prod.fst (if_pos below)
      · have full : imm.toNat = 32 := by omega
        simp only [full, Shift.operand, Nat.lt_irrefl, if_false]
        exact asr_full value
  | ror =>
      have rotation : imm.toNat % 32 = imm.toNat := Nat.mod_eq_of_lt decoded.2
      simp only [rotation, if_neg positive, Shift.operand]
  | rrx => exact absurd decoded positive

/-- No amount but 0 is what it becomes when it is shifted by itself. -/
theorem operand_self_ne (carry : Bool) (decoded : shift.Decoded imm.toNat) (nonzero : imm ≠ 0) :
    shift.operand imm.toNat imm carry ≠ imm := by
  have finite : ∀ carry, ∀ amount : Fin 33, amount.val ≠ 0 →
      ∀ kind ∈ [Shift.lsl, .lsr, .asr, .ror], kind.Decoded amount →
        kind.operand amount (BitVec.ofNat 32 amount) carry ≠ BitVec.ofNat 32 amount := by
    decide
  have positive : imm.toNat ≠ 0 := fun zero => nonzero (BitVec.eq_of_toNat_eq zero)
  have known : shift ∈ [Shift.lsl, .lsr, .asr, .ror] := by
    cases shift with
    | rrx => exact absurd decoded positive
    | _ => decide
  have apart := finite carry ⟨imm.toNat, Nat.lt_succ_of_le (decoded_le decoded)⟩ positive shift
    known decoded
  rwa [BitVec.ofNat_toNat, BitVec.setWidth_eq] at apart

/-- `MOV_R` is right where the shifted register is the shift amount already and
nothing else is written, and its flags where the status register has them. -/
theorem movR_iff (setFlags : Bool) (imm : BitVec 32) (shift : Shift) (rm rd : Fin 16)
    (ctx : EmulationContext) (decoded : shift.Decoded imm.toNat) (source : rm ≠ 15)
    (target : rd ≠ 15) :
    Moves setFlags imm shift rm rd ctx (movR setFlags imm shift rm rd ctx) ↔
      operand ctx imm shift rm = imm ∧ (rd = rm ∨ imm = 0) ∧
        (setFlags = true → ctx.cpsr = withFlags ctx.cpsr imm (carryOut ctx imm shift rm)) := by
  constructor
  · intro moves
    have value : operand ctx imm shift rm = imm := by
      rw [← moves.value, movR_regs setFlags target, Function.update_self]
    refine ⟨value, ?_, ?_⟩
    · by_contra apart
      obtain ⟨other, nonzero⟩ := not_or.mp apart
      have kept := moves.others rm (Ne.symm other) source
      rw [movR_regs setFlags source, Function.update_of_ne (Ne.symm other), Function.update_self,
        shifter_value _ _ (ctx.cpsr.getLsbD 29) decoded nonzero] at kept
      have same : ctx.regs rm = imm := kept.symm.trans value
      rw [same] at kept
      exact operand_self_ne _ decoded nonzero kept
    · intro set
      have flags := moves.flags set
      rwa [movR_cpsr, value] at flags
  · rintro ⟨value, apart, flags⟩
    constructor
    · rw [value, movR_regs setFlags target, Function.update_self]
    · intro reg other counter
      rw [movR_regs setFlags counter, Function.update_of_ne other]
      by_cases moved : reg = rm
      · have zero : imm = 0 := apart.resolve_left fun same => other (moved.trans same.symm)
        rw [moved, Function.update_self, zero, shifter_zero]
      · rw [Function.update_of_ne moved]
    · intro set
      rw [movR_cpsr, value]
      exact flags set

/-- Rotating `8000000Fh` by 31 gives 31. -/
theorem movR_iff_rotated :
    Moves true 31 .ror 1 1 ⟨fun _ => 0x8000000F, 0x10, 0, 0, 0, 0⟩
      (movR true 31 .ror 1 1 ⟨fun _ => 0x8000000F, 0x10, 0, 0, 0, 0⟩) :=
  (movR_iff true 31 .ror 1 1 _ (by decide) (by decide) (by decide)).mpr (by decide)

/-- A move of a register that holds 5 gives 0. -/
theorem movR_plain :
    Shift.Decoded 0 .lsl ∧ ¬ Moves false 0 .lsl 1 0 ⟨fun _ => 5, 0, 0, 0, 0, 0⟩
      (movR false 0 .lsl 1 0 ⟨fun _ => 5, 0, 0, 0, 0, 0⟩) := by
  refine ⟨by decide, fun moves => absurd moves.value ?_⟩
  decide

end HlCore

end Ndse
