import Ndse.ArmDataProcessing
import Ndse.Compiler

/-!
# Straight host code

Code without jumps runs through, and the emitting functions for operands,
carry and flags have one lemma each that says what their code does.
-/

namespace Ndse

open FlatCode

variable {World : Type} (env : HostEnv World)

namespace HostInstr

/-- Instructions that always go on with the next one. -/
def straight : HostInstr → Bool
  | jcc _ _ | jmp _ | jmpBranch | iret | movEbpEax => false
  | _ => true

theorem exec_of_straight {instr : HostInstr} (straight : instr.straight = true)
    (state : HostState World) : instr.exec env state = some (instr.apply env state, 0) := by
  cases instr <;> first | rfl | simp [HostInstr.straight] at straight

end HostInstr

/-- Run code without control flow. -/
def applyAll (code : List HostInstr) (state : HostState World) : HostState World :=
  code.foldl (fun state instr => instr.apply env state) state

@[simp]
theorem applyAll_nil (state : HostState World) : applyAll env [] state = state := rfl

@[simp]
theorem applyAll_cons (instr : HostInstr) (code : List HostInstr) (state : HostState World) :
    applyAll env (instr :: code) state = applyAll env code (instr.apply env state) := rfl

@[simp]
theorem applyAll_append (first second : List HostInstr) (state : HostState World) :
    applyAll env (first ++ second) state = applyAll env second (applyAll env first state) := by
  simp [applyAll]

/-- All instructions of some code go on with the next one. -/
def Straight (code : List HostInstr) : Prop := ∀ instr ∈ code, instr.straight = true

@[simp]
theorem straight_nil : Straight [] := by simp [Straight]

@[simp]
theorem straight_cons (instr : HostInstr) (code : List HostInstr) :
    Straight (instr :: code) ↔ instr.straight = true ∧ Straight code := by
  simp [Straight]

@[simp]
theorem straight_append (first second : List HostInstr) :
    Straight (first ++ second) ↔ Straight first ∧ Straight second := by
  simp [Straight, or_imp, forall_and]

@[simp]
theorem straight_ite (condition : Prop) [Decidable condition] (first second : List HostInstr) :
    Straight (if condition then first else second) ↔
      (condition → Straight first) ∧ (¬condition → Straight second) := by
  split <;> simp_all

/-- Straight code runs from its start to its end. -/
theorem finishes_of_straight {code : List HostInstr} (straight : Straight code)
    (state : HostState World) : Finishes (hostIsa env) code state (applyAll env code state) := by
  induction code generalizing state with
  | nil => exact finishes_nil _ _
  | cons instr code ih =>
      rw [straight_cons] at straight
      exact Finishes.cons (hostIsa env) (HostInstr.exec_of_straight env straight.1 state)
        (ih straight.2 _)

/-! ### Flags in the stored word -/

/-- The flags `load_flags` takes from a stored word. -/
def loadedFlags (word : BitVec 32) : HostFlags where
  cf := word.getLsbD 8
  pf := word.getLsbD 10
  af := word.getLsbD 12
  zf := word.getLsbD 14
  sf := word.getLsbD 15
  of := word.getLsbD 0 != word.getLsbD 7

/-- The word `store_flags` stores. -/
def packFlags (eax : BitVec 32) (flags : HostFlags) : BitVec 32 :=
  ByteMemory.setField (ByteMemory.setField eax 0 ((BitVec.ofBool flags.of).setWidth 8)) 8
    flags.toByte

namespace Compiler

variable (ctx : Context) (emitter : Emitter) (state : HostState World)

/-! ### What the emitting functions keep -/

/-- The contexts are the same. -/
structure KeepsContexts (before after : HostState World) : Prop where
  processor : after.processor = before.processor
  ebp : after.ebp = before.ebp

theorem KeepsContexts.context {before after : HostState World}
    (keeps : KeepsContexts before after) : after.context = before.context := by
  rw [HostState.context, HostState.context, keeps.processor, keeps.ebp]

theorem KeepsContexts.trans {first second third : HostState World}
    (one : KeepsContexts first second) (two : KeepsContexts second third) :
    KeepsContexts first third where
  processor := two.processor.trans one.processor
  ebp := two.ebp.trans one.ebp

/-- The contexts are the same, and so is `ecx`. -/
structure KeepsGuest (before after : HostState World) : Prop extends
    KeepsContexts before after where
  ecx : after.regs .ecx = before.regs .ecx

theorem KeepsGuest.trans {first second third : HostState World} (one : KeepsGuest first second)
    (two : KeepsGuest second third) : KeepsGuest first third where
  toKeepsContexts := one.toKeepsContexts.trans two.toKeepsContexts
  ecx := two.ecx.trans one.ecx

theorem keepsGuest_countCycle : KeepsGuest state ((countCycle emitter).apply env state) := by
  rw [countCycle]
  split <;> refine ⟨⟨?_, ?_⟩, ?_⟩ <;> simp [HostInstr.apply]

theorem keepsGuest_setEax (value : BitVec 32) : KeepsGuest state (state.setReg .eax value) := by
  refine ⟨⟨?_, ?_⟩, ?_⟩ <;> simp

theorem keepsGuest_storeCarry : KeepsGuest state (applyAll env storeCarry state) := by
  refine ⟨⟨?_, ?_⟩, ?_⟩ <;> simp [storeCarry, HostInstr.apply]

theorem keepsGuest_loadFlags : KeepsGuest state (applyAll env loadFlags state) := by
  refine ⟨⟨?_, ?_⟩, ?_⟩ <;> simp [loadFlags, HostInstr.apply]

theorem getLsbD_setField_low (word : BitVec 32) (low : BitVec 8) {bit : Nat} (high : 8 ≤ bit)
    (inside : bit < 32) : (ByteMemory.setField word 0 low).getLsbD bit = word.getLsbD bit := by
  rw [ByteMemory.getLsbD_setField, if_neg (by omega)]
  simp [inside]

theorem rotateRight_low (word : BitVec 32) :
    ((word.setWidth 8).rotateRight 1).msb = word.getLsbD 0 ∧
      ((word.setWidth 8).rotateRight 1).getLsbD 6 = word.getLsbD 7 := by
  constructor
  · simp [BitVec.msb_eq_getLsbD_last]
  · simp

theorem loadFlags_flags :
    (applyAll env loadFlags state).flags = loadedFlags state.context.x86Flags := by
  simp only [loadFlags, applyAll_cons, applyAll_nil, HostInstr.apply, HostState.write_reg,
    HostState.setFlags_flags, HostState.setReg_regs, HostState.setReg_flags,
    Function.update_self, HostState.setFlags_regs, HostState.read_field,
    EmulationContext.get_x86Flags, rotateRight_low]
  simp (disch := decide) only [getLsbD_setField_low, loadedFlags]

theorem keepsGuest_loadFlagsUnless (held : Bool) (state : HostState World) :
    KeepsGuest state (applyAll env (loadFlagsUnless held) state) := by
  cases held with
  | false => exact keepsGuest_loadFlags env state
  | true => exact ⟨⟨rfl, rfl⟩, rfl⟩

theorem loadFlagsUnless_flags (held : Bool) (state : HostState World) :
    (applyAll env (loadFlagsUnless held) state).flags =
      if held then state.flags else loadedFlags state.context.x86Flags := by
  cases held with
  | false => exact loadFlags_flags env state
  | true => rfl

/-- The carry a subtraction takes: the one the host holds, or the stored one. -/
def carryTaken (held : Bool) (state : HostState World) : Bool :=
  if held then state.flags.cf else state.context.x86Flags.getLsbD 8

theorem loadFlagsUnless_cf (held : Bool) (state : HostState World) :
    (applyAll env (loadFlagsUnless held) state).flags.cf = carryTaken held state := by
  rw [loadFlagsUnless_flags, carryTaken]
  cases held <;> rfl

theorem applyAll_loadEaxRegOrPc {reg : Fin 16} (guest : reg ≠ 15) :
    applyAll env (loadEaxRegOrPc emitter reg 0) state =
      state.setReg .eax (state.context.regs reg) := by
  simp [loadEaxRegOrPc, guest, addEax, HostInstr.apply]

/-! ### The shifter -/

theorem rotateRightCarry_eq (value : BitVec 32) (carry : Bool) :
    rotateRightCarry value carry =
      (BitVec.ofBool carry ++ value.extractLsb' 1 31 : BitVec (1 + 31)) := by
  apply BitVec.eq_of_getLsbD_eq
  intro bit inside
  rw [rotateRightCarry, BitVec.getLsbD_or, BitVec.getLsbD_append, BitVec.getLsbD_ushiftRight,
    BitVec.getLsbD_shiftLeft]
  by_cases low : bit < 31
  · simp [low, Nat.add_comm]
  · obtain rfl : bit = 31 := by omega
    simp

/-- The shift of `eax` gives the shifted operand; a rotation through the carry
takes the carry of the host. -/
theorem shiftEaxImm_eax (decoded : ctx.shift.Decoded ctx.imm.toNat) :
    (applyAll env (shiftEaxImm ctx) state).regs .eax =
      ctx.shift.operand ctx.imm.toNat (state.regs .eax) state.flags.cf := by
  cases kind : ctx.shift with
  | lsl =>
      rw [kind] at decoded
      have small : ¬ 32 ≤ ctx.imm.toNat := not_le.mpr decoded
      by_cases zero : ctx.imm = 0#32
      · simp [shiftEaxImm, kind, zero, Shift.operand]
      · simp [shiftEaxImm, kind, zero, small, Shift.operand, HostInstr.apply, shiftResult,
          Nat.mod_eq_of_lt decoded]
  | lsr =>
      rw [kind] at decoded
      by_cases whole : 32 ≤ ctx.imm.toNat
      · have amount : ctx.imm.toNat = 31 + 1 := le_antisymm decoded.2 whole
        simp [shiftEaxImm, kind, amount, Shift.operand, HostInstr.apply, shiftResult,
          ← BitVec.shiftRight_add]
      · simp [shiftEaxImm, kind, whole, Shift.operand, HostInstr.apply, shiftResult,
          Nat.mod_eq_of_lt (not_le.mp whole)]
  | asr =>
      rw [kind] at decoded
      have nonzero : ctx.imm ≠ 0#32 := by
        rintro zero
        exact absurd decoded.1 (by simp [zero])
      by_cases whole : ctx.imm = 32#32
      · simp [shiftEaxImm, kind, whole, Shift.operand, HostInstr.apply, shiftResult,
          ← BitVec.sshiftRight_add]
      · have small : ctx.imm.toNat < 32 := by
          have bound := decoded.2
          have different : ctx.imm.toNat ≠ 32 := by
            intro equal
            exact whole (BitVec.eq_of_toNat_eq equal)
          omega
        simp [shiftEaxImm, kind, nonzero, whole, Shift.operand, HostInstr.apply, shiftResult,
          Nat.mod_eq_of_lt small]
  | ror =>
      rw [kind] at decoded
      have nonzero : ctx.imm ≠ 0#32 := by
        rintro zero
        exact absurd decoded.1 (by simp [zero])
      simp [shiftEaxImm, kind, nonzero, Shift.operand, HostInstr.apply, shiftResult,
        Nat.mod_eq_of_lt decoded.2]
  | rrx => simp [shiftEaxImm, kind, Shift.operand, HostInstr.apply, rotateRightCarry_eq]

theorem keepsGuest_shiftEaxImm : KeepsGuest state (applyAll env (shiftEaxImm ctx) state) := by
  cases kind : ctx.shift <;> simp only [shiftEaxImm, kind] <;> (try split) <;> (try split) <;>
    refine ⟨⟨?_, ?_⟩, ?_⟩ <;> simp [HostInstr.apply]

/-- The shifter leaves its operand in `eax`. -/
theorem loadShifterImm_eax (rm : ctx.rm ≠ 15) (decoded : ctx.shift.Decoded ctx.imm.toNat) :
    (applyAll env (loadShifterImm ctx emitter) state).regs .eax =
      ctx.operand true state.context.regs (state.context.x86Flags.getLsbD 8) := by
  rw [loadShifterImm, applyAll_append, applyAll_append, applyAll_append,
    applyAll_loadEaxRegOrPc env emitter _ rm]
  have kept (after : HostState World) : (applyAll env storeCarry after).regs .eax =
      after.regs .eax := by simp [storeCarry, HostInstr.apply]
  rw [kept, shiftEaxImm_eax env ctx _ decoded, Context.operand, if_pos rfl]
  by_cases carry : ctx.shift = .rrx
  · have same := keepsGuest_loadFlags env state
    simp [carry, Shift.operand, same.context, loadFlags_flags, loadedFlags]
  · cases kind : ctx.shift <;> simp_all [Shift.operand]

theorem keepsGuest_loadShifterImm (rm : ctx.rm ≠ 15) :
    KeepsGuest state (applyAll env (loadShifterImm ctx emitter) state) := by
  rw [loadShifterImm, applyAll_append, applyAll_append, applyAll_append,
    applyAll_loadEaxRegOrPc env emitter _ rm]
  have first : KeepsGuest state
      (applyAll env (if ctx.shift = .rrx then loadFlags else []) state) := by
    split
    · exact keepsGuest_loadFlags env state
    · exact ⟨⟨rfl, rfl⟩, rfl⟩
  exact ((first.trans (keepsGuest_setEax _ _)).trans (keepsGuest_shiftEaxImm env ctx _)).trans
    (keepsGuest_storeCarry env _)

theorem shiftEaxImm_esi :
    (applyAll env (shiftEaxImm ctx) state).regs .esi = state.regs .esi := by
  cases kind : ctx.shift <;> simp only [shiftEaxImm, kind] <;> (try split) <;> (try split) <;>
    simp [HostInstr.apply]

/-- The shifter moves its carry into `esi`, and the highest bit of `esi` out. -/
theorem loadShifterImm_cf (rm : ctx.rm ≠ 15) :
    (applyAll env (loadShifterImm ctx emitter) state).flags.cf = (state.regs .esi).msb := by
  have loaded : (applyAll env (if ctx.shift = .rrx then loadFlags else []) state).regs .esi =
      state.regs .esi := by
    split <;> simp [loadFlags, HostInstr.apply]
  rw [loadShifterImm, applyAll_append, applyAll_append, applyAll_append,
    applyAll_loadEaxRegOrPc env emitter _ rm]
  simp [storeCarry, HostInstr.apply, shiftEaxImm_esi, loaded]

end Compiler

end Ndse
