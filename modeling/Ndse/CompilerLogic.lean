import Ndse.CompilerShifts

/-!
# Flags of translated logical instructions

The carry out of the shifter travels through `esi`, while the logical operations
of the host clear the carry and the overflow flag and rotations leave sign and
zero alone.  For each logical instruction one lemma says which flags its code
leaves behind.
-/

namespace Ndse

open FlatCode

/-! ### The architecture -/

/-- The carry out of the shift of a register by a decoded amount. -/
def Shift.carryOut (amount : Nat) (value : BitVec 32) (carry : Bool) : Shift → Bool
  | .lsl => if amount = 0 then carry else value.getLsbD (32 - amount)
  | .lsr => value.getLsbD (amount - 1)
  | .asr => value.getLsbD (amount - 1)
  | .ror => (value.rotateRight amount).msb
  | .rrx => value.getLsbD 0

namespace Context

/-- The carry out of the shifter; a rotated constant gives its highest bit. -/
def shifterCarry (ctx : Context) (shifted : Bool) (rotation : Fin 16) (regs : Fin 16 → BitVec 32)
    (carry : Bool) : Bool :=
  if shifted then ctx.shift.carryOut ctx.imm.toNat (regs ctx.rm) carry
  else if rotation = 0 then carry
  else ctx.imm.msb

/-- The condition flags after a logical instruction: the overflow stays. -/
def logicalFlags (ctx : Context) (op : DataOp) (shifted : Bool) (rotation : Fin 16)
    (regs : Fin 16 → BitVec 32) (flags : Nzcv) : Nzcv where
  n := (ctx.dataResult op shifted regs flags.c).msb
  z := ctx.dataResult op shifted regs flags.c == 0
  c := ctx.shifterCarry shifted rotation regs flags.c
  v := flags.v

end Context

namespace Compiler

variable {World : Type} (env : HostEnv World) {ctx : Context} {emitter : Emitter}
  {state : HostState World}

/-! ### The shifter -/

/-- The shifts whose host instructions set sign and zero. -/
def setsSigns (ctx : Context) : Bool :=
  match ctx.shift with
  | .lsl => ctx.imm != 0
  | .lsr | .asr => true
  | .ror | .rrx => false

/-- Code that shifts `eax`, with the host flags behind it. -/
structure ShiftFlags (ctx : Context) (before after : HostState World) : Prop where
  cf : after.flags.cf = ctx.shift.carryOut ctx.imm.toNat (before.regs .eax) before.flags.cf
  sf : after.flags.sf =
    if setsSigns ctx then (after.regs .eax).msb else before.flags.sf
  zf : after.flags.zf =
    if setsSigns ctx then after.regs .eax == 0 else before.flags.zf

theorem shiftEaxImm_flags (decoded : ctx.shift.Decoded ctx.imm.toNat) (state : HostState World) :
    ShiftFlags ctx state (applyAll env (shiftEaxImm ctx) state) := by
  cases kind : ctx.shift with
  | lsl =>
      rw [kind] at decoded
      by_cases zero : ctx.imm = 0#32
      · refine ⟨?_, ?_, ?_⟩ <;> simp [shiftEaxImm, kind, zero, Shift.carryOut, setsSigns]
      · have small : ¬ 32 ≤ ctx.imm.toNat := not_le.mpr decoded
        have nonzero : ctx.imm.toNat ≠ 0 := fun equal => zero (BitVec.eq_of_toNat_eq equal)
        refine ⟨?_, ?_, ?_⟩ <;>
          simp [shiftEaxImm, kind, zero, small, Shift.carryOut, setsSigns, HostInstr.apply,
            Nat.mod_eq_of_lt decoded, shiftFlags, nonzero, HostFlags.ofResult]
  | lsr =>
      rw [kind] at decoded
      have nonzero : ctx.imm.toNat ≠ 0 := Nat.pos_iff_ne_zero.mp decoded.1
      by_cases whole : 32 ≤ ctx.imm.toNat
      · have amount : ctx.imm.toNat = 32 := le_antisymm decoded.2 whole
        refine ⟨?_, ?_, ?_⟩ <;>
          simp [shiftEaxImm, kind, amount, Shift.carryOut, setsSigns, HostInstr.apply,
            shiftFlags, HostFlags.ofResult, shiftResult]
      · refine ⟨?_, ?_, ?_⟩ <;>
          simp [shiftEaxImm, kind, whole, Shift.carryOut, setsSigns, HostInstr.apply,
            Nat.mod_eq_of_lt (not_le.mp whole), shiftFlags, nonzero, HostFlags.ofResult]
  | asr =>
      rw [kind] at decoded
      have nonzero : ctx.imm.toNat ≠ 0 := Nat.pos_iff_ne_zero.mp decoded.1
      have some : ctx.imm ≠ 0#32 := by
        rintro zero
        exact nonzero (by rw [zero]; rfl)
      by_cases whole : ctx.imm = 32#32
      · refine ⟨?_, ?_, ?_⟩ <;>
          simp [shiftEaxImm, kind, whole, Shift.carryOut, setsSigns, HostInstr.apply,
            shiftFlags, HostFlags.ofResult, shiftResult, BitVec.getElem_sshiftRight]
      · have small : ctx.imm.toNat < 32 := by
          refine lt_of_le_of_ne decoded.2 fun equal => whole (BitVec.eq_of_toNat_eq equal)
        refine ⟨?_, ?_, ?_⟩ <;>
          simp [shiftEaxImm, kind, whole, some, Shift.carryOut, setsSigns, HostInstr.apply,
            Nat.mod_eq_of_lt small, shiftFlags, nonzero, HostFlags.ofResult]
  | ror =>
      rw [kind] at decoded
      have nonzero : ctx.imm.toNat ≠ 0 := Nat.pos_iff_ne_zero.mp decoded.1
      have some : ctx.imm ≠ 0#32 := by
        rintro zero
        exact nonzero (by rw [zero]; rfl)
      refine ⟨?_, ?_, ?_⟩ <;>
        simp [shiftEaxImm, kind, some, Shift.carryOut, setsSigns, HostInstr.apply,
          Nat.mod_eq_of_lt decoded.2, shiftFlags, nonzero, shiftResult]
  | rrx =>
      refine ⟨?_, ?_, ?_⟩ <;>
        simp [shiftEaxImm, kind, Shift.carryOut, setsSigns, HostInstr.apply]

/-- The host flags in front of the shift: a rotation through the carry loads
them. -/
def flagsBefore (ctx : Context) (state : HostState World) : HostFlags :=
  if ctx.shift = .rrx then loadedFlags state.context.x86Flags else state.flags

/-- What the shifter leaves behind: the operand in `eax`, and the carry in the
lowest bit of `esi`. -/
structure ShifterLeaves (ctx : Context) (before after : HostState World) : Prop extends
    KeepsContexts before after where
  eax : after.regs .eax =
    ctx.operand true before.context.regs (before.context.x86Flags.getLsbD 8)
  esi : after.regs .esi = rotateLeftCarry (before.regs .esi)
    (ctx.shift.carryOut ctx.imm.toNat (before.context.regs ctx.rm) before.flags.cf)
  cf : after.flags.cf = (before.regs .esi).msb
  sf : after.flags.sf =
    if setsSigns ctx then (after.regs .eax).msb else (flagsBefore ctx before).sf
  zf : after.flags.zf =
    if setsSigns ctx then after.regs .eax == 0 else (flagsBefore ctx before).zf

/-- The flags are loaded for a rotation through the carry only. -/
theorem loadFlagsFor_rrx (ctx : Context) (state : HostState World) :
    let loaded := applyAll env (if ctx.shift = .rrx then loadFlags else []) state
    loaded.flags = flagsBefore ctx state ∧ loaded.regs .esi = state.regs .esi ∧
      loaded.context = state.context := by
  by_cases carry : ctx.shift = .rrx
  · have kept := (keepsGuest_loadFlags env state).context
    refine ⟨?_, ?_, ?_⟩
    · simp [flagsBefore, carry, loadFlags_flags]
    · simp [carry, loadFlags, HostInstr.apply]
    · simpa [carry] using kept
  · simp [flagsBefore, carry]

/-- The carry in front of the shift counts only where there is no shift. -/
theorem carryOut_flagsBefore (amount : Nat) (value : BitVec 32) :
    ctx.shift.carryOut amount value (flagsBefore ctx state).cf =
      ctx.shift.carryOut amount value state.flags.cf := by
  cases kind : ctx.shift <;> simp [flagsBefore, kind, Shift.carryOut]

theorem shifterLeaves (rm : ctx.rm ≠ 15) (decoded : ctx.shift.Decoded ctx.imm.toNat)
    (emitter : Emitter) (state : HostState World) :
    ShifterLeaves ctx state (applyAll env (loadShifterImm ctx emitter) state) := by
  have value := loadShifterImm_eax env ctx emitter state rm decoded
  have kept := (keepsGuest_loadShifterImm env ctx emitter state rm).toKeepsContexts
  obtain ⟨flags, esi, context⟩ := loadFlagsFor_rrx env ctx state
  have split : applyAll env (loadShifterImm ctx emitter) state =
      applyAll env storeCarry (applyAll env (shiftEaxImm ctx)
        ((applyAll env (if ctx.shift = .rrx then loadFlags else []) state).setReg .eax
          (state.context.regs ctx.rm))) := by
    rw [loadShifterImm, applyAll_append, applyAll_append, applyAll_append,
      applyAll_loadEaxRegOrPc env emitter _ rm, context]
  generalize applyAll env (if ctx.shift = .rrx then loadFlags else []) state = loaded at *
  have shifted := shiftEaxImm_flags env decoded
    (loaded.setReg .eax (state.context.regs ctx.rm))
  have same := shiftEaxImm_esi env ctx
    (loaded.setReg .eax (state.context.regs ctx.rm))
  have carry := shifted.cf
  have sign := shifted.sf
  have zero := shifted.zf
  simp only [HostState.setReg_flags, HostState.setReg_regs, Function.update_self, flags,
    carryOut_flagsBefore] at carry sign zero
  have esiKept : (loaded.setReg .eax (state.context.regs ctx.rm)).regs .esi = state.regs .esi := by
    simp [esi]
  refine ⟨kept, value, ?_, ?_, ?_, ?_⟩
  · rw [split]
    simp [storeCarry, HostInstr.apply, same, esiKept, carry]
  · rw [split]
    simp [storeCarry, HostInstr.apply, same, esiKept]
  · rw [split, storeCarry_eax]
    simp [storeCarry, HostInstr.apply, sign]
  · rw [split, storeCarry_eax]
    simp [storeCarry, HostInstr.apply, zero]

/-! ### Flags behind the instructions -/

/-- The flags behind a logical operation of the host. -/
def cleared (result : BitVec 32) : Nzcv := ⟨result.msb, result == 0, false, false⟩

theorem nzcv_logical {op : AluOp} (logical : op = .and ∨ op = .or ∨ op = .xor ∨ op = .test)
    (flags junk : HostFlags) (a b : BitVec 32) :
    (aluFlags op flags junk a b).nzcv = cleared (aluResult op flags a b) := by
  obtain rfl | rfl | rfl | rfl := logical <;> rfl

/-- A logical instruction that stores its flags. -/
structure SetsLogical (ctx : Context) (op : DataOp) (shifted : Bool) : Prop extends
    SetsFlags ctx op shifted where
  logical : op.addends 0 0 false = none

/-- The code stores the flags of the architecture. -/
def StoresLogical (before after : HostState World) (ctx : Context) (op : DataOp) (shifted : Bool)
    (rotation : Fin 16) : Prop :=
  Nzcv.ofX86 after.context.x86Flags =
    ctx.logicalFlags op shifted rotation before.context.regs (.ofX86 before.context.x86Flags)

/-- The flags the code of an instruction leaves in the stored word. -/
def flagsLeft (ctx : Context) (op : DataOp) (state : HostState World) : Nzcv :=
  let regs := state.context.regs
  let incoming := Nzcv.ofX86 state.context.x86Flags
  let operand := ctx.operand true regs incoming.c
  let result := op.result (regs ctx.rn) operand incoming.c
  let carried := ctx.shift.carryOut ctx.imm.toNat (regs ctx.rm) state.flags.cf
  let signs (value : BitVec 32) : Bool × Bool :=
    if setsSigns ctx then (value.msb, value == 0)
    else ((flagsBefore ctx state).sf, (flagsBefore ctx state).zf)
  let shiftedOut := (state.regs .esi).getLsbD 30 != (state.regs .esi).msb
  match ctx.instruction with
  | .teqI => cleared (regs ctx.rm ^^^ ctx.imm)
  | .mvnI => incoming
  | .tstR | .teqR => cleared result
  | .andR | .eorR | .bicR | .orrR =>
      ⟨result.msb, result == 0, carried, (state.regs .esi).getLsbD 30⟩
  | .movR =>
      if ctx.imm = 0 then if ctx.rd = ctx.rm then incoming else cleared operand
      else ⟨(signs operand).1, (signs operand).2, carried, shiftedOut⟩
  | .mvnR =>
      if ctx.rd = ctx.rm ∧ ctx.shift = .lsl ∧ ctx.imm = 0 then
        ⟨state.flags.sf, state.flags.zf, (state.regs .esi).getLsbD 0,
          (state.regs .esi).msb != state.flags.cf⟩
      else ⟨(signs operand).1, (signs operand).2, carried, shiftedOut⟩
  | _ => cleared (op.result (regs ctx.rn) ctx.imm incoming.c)

theorem logicalI_nzcv {op : AluOp} (logical : op = .and ∨ op = .or ∨ op = .xor ∨ op = .test)
    (writes : op.writes = true) (rn : ctx.rn ≠ 15) (rd : ctx.rd ≠ 15) :
    (applyAll env (logicalI ctx op) state).flags.nzcv =
      cleared (aluResult op state.flags (state.context.regs ctx.rn) ctx.imm) := by
  rw [logicalI, breakIfPc, breakIfPc, if_neg rn, if_neg rd]
  by_cases same : ctx.rn = ctx.rd
  · simp [same, HostInstr.apply, writes, nzcv_logical logical]
  · simp [same, HostInstr.apply, writes, nzcv_logical logical]

/-- The carry comes back from `esi`, whose highest bit becomes the overflow. -/
theorem logicalR_nzcv_carry {op : AluOp}
    (logical : op = .and ∨ op = .or ∨ op = .xor ∨ op = .test) (writes : op.writes = true)
    (commutes : ∀ a b flags, aluResult op flags a b = aluResult op flags b a) :
    (applyAll env (logicalR ctx op ++ loadCarry) state).flags.nzcv =
      let result := aluResult op state.flags (state.context.regs ctx.rn) (state.regs .eax)
      ⟨result.msb, result == 0, (state.regs .esi).getLsbD 0, (state.regs .esi).msb⟩ := by
  rw [logicalR]
  by_cases same : ctx.rn = ctx.rd
  · have flags (junk : HostFlags) (a b : BitVec 32) := nzcv_logical logical state.flags junk a b
    simp only [HostFlags.nzcv, cleared, Nzcv.mk.injEq] at flags
    simp [same, HostInstr.apply, writes, loadCarry, HostFlags.nzcv, flags]
  · have flags (junk : HostFlags) (a b : BitVec 32) := nzcv_logical logical state.flags junk a b
    simp only [HostFlags.nzcv, cleared, Nzcv.mk.injEq] at flags
    simp [same, HostInstr.apply, writes, loadCarry, HostFlags.nzcv, flags,
      commutes (state.regs .eax)]

theorem rotateLeftCarry_low (value : BitVec 32) (carry : Bool) :
    (rotateLeftCarry value carry).getLsbD 0 = carry := by
  simp [rotateLeftCarry]

theorem rotateLeftCarry_msb (value : BitVec 32) (carry : Bool) :
    (rotateLeftCarry value carry).msb = value.getLsbD 30 := by
  simp [rotateLeftCarry, BitVec.msb_eq_getLsbD_last]

/-- The shifter in front of a logical operation. -/
theorem shifted_logicalR_nzcv (operation : BitVec 32 → BitVec 32 → BitVec 32)
    {code : List HostInstr}
    (leaves : ShifterLeaves ctx state (applyAll env (loadShifterImm ctx emitter) state))
    (rest : ∀ middle : HostState World, (applyAll env code middle).flags.nzcv =
      let result := operation (middle.context.regs ctx.rn) (middle.regs .eax)
      ⟨result.msb, result == 0, (middle.regs .esi).getLsbD 0, (middle.regs .esi).msb⟩) :
    (applyAll env (loadShifterImm ctx emitter ++ code) state).flags.nzcv =
      let result := operation (state.context.regs ctx.rn)
        (ctx.operand true state.context.regs (state.context.x86Flags.getLsbD 8))
      ⟨result.msb, result == 0,
        ctx.shift.carryOut ctx.imm.toNat (state.context.regs ctx.rm) state.flags.cf,
        (state.regs .esi).getLsbD 30⟩ := by
  rw [applyAll_append, rest, leaves.eax, leaves.esi, leaves.context, rotateLeftCarry_low,
    rotateLeftCarry_msb]

/-- A move of the shifted operand, or of its complement: the flags are those of
the shifter. -/
theorem shifted_move_nzcv (code : List HostInstr)
    (leaves : ShifterLeaves ctx state (applyAll env (loadShifterImm ctx emitter) state))
    (keeps : ∀ middle : HostState World, (applyAll env code middle).flags = middle.flags ∧
      (applyAll env code middle).regs .esi = middle.regs .esi) :
    (applyAll env (loadShifterImm ctx emitter ++ code ++ loadCarry) state).flags.nzcv =
      let operand := ctx.operand true state.context.regs (state.context.x86Flags.getLsbD 8)
      ⟨if setsSigns ctx then operand.msb else (flagsBefore ctx state).sf,
        if setsSigns ctx then operand == 0 else (flagsBefore ctx state).zf,
        ctx.shift.carryOut ctx.imm.toNat (state.context.regs ctx.rm) state.flags.cf,
        (state.regs .esi).getLsbD 30 != (state.regs .esi).msb⟩ := by
  have sign := leaves.sf
  have zero := leaves.zf
  rw [leaves.eax] at sign zero
  rw [applyAll_append, applyAll_append]
  obtain ⟨flags, esi⟩ := keeps (applyAll env (loadShifterImm ctx emitter) state)
  simp only [loadCarry, applyAll_cons, applyAll_nil, HostInstr.apply, HostFlags.nzcv,
    HostState.setFlags_flags, flags, esi, leaves.esi, leaves.cf,
    rotateLeftCarry_low, rotateLeftCarry_msb, sign, zero]

/-- Debug magic may write a register, but no flags. -/
theorem writeReg_x86Flags (processor : Processor) (index : Fin 16) (value : BitVec 32)
    (mode : CpuMode) :
    ((processor.writeReg index value).context mode).x86Flags =
      (processor.context mode).x86Flags := by
  by_cases current : mode = processor.mode
  · subst current
    simp [Processor.writeReg, Processor.setCtx, Processor.ctx]
  · simp [Processor.writeReg, Processor.setCtx, current]

theorem debugMagic_x86Flags (state : HostState World) :
    (state.call env .debugMagic).context.x86Flags = state.context.x86Flags := by
  simp only [HostState.call, HostState.helperEffect, HostState.context]
  split
  · exact writeReg_x86Flags _ _ _ _
  · rfl

theorem body_flagsLeft {op : DataOp} {shifted : Bool} (accepted : SetsLogical ctx op shifted)
    (emitter : Emitter) (stores : emitter.lookaheadS = false) (held : Bool)
    (state : HostState World) :
    Nzcv.ofX86 (applyAll env (compileBody ctx emitter held).code state).context.x86Flags =
      flagsLeft ctx op state := by
  have known := accepted.instruction
  have logical := accepted.logical
  have sBit := accepted.sBit
  have rn := accepted.rn
  have rd := accepted.rd
  have leaves (form : shifted = true) :=
    shifterLeaves env (accepted.rm form) (accepted.shift form) emitter state
  cases kind : ctx.instruction <;> simp only [kind, Inst.dataOp, Option.some.injEq,
    Prod.mk.injEq, reduceCtorEq] at known
  all_goals
    obtain ⟨rfl, rfl⟩ := known
    simp only [DataOp.reads, DataOp.writes, forall_const, Bool.false_eq_true, false_imp_iff,
      DataOp.addends, reduceCtorEq] at rn rd sBit leaves logical
  all_goals
    simp only [compileBody, kind, sBit, flagsLeft, DataOp.result]
  case andI =>
      rw [flagging_nzcv env stores, List.append_nil, logicalI_nzcv env (by simp) rfl rn rd]
      rfl
  case eorI =>
      rw [flagging_nzcv env stores, List.append_nil, logicalI_nzcv env (by simp) rfl rn rd]
      rfl
  case orrI =>
      rw [flagging_nzcv env stores, List.append_nil, logicalI_nzcv env (by simp) rfl rn rd]
      rfl
  case bicI =>
      rw [flagging_nzcv env stores, breakIfPc, breakIfPc, if_neg rn, if_neg rd]
      simp [HostInstr.apply, AluOp.writes, nzcv_logical, aluResult]
  case movI =>
      rw [flagging_nzcv env stores, breakIfPc, if_neg rd]
      simp [HostInstr.apply, AluOp.writes, nzcv_logical, aluResult]
  case mvnI =>
      rw [breakIfPc, if_neg rd]
      simp [plain, HostInstr.apply]
  case tstI =>
      rw [flagging_nzcv env stores, breakIfPc, if_neg rn]
      simp [HostInstr.apply, AluOp.writes, nzcv_logical, aluResult]
  case teqI =>
      rw [flagging_nzcv env stores, breakIfPc, if_neg rn]
      simp [HostInstr.apply, AluOp.writes, nzcv_logical, aluResult]
  case andR =>
      rw [flagging_nzcv env stores, List.append_nil, List.append_assoc]
      exact shifted_logicalR_nzcv env (· &&& ·) leaves fun _ =>
        logicalR_nzcv_carry env (.inl rfl) rfl fun a b _ => BitVec.and_comm a b
  case eorR =>
      rw [flagging_nzcv env stores, List.append_nil, List.append_assoc]
      exact shifted_logicalR_nzcv env (· ^^^ ·) leaves fun _ =>
        logicalR_nzcv_carry env (by simp) rfl fun a b _ => BitVec.xor_comm a b
  case bicR =>
      rw [flagging_nzcv env stores, List.append_nil, List.append_assoc]
      refine shifted_logicalR_nzcv env (fun a b => a &&& ~~~b) leaves fun middle => ?_
      rw [List.cons_append, applyAll_cons,
        logicalR_nzcv_carry env (.inl rfl) rfl fun a b _ => BitVec.and_comm a b]
      simp [HostInstr.apply, aluResult]
  case orrR =>
      rw [flagging_nzcv env stores, List.append_nil, List.append_assoc]
      refine shifted_logicalR_nzcv env (· ||| ·) leaves fun middle => ?_
      simp [HostInstr.apply, AluOp.writes, loadCarry, HostFlags.nzcv, aluFlags,
        HostFlags.ofResult, aluResult, BitVec.or_comm (middle.regs .eax)]
  case tstR =>
      rw [flagging_nzcv env stores, List.append_nil, breakIfPc, if_neg rn, List.nil_append,
        applyAll_append]
      simp [HostInstr.apply, AluOp.writes, nzcv_logical, aluResult, leaves.eax, leaves.context,
        Nzcv.ofX86]
  case teqR =>
      rw [flagging_nzcv env stores, List.append_nil, breakIfPc, if_neg rn, List.nil_append,
        applyAll_append]
      simp [HostInstr.apply, AluOp.writes, nzcv_logical, aluResult, leaves.eax, leaves.context,
        Nzcv.ofX86, BitVec.xor_comm (ctx.operand _ _ _)]
  case mvnR =>
      rw [flagging_nzcv env stores, List.append_nil, mvnRCode, breakIfPc, if_neg rd,
        List.nil_append]
      by_cases still : ctx.rd = ctx.rm ∧ ctx.shift = .lsl ∧ ctx.imm = 0
      · rw [if_pos still, if_pos still]
        simp [HostInstr.apply, loadCarry, HostFlags.nzcv]
      · rw [if_neg still, if_neg still]
        have moved := shifted_move_nzcv env [.not eax, .mov (guest ctx.rd) eax] leaves
          fun middle => by simp [HostInstr.apply]
        rw [moved]
        split <;> rfl
  case movR =>
      rw [movR, sBit]
      by_cases still : ctx.rd = ctx.rm ∧ ctx.imm = 0
      · rw [if_pos still, if_pos still.2, if_pos still.1]
        split
        · simp [plain, loadR15Ecx, addNextInst, HostInstr.apply, AluOp.writes,
            debugMagic_x86Flags]
        · simp [plain, HostInstr.apply]
      · have moved := shifted_move_nzcv env [.mov (guest ctx.rd) eax] leaves
          fun middle => by simp [HostInstr.apply]
        rw [if_neg still, flagging_nzcv env stores, movRCode, if_neg rd]
        by_cases unshifted : ctx.imm = 0
        · have different : ctx.rd ≠ ctx.rm := fun same => still ⟨same, unshifted⟩
          rw [if_pos unshifted, if_pos unshifted, if_neg different, applyAll_append,
            applyAll_append, applyAll_append]
          simp [HostInstr.apply, AluOp.writes, loadCarry, nzcv_logical, aluResult, leaves.eax,
            Nzcv.ofX86]
        · rw [if_neg unshifted, if_neg unshifted, List.append_nil, moved]
          split <;> rfl

/-! ### Right flags -/

/-- The states in which the code of a logical instruction stores the right
flags. -/
def logicalRight (ctx : Context) (rotation : Fin 16) (state : HostState World) : Prop :=
  let regs := state.context.regs
  let incoming := Nzcv.ofX86 state.context.x86Flags
  let operand := ctx.operand true regs incoming.c
  let host := flagsBefore ctx state
  let esi := state.regs .esi
  -- without a shift the carry is taken from the host
  let carryHeld := ctx.shift = .lsl → ctx.imm = 0 → state.flags.cf = incoming.c
  match ctx.instruction with
  | .teqI =>
      (regs ctx.rm).msb = (regs ctx.rn).msb ∧ (regs ctx.rm = ctx.imm ↔ regs ctx.rn = ctx.imm) ∧
        ctx.shifterCarry false rotation regs incoming.c = false ∧ incoming.v = false
  | .mvnI =>
      -- no flags are stored
      incoming.n = !ctx.imm.msb ∧ incoming.z = (ctx.imm == BitVec.allOnes 32) ∧
        (rotation ≠ 0 → incoming.c = ctx.imm.msb)
  | .tstR | .teqR =>
      ctx.shifterCarry true rotation regs incoming.c = false ∧ incoming.v = false
  | .andR | .eorR | .bicR | .orrR => carryHeld ∧ esi.getLsbD 30 = incoming.v
  | .movR =>
      if ctx.imm = 0 then
        if ctx.rd = ctx.rm then
          -- nothing is emitted
          incoming.n = operand.msb ∧ incoming.z = (operand == 0) ∧
            (ctx.shift = .rrx → incoming.c = (regs ctx.rm).getLsbD 0)
        else ctx.shifterCarry true rotation regs incoming.c = false ∧ incoming.v = false
      else
        (ctx.shift = .ror → host.sf = operand.msb ∧ host.zf = (operand == 0)) ∧
          (esi.getLsbD 30 != esi.msb) = incoming.v
  | .mvnR =>
      -- sign and zero are those in front of the complement
      setsSigns ctx = false ∧ host.sf = !operand.msb ∧ host.zf = (operand == BitVec.allOnes 32) ∧
        if ctx.rd = ctx.rm ∧ ctx.shift = .lsl ∧ ctx.imm = 0 then
          esi.getLsbD 0 = incoming.c ∧ (esi.msb != state.flags.cf) = incoming.v
        else carryHeld ∧ (esi.getLsbD 30 != esi.msb) = incoming.v
  | _ => ctx.shifterCarry false rotation regs incoming.c = false ∧ incoming.v = false

/-- The carry passed on is right unless there is no shift. -/
theorem carryOut_eq_iff (value : BitVec 32) (held carry : Bool) :
    ctx.shift.carryOut ctx.imm.toNat value held = ctx.shift.carryOut ctx.imm.toNat value carry ↔
      (ctx.shift = .lsl → ctx.imm = 0 → held = carry) := by
  cases kind : ctx.shift with
  | lsl =>
      by_cases zero : ctx.imm = 0#32
      · simp [Shift.carryOut, zero]
      · have nonzero : ctx.imm.toNat ≠ 0 := fun equal => zero (BitVec.eq_of_toNat_eq equal)
        simp [Shift.carryOut, zero, nonzero]
  | lsr => simp [Shift.carryOut]
  | asr => simp [Shift.carryOut]
  | ror => simp [Shift.carryOut]
  | rrx => simp [Shift.carryOut]

theorem cleared_eq_iff (result : BitVec 32) (carry overflow : Bool) :
    cleared result = ⟨result.msb, result == 0, carry, overflow⟩ ↔
      carry = false ∧ overflow = false := by
  simp [cleared, eq_comm]

theorem not_beq_zero (value : BitVec 32) : (~~~value == 0) = (value == BitVec.allOnes 32) := by
  rw [Bool.eq_iff_iff, beq_iff_eq, beq_iff_eq]
  constructor
  · intro zero
    have twice : ~~~(~~~value) = ~~~(0 : BitVec 32) := by rw [zero]
    simpa using twice
  · rintro rfl
    rfl

theorem flagsLeft_eq_iff {op : DataOp} {shifted : Bool} (accepted : SetsLogical ctx op shifted)
    (rotation : Fin 16) (state : HostState World) :
    flagsLeft ctx op state =
        ctx.logicalFlags op shifted rotation state.context.regs
          (.ofX86 state.context.x86Flags) ↔
      logicalRight ctx rotation state := by
  have known := accepted.instruction
  have logical := accepted.logical
  have decoded := accepted.shift
  cases kind : ctx.instruction <;> simp only [kind, Inst.dataOp, Option.some.injEq,
    Prod.mk.injEq, reduceCtorEq] at known
  all_goals
    obtain ⟨rfl, rfl⟩ := known
    simp only [DataOp.addends, reduceCtorEq, forall_const] at logical decoded
  all_goals
    simp only [flagsLeft, kind, logicalRight, Context.logicalFlags, Context.dataResult,
      DataOp.result, Context.operand_immediate]
  case andI | eorI | orrI | bicI | movI | tstI | tstR | teqR => exact cleared_eq_iff _ _ _
  case andR | eorR | orrR | bicR =>
      simp only [Nzcv.mk.injEq, true_and, Context.shifterCarry, if_true]
      rw [carryOut_eq_iff]
  case teqI =>
      simp only [cleared, Nzcv.mk.injEq]
      refine and_congr ?_ (and_congr ?_ (and_congr eq_comm eq_comm))
      · simp
      · rw [Bool.eq_iff_iff, beq_iff_eq, beq_iff_eq]
        exact iff_congr BitVec.xor_eq_zero_iff BitVec.xor_eq_zero_iff
  case mvnI =>
      have sign : (~~~ctx.imm).msb = !ctx.imm.msb := by simp
      rw [Nzcv.ext_iff, sign, not_beq_zero]
      refine and_congr_right fun _ => and_congr_right fun _ => ?_
      by_cases unrotated : rotation = 0
      · simp [Context.shifterCarry, unrotated]
      · simp [Context.shifterCarry, unrotated]
  case movR =>
      by_cases zero : ctx.imm = 0
      · by_cases same : ctx.rd = ctx.rm
        · simp only [if_pos zero, if_pos same, Nzcv.ext_iff, and_true]
          refine and_congr_right fun _ => and_congr_right fun _ => ?_
          cases shift : ctx.shift <;>
            simp_all [Shift.Decoded, Context.shifterCarry, Shift.carryOut]
        · simp only [if_pos zero, if_neg same]
          exact cleared_eq_iff _ _ _
      · simp only [if_neg zero, Nzcv.mk.injEq]
        rw [Context.shifterCarry, if_pos rfl, carryOut_eq_iff]
        have unshifted : ctx.shift = .lsl → ctx.imm = 0 →
            state.flags.cf = (Nzcv.ofX86 state.context.x86Flags).c :=
          fun _ none => absurd none zero
        cases shift : ctx.shift with
        | lsl => simp_all [setsSigns]
        | lsr => simp_all [setsSigns]
        | asr => simp_all [setsSigns]
        | ror => simp_all [setsSigns, and_assoc]
        | rrx =>
            rw [shift] at decoded
            have none : ctx.imm.toNat = 0 := decoded
            exact absurd (BitVec.eq_of_toNat_eq none) zero
  case mvnR =>
      have sign (value : BitVec 32) : (~~~value).msb = !value.msb := by simp
      rw [sign, not_beq_zero, Context.shifterCarry, if_pos rfl]
      by_cases still : ctx.rd = ctx.rm ∧ ctx.shift = .lsl ∧ ctx.imm = 0
      · obtain ⟨same, shift, zero⟩ := still
        simp [same, shift, zero, setsSigns, flagsBefore, Shift.carryOut]
      · simp only [if_neg still, Nzcv.mk.injEq]
        rw [carryOut_eq_iff]
        cases signs : setsSigns ctx with
        | true => simp
        | false => simp

/-- The flags of an executed logical instruction are right exactly in the states
above, with the host flags as its test leaves them. -/
theorem logicalFlags_iff (env : HostEnv World) (ctx : Context) (instBits inst : Nat) {op : DataOp}
    {shifted : Bool} (accepted : SetsLogical ctx op shifted) (rotation : Fin 16)
    (state : HostState World) (executed : Executed env ctx ⟨instBits, inst, false⟩ false state) :
    (∃ after,
      Finishes (hostIsa env) (compileInstruction ctx ⟨instBits, inst, false⟩ false).code
          state after ∧
        StoresLogical state after ctx op shifted rotation) ↔
      logicalRight ctx rotation (behindTest ctx ⟨instBits, inst, false⟩ false state) := by
  let emitter : Emitter := ⟨instBits, inst, false⟩
  let tested := applyAll env (testCode ctx emitter false) state
  have run : Finishes (hostIsa env) (compileInstruction ctx emitter false).code state
      (applyAll env (compileBody ctx emitter (conditional ctx)).code tested) :=
    accepted.finishes env executed
  have context : tested.context = state.context :=
    (keepsGuest_testCode env ctx emitter false state).context
  have right : logicalRight ctx rotation tested ↔
      logicalRight ctx rotation (behindTest ctx emitter false state) := by
    have flags : tested.flags = flagsBehindTest ctx emitter false state :=
      testCode_flags env rfl state
    have esi : tested.regs .esi = state.regs .esi := testCode_esi env state
    rw [logicalRight, logicalRight, flagsBefore, flagsBefore, context, flags, esi,
      behindTest_context, behindTest_flags, behindTest_regs]
  have left := body_flagsLeft env accepted emitter rfl (conditional ctx) tested
  rw [← right, ← flagsLeft_eq_iff accepted, ← left, context]
  constructor
  · rintro ⟨after, other, stored⟩
    rwa [StoresLogical, ← run.unique (hostIsa env) other] at stored
  · intro stored
    exact ⟨_, run, stored⟩

/-- `ands r0, r1, r0` under a condition. -/
def andsRegister (cond : Condition) : Context := { flagsOne cond .andR with imm := 0 }

theorem andsRegister_setsLogical (cond : Condition) :
    SetsLogical (andsRegister cond) .and true := by
  refine ⟨⟨rfl, fun _ => rfl, ?_, ?_, ?_, ?_⟩, rfl⟩ <;>
    simp [andsRegister, flagsOne, constantOne, Shift.Decoded]

/-- Under `NE` the carry of the test is the stored one. -/
theorem logicalFlags_iff_and :
    ∃ after,
      Finishes (hostIsa .idle) (compileInstruction (andsRegister .ne) ⟨2, 0, false⟩ false).code
          (uniformFlags 1 0x100 : HostState Unit) after ∧
        StoresLogical (uniformFlags 1 0x100) after (andsRegister .ne) .and true 0 :=
  (logicalFlags_iff .idle (andsRegister .ne) 2 0 (andsRegister_setsLogical .ne) 0
    (uniformFlags 1 0x100) (by decide)).mpr ⟨fun _ _ => by decide, by decide⟩

/-- `mvns r0, #1` stores no flags: the result is negative and `N` stays clear.
`andhis r0, r1, r0` stores the complement of the carry. -/
theorem logicalFlags_fail_mvn :
    SetsLogical (flagsOne .al .mvnI) .mvn false ∧ SetsLogical (andsRegister .hi) .and true ∧
      (¬∃ after,
        Finishes (hostIsa .idle) (compileInstruction (flagsOne .al .mvnI) ⟨2, 0, false⟩ false).code
            (uniform 0 : HostState Unit) after ∧
          StoresLogical (uniform 0) after (flagsOne .al .mvnI) .mvn false 0) ∧
      ¬∃ after,
        Finishes (hostIsa .idle) (compileInstruction (andsRegister .hi) ⟨2, 0, false⟩ false).code
            (uniformFlags 1 0x100 : HostState Unit) after ∧
          StoresLogical (uniformFlags 1 0x100) after (andsRegister .hi) .and true 0 := by
  have mvn : SetsLogical (flagsOne .al .mvnI) .mvn false := ⟨flagsOne_setsFlags .al rfl, rfl⟩
  have ands := andsRegister_setsLogical .hi
  refine ⟨mvn, ands, ?_, ?_⟩
  · rintro ⟨after, run, stored⟩
    have executed : Executed .idle (flagsOne .al .mvnI) ⟨2, 0, false⟩ false
        (uniform 0 : HostState Unit) := by decide
    rw [run.unique _ (mvn.finishes .idle executed), StoresLogical] at stored
    revert stored
    decide
  · rintro ⟨after, run, stored⟩
    have executed : Executed .idle (andsRegister .hi) ⟨2, 0, false⟩ false
        (uniformFlags 1 0x100 : HostState Unit) := by decide
    rw [run.unique _ (ands.finishes .idle executed), StoresLogical] at stored
    revert stored
    decide

end Compiler

end Ndse
