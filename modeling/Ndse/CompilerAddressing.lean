import Ndse.CompilerLogic

/-!
# Translated register offsets

Loads and stores with a register offset compute their address in three ways.
The one for stores always adds, the one for byte and extended loads negates the
base in place of the offset, and both rotate through the carry of the host.
-/

namespace Ndse

open FlatCode

/-! ### Recorded accesses -/

/-- Surroundings that also record the functions called for single accesses and
the addresses passed to them. -/
def HostEnv.recording {World : Type} (env : HostEnv World) :
    HostEnv (List (Helper × BitVec 32) × World) where
  address := env.address
  address_injective := env.address_injective
  store32 := fun world address value =>
    (world.1 ++ [(.store32, address)], env.store32 world.2 address value)
  store16 := fun world address value =>
    (world.1 ++ [(.store16, address)], env.store16 world.2 address value)
  store8 := fun world address value =>
    (world.1 ++ [(.store8, address)], env.store8 world.2 address value)
  store32Array := fun world address words => (world.1, env.store32Array world.2 address words)
  load32 := fun world address =>
    let loaded := env.load32 world.2 address
    ((world.1 ++ [(.load32, address)], loaded.1), loaded.2)
  load16u := fun world address =>
    let loaded := env.load16u world.2 address
    ((world.1 ++ [(.load16u, address)], loaded.1), loaded.2)
  load16s := fun world address =>
    let loaded := env.load16s world.2 address
    ((world.1 ++ [(.load16s, address)], loaded.1), loaded.2)
  load8u := fun world address =>
    let loaded := env.load8u world.2 address
    ((world.1 ++ [(.load8u, address)], loaded.1), loaded.2)
  load32Array := fun world address num =>
    let loaded := env.load32Array world.2 address num
    ((world.1, loaded.1), loaded.2)
  pushcallstack := fun world address => (world.1, env.pushcallstack world.2 address)
  popcallstack := fun world address => (world.1, env.popcallstack world.2 address)
  remapTcm := fun world value kind => (world.1, env.remapTcm world.2 value kind)
  swi := fun world processor number =>
    let result := env.swi world.2 processor number
    ((world.1, result.1), result.2)
  debugMagic := fun world processor address =>
    let result := env.debugMagic world.2 processor address
    ((world.1, result.1), result.2)
  clobbered := fun helper args world processor => env.clobbered helper args world.2 processor
  undefined := env.undefined

/-- The value a load function returns. -/
def HostEnv.returned {World : Type} (env : HostEnv World) (world : World) (helper : Helper)
    (address : BitVec 32) : BitVec 32 :=
  match helper with
  | .load32 => (env.load32 world address).2
  | .load16u => (env.load16u world address).2
  | .load16s => (env.load16s world address).2
  | .load8u => (env.load8u world address).2
  | _ => 0

def Helper.loads : Helper → Bool
  | load32 | load16u | load16s | load8u => true
  | _ => false

def Helper.stores : Helper → Bool
  | store32 | store16 | store8 => true
  | _ => false

/-! ### The architecture -/

namespace Context

/-- The function an access with a register offset goes through. -/
def accessor (ctx : Context) : Option Helper :=
  match ctx.instruction with
  | .ldrR | .ldrRP | .ldrRPW => some .load32
  | .ldrbRP => some .load8u
  | .ldrxRP =>
      match ctx.extendMode with
      | .h => some .load16u
      | .sb => some .load8u
      | .sh => some .load16s
      | .invalid => none
  | .strRP => some .store32
  | .strbRP => some .store8
  | .strxRP => if ctx.extendMode = .h then some .store16 else none
  | _ => none

/-- The base with the offset added or taken away. -/
def offsetAddress (ctx : Context) (regs : Fin 16 → BitVec 32) (carry : Bool) : BitVec 32 :=
  if ctx.uBit then regs ctx.rn + ctx.operand true regs carry
  else regs ctx.rn - ctx.operand true regs carry

/-- The address of the access: only one of the eight uses the base before it is
updated. -/
def accessAddress (ctx : Context) (regs : Fin 16 → BitVec 32) (carry : Bool) : BitVec 32 :=
  if ctx.instruction = .ldrR then regs ctx.rn else ctx.offsetAddress regs carry

/-- The registers after the access.  The loaded value, extended for signed
bytes, wins over the updated base. -/
def accessRegs (ctx : Context) (helper : Helper) (regs : Fin 16 → BitVec 32) (carry : Bool)
    (value : BitVec 32) : Fin 16 → BitVec 32 :=
  let based :=
    if ctx.instruction = .ldrR ∨ ctx.instruction = .ldrRPW then
      Function.update regs ctx.rn (ctx.offsetAddress regs carry)
    else regs
  if helper.loads then
    Function.update based ctx.rd
      (if ctx.instruction = .ldrxRP ∧ ctx.extendMode = .sb then (value.setWidth 8).signExtend 32
      else value)
  else based

end Context

namespace Compiler

variable {World : Type} (env : HostEnv World)

/-- An access with a register offset, without the program counter. -/
structure OffsetAccess (ctx : Context) (helper : Helper) : Prop where
  accessor : ctx.accessor = some helper
  rd : ctx.rd ≠ 15
  rn : ctx.rn ≠ 15
  rm : ctx.rm ≠ 15
  shift : ctx.shift.Decoded ctx.imm.toNat

/-- The access goes to its address, and the registers are those of the
architecture. -/
structure Accesses (ctx : Context) (helper : Helper)
    (before after : HostState (List (Helper × BitVec 32) × World)) : Prop where
  calls : after.world.1 = before.world.1 ++
    [(helper, ctx.accessAddress before.context.regs (before.context.x86Flags.getLsbD 8))]
  regs : RegsBecome before after
    (ctx.accessRegs helper before.context.regs (before.context.x86Flags.getLsbD 8)
      (env.returned before.world.2 helper
        (ctx.accessAddress before.context.regs (before.context.x86Flags.getLsbD 8))))

/-! ### Calls -/

/-- A call for one access, with its address in `ecx`. -/
structure Called (helper : Helper)
    (before after : HostState (List (Helper × BitVec 32) × World)) : Prop extends
    KeepsContexts before after where
  record : after.world.1 = before.world.1 ++ [(helper, before.regs .ecx)]
  eax : helper.loads = true →
    after.regs .eax = env.returned before.world.2 helper (before.regs .ecx)
  esp : after.esp = before.esp
  stack : after.stack = before.stack

theorem called_of_access {helper : Helper} (access : helper.loads = true ∨ helper.stores = true)
    (state : HostState (List (Helper × BitVec 32) × World)) :
    Called env helper state (state.call env.recording helper) := by
  cases helper <;>
    simp only [Helper.loads, Helper.stores, Bool.false_eq_true, or_self] at access <;>
    refine ⟨⟨?_, ?_⟩, ?_, ?_, ?_, ?_⟩ <;>
    simp [HostState.call, HostState.helperEffect, HostEnv.recording, HostEnv.returned,
      Helper.loads]

/-! ### Address computations -/

variable {ctx : Context} {emitter : Emitter}

/-- Code that computes an address in `ecx` and leaves everything else that
counts alone. -/
structure Addressed {World : Type} (before after : HostState World) (address : BitVec 32) :
    Prop extends KeepsContexts before after where
  ecx : after.regs .ecx = address
  world : after.world = before.world

theorem keepsSurroundings_shiftEaxImm (ctx : Context) (state : HostState World) :
    KeepsSurroundings state (applyAll env (shiftEaxImm ctx) state) := by
  cases kind : ctx.shift <;> simp only [shiftEaxImm, kind] <;> (try split) <;> (try split) <;>
    constructor <;> simp [HostInstr.apply]

theorem keepsSurroundings_loadShifterImm (rm : ctx.rm ≠ 15) (emitter : Emitter)
    (state : HostState World) :
    KeepsSurroundings state (applyAll env (loadShifterImm ctx emitter) state) := by
  have shifted (loaded : HostState World) := keepsSurroundings_shiftEaxImm env ctx loaded
  rw [loadShifterImm, applyAll_append, applyAll_append, applyAll_append,
    applyAll_loadEaxRegOrPc env emitter _ rm]
  by_cases carry : ctx.shift = .rrx
  · constructor <;>
      simp [carry, loadFlags, storeCarry, HostInstr.apply, (shifted _).world, (shifted _).esp,
        (shifted _).stack]
  · constructor <;>
      simp [carry, storeCarry, HostInstr.apply, (shifted _).world, (shifted _).esp,
        (shifted _).stack]

/-- The shifter of the two shorter forms takes the carry of the host. -/
theorem addressed_loadstoreShift (decoded : ctx.shift.Decoded ctx.imm.toNat)
    (state : HostState World) :
    Addressed state (applyAll env (genericLoadstoreShift ctx) state)
      (state.regs .ecx + ctx.operand true state.context.regs state.flags.cf) := by
  rw [genericLoadstoreShift]
  by_cases plainAdd : ctx.shift = .lsl ∧ ctx.imm = 0
  · obtain ⟨shift, zero⟩ := plainAdd
    refine ⟨⟨?_, ?_⟩, ?_, ?_⟩ <;>
      simp [shift, zero, HostInstr.apply, AluOp.writes, aluResult, Context.operand, Shift.operand]
  · let loaded := state.setReg .eax (state.context.regs ctx.rm)
    have value := shiftEaxImm_eax env ctx loaded decoded
    have kept := keepsGuest_shiftEaxImm env ctx loaded
    have world := (keepsSurroundings_shiftEaxImm env ctx loaded).world
    have carried := keepsGuest_storeCarry env (applyAll env (shiftEaxImm ctx) loaded)
    have start : (HostInstr.mov eax (guest ctx.rm)).apply env state = loaded := by
      simp [loaded, HostInstr.apply]
    have ecx : loaded.regs .ecx = state.regs .ecx := by simp [loaded]
    have operand : loaded.regs .eax = state.context.regs ctx.rm := by simp [loaded]
    have contexts : KeepsContexts state loaded := (keepsGuest_setEax state _).toKeepsContexts
    rw [if_neg plainAdd, List.cons_append, List.cons_append, applyAll_cons, start,
      applyAll_append, applyAll_append]
    generalize applyAll env (shiftEaxImm ctx) loaded = shifted at *
    refine ⟨⟨?_, ?_⟩, ?_, ?_⟩
    · simp [HostInstr.apply, AluOp.writes, carried.processor, kept.processor, contexts.processor]
    · simp [HostInstr.apply, AluOp.writes, carried.ebp, kept.ebp, contexts.ebp]
    · simp [HostInstr.apply, AluOp.writes, aluResult, carried.ecx, kept.ecx, ecx, storeCarry_eax,
        value, operand, Context.operand, loaded]
    · simp [HostInstr.apply, AluOp.writes, storeCarry, world, loaded]

/-- The stores: the offset is added, whatever the direction. -/
theorem addressed_storeR (rd : ctx.rd ≠ 15) (rn : ctx.rn ≠ 15)
    (decoded : ctx.shift.Decoded ctx.imm.toNat) (emitter : Emitter) (state : HostState World) :
    Addressed state (applyAll env (genericStoreR ctx emitter) state)
      (state.context.regs ctx.rn + ctx.operand true state.context.regs state.flags.cf) := by
  let loaded := applyAll env (genericStore ctx emitter) state
  have shifted := addressed_loadstoreShift env decoded loaded
  have contexts : KeepsContexts state loaded := by
    by_cases same : ctx.rd = ctx.rn <;> constructor <;>
      simp [loaded, genericStore, breakIfPc, rd, rn, loadEcxRegOrPc, addEcx, loadEdxEcxOrReg,
        same, HostInstr.apply]
  have ecx : loaded.regs .ecx = state.context.regs ctx.rn := by
    by_cases same : ctx.rd = ctx.rn <;>
      simp [loaded, genericStore, breakIfPc, rd, rn, loadEcxRegOrPc, addEcx, loadEdxEcxOrReg,
        same, HostInstr.apply]
  have flags : loaded.flags = state.flags := by
    by_cases same : ctx.rd = ctx.rn <;>
      simp [loaded, genericStore, breakIfPc, rd, rn, loadEcxRegOrPc, addEcx, loadEdxEcxOrReg,
        same, HostInstr.apply]
  have world : loaded.world = state.world := by
    by_cases same : ctx.rd = ctx.rn <;>
      simp [loaded, genericStore, breakIfPc, rd, rn, loadEcxRegOrPc, addEcx, loadEdxEcxOrReg,
        same, HostInstr.apply]
  rw [genericStoreR, applyAll_append]
  refine ⟨contexts.trans shifted.toKeepsContexts, ?_, shifted.world.trans world⟩
  rw [shifted.ecx, ecx, contexts.context, flags]

/-- The byte and extended loads: the base is negated for the other direction,
and that sets the carry. -/
theorem addressed_loadR (rd : ctx.rd ≠ 15) (rn : ctx.rn ≠ 15)
    (decoded : ctx.shift.Decoded ctx.imm.toNat) (emitter : Emitter) (state : HostState World) :
    Addressed state (applyAll env (genericLoadR ctx emitter) state)
      (if ctx.uBit then
        state.context.regs ctx.rn + ctx.operand true state.context.regs state.flags.cf
      else
        -state.context.regs ctx.rn +
          ctx.operand true state.context.regs (state.context.regs ctx.rn != 0)) := by
  have split : genericLoadR ctx emitter =
      (.mov ecx (guest ctx.rn) :: if ctx.uBit then [] else [.neg ecx]) ++
        genericLoadstoreShift ctx := by
    simp [genericLoadR, breakIfPc, rd, rn, loadEcxRegOrPc, addEcx]
  let loaded :=
    applyAll env (.mov ecx (guest ctx.rn) :: if ctx.uBit then [] else [.neg ecx]) state
  have shifted := addressed_loadstoreShift env decoded loaded
  have contexts : KeepsContexts state loaded := by
    cases direction : ctx.uBit <;> constructor <;> simp [loaded, direction, HostInstr.apply]
  have world : loaded.world = state.world := by
    cases direction : ctx.uBit <;> simp [loaded, direction, HostInstr.apply]
  rw [split, applyAll_append]
  refine ⟨contexts.trans shifted.toKeepsContexts, ?_, shifted.world.trans world⟩
  rw [shifted.ecx, contexts.context]
  cases direction : ctx.uBit with
  | true => simp [loaded, direction, HostInstr.apply]
  | false =>
      have carry : loaded.flags.cf = (state.context.regs ctx.rn != 0) := by
        rw [Bool.eq_iff_iff, bne_iff_ne]
        simp [loaded, direction, HostInstr.apply, aluFlags, HostFlags.ofResult,
          CarryArithmetic.borrowOut, Nat.pos_iff_ne_zero, ← BitVec.toNat_inj]
      have ecx : loaded.regs .ecx = -state.context.regs ctx.rn := by
        simp [loaded, direction, HostInstr.apply, aluResult]
      simp [carry, ecx]

/-- The word loads load the flags for a rotation, and negate the offset. -/
theorem addressed_loadRs (rd : ctx.rd ≠ 15) (rn : ctx.rn ≠ 15) (rm : ctx.rm ≠ 15)
    (decoded : ctx.shift.Decoded ctx.imm.toNat) (emitter : Emitter) (state : HostState World) :
    Addressed state (applyAll env (genericLoadRs ctx emitter true false) state)
      (ctx.offsetAddress state.context.regs (state.context.x86Flags.getLsbD 8)) := by
  have leaves := shifterLeaves env rm decoded emitter state
  have kept := keepsSurroundings_loadShifterImm env rm emitter state
  have split : genericLoadRs ctx emitter true false = loadShifterImm ctx emitter ++
      ((if ctx.uBit then [] else [.neg eax]) ++ [.alu .add eax (guest ctx.rn), .mov ecx eax]) := by
    simp [genericLoadRs, breakIfPc, rd, rn]
  rw [split, applyAll_append, Context.offsetAddress, ← leaves.eax, ← leaves.context]
  generalize applyAll env (loadShifterImm ctx emitter) state = shifted at *
  cases direction : ctx.uBit with
  | true =>
      refine ⟨⟨?_, ?_⟩, ?_, ?_⟩
      · simp [HostInstr.apply, AluOp.writes, leaves.processor]
      · simp [HostInstr.apply, AluOp.writes, leaves.ebp]
      · simp [HostInstr.apply, AluOp.writes, aluResult, BitVec.add_comm]
      · simp [HostInstr.apply, AluOp.writes, kept.world]
  | false =>
      refine ⟨⟨?_, ?_⟩, ?_, ?_⟩
      · simp [HostInstr.apply, AluOp.writes, leaves.processor]
      · simp [HostInstr.apply, AluOp.writes, leaves.ebp]
      · simp [HostInstr.apply, AluOp.writes, aluResult, BitVec.add_comm, BitVec.sub_eq_add_neg]
      · simp [HostInstr.apply, AluOp.writes, kept.world]

/-! ### Accesses -/

/-- The access goes to this address, and the registers follow from it. -/
structure AccessesAt (ctx : Context) (helper : Helper) (address : BitVec 32)
    (before after : HostState (List (Helper × BitVec 32) × World)) : Prop where
  calls : after.world.1 = before.world.1 ++ [(helper, address)]
  regs : RegsBecome before after
    (ctx.accessRegs helper before.context.regs (before.context.x86Flags.getLsbD 8)
      (env.returned before.world.2 helper address))

/-- The address the code passes. -/
def codeAddress (ctx : Context) (state : HostState World) : BitVec 32 :=
  let regs := state.context.regs
  match ctx.instruction with
  | .strRP | .strbRP | .strxRP => regs ctx.rn + ctx.operand true regs state.flags.cf
  | .ldrbRP | .ldrxRP =>
      if ctx.uBit then regs ctx.rn + ctx.operand true regs state.flags.cf
      else -regs ctx.rn + ctx.operand true regs (regs ctx.rn != 0)
  | _ => ctx.accessAddress regs (state.context.x86Flags.getLsbD 8)

section

variable {helper : Helper} {state middle : HostState (List (Helper × BitVec 32) × World)}
  {address : BitVec 32}

theorem called_of_addressed (addressed : Addressed state middle address)
    (access : helper.loads = true ∨ helper.stores = true) :
    let called := middle.call env.recording helper
    KeepsContexts state called ∧ called.world.1 = state.world.1 ++ [(helper, address)] ∧
      (helper.loads = true → called.regs .eax = env.returned state.world.2 helper address) := by
  have called := called_of_access env access middle
  refine ⟨addressed.toKeepsContexts.trans called.toKeepsContexts, ?_, fun loads => ?_⟩
  · rw [called.record, addressed.world, addressed.ecx]
  · rw [called.eax loads, addressed.world, addressed.ecx]

/-- A store leaves the registers alone. -/
theorem accessesAt_store (addressed : Addressed state middle address)
    (stores : helper.stores = true) (noLoad : helper.loads = false)
    (keeps : ctx.instruction ≠ .ldrR ∧ ctx.instruction ≠ .ldrRPW) :
    AccessesAt env ctx helper address state (middle.call env.recording helper) := by
  obtain ⟨contexts, record, -⟩ := called_of_addressed env addressed (.inr stores)
  refine ⟨record, ?_⟩
  simp only [Context.accessRegs, keeps, noLoad, or_self, if_false, Bool.false_eq_true]
  exact contexts.regsBecome

/-- A load without an update of the base. -/
theorem accessesAt_load (addressed : Addressed state middle address)
    (loads : helper.loads = true) (keeps : ctx.instruction ≠ .ldrR ∧ ctx.instruction ≠ .ldrRPW)
    (extend : List HostInstr)
    (extension : ∀ called : HostState (List (Helper × BitVec 32) × World),
      applyAll env.recording extend called = called.setReg .eax
        (if ctx.instruction = .ldrxRP ∧ ctx.extendMode = .sb then
          ((called.regs .eax).setWidth 8).signExtend 32
        else called.regs .eax)) :
    AccessesAt env ctx helper address state
      (applyAll env.recording (extend ++ [.mov (guest ctx.rd) eax])
        (middle.call env.recording helper)) := by
  obtain ⟨contexts, record, eax⟩ := called_of_addressed env addressed (.inl loads)
  rw [applyAll_append, extension, eax loads]
  constructor
  · simp [HostInstr.apply, record]
  · simp only [Context.accessRegs, keeps, loads, or_self, if_false, if_true]
    rw [← contexts.context]
    refine contexts.andThen ?_
    apply regsBecome_of_write <;> simp [HostInstr.apply]

/-- The base and the loaded value are written one after the other. -/
theorem accessesAt_ldrRPW (addressed : Addressed state middle address)
    (instruction : ctx.instruction = .ldrRPW)
    (whole : address =
      ctx.offsetAddress state.context.regs (state.context.x86Flags.getLsbD 8)) :
    AccessesAt env ctx .load32 address state
      (applyAll env.recording [.mov (guest ctx.rd) eax]
        ((middle.setContext (middle.context.set (.reg ctx.rn) (middle.regs .ecx))).call
          env.recording .load32)) := by
  let written := middle.setContext (middle.context.set (.reg ctx.rn) (middle.regs .ecx))
  have called : Called env .load32 written (written.call env.recording .load32) :=
    called_of_access env (.inl rfl) written
  have based : RegsBecome state written
      (Function.update state.context.regs ctx.rn address) := by
    rw [← addressed.ecx, ← addressed.context]
    refine addressed.toKeepsContexts.andThen ?_
    apply regsBecome_of_write <;> simp [written]
  have world : written.world = state.world := addressed.world
  have ecx : written.regs .ecx = address := addressed.ecx
  have eax := called.eax rfl
  have record := called.record
  rw [world, ecx] at eax record
  refine ⟨?_, ?_⟩
  · simp [HostInstr.apply, written, record]
  · have loaded := based.trans called.regsBecome
    rw [based.context] at loaded
    simp only [Context.accessRegs, instruction, Helper.loads, or_true, if_true, ← whole,
      reduceCtorEq, false_and, if_false]
    rw [← loaded.context, ← eax]
    refine loaded.trans ?_
    apply regsBecome_of_write <;> simp [HostInstr.apply, written]

/-- The post-indexed load keeps the loaded value on the stack while it updates
the base. -/
theorem accessesAt_ldrR (rm : ctx.rm ≠ 15) (decoded : ctx.shift.Decoded ctx.imm.toNat)
    (emitter : Emitter) (addressed : Addressed state middle (state.context.regs ctx.rn))
    (instruction : ctx.instruction = .ldrR) :
    AccessesAt env ctx .load32 (state.context.regs ctx.rn) state
      (applyAll env.recording (genericPostloadShift ctx emitter)
        (middle.call env.recording .load32)) := by
  let called := middle.call env.recording .load32
  let pushed := called.push (called.regs .eax)
  let shifted := applyAll env.recording (loadShifterImm ctx emitter) pushed
  let signed := applyAll env.recording (if ctx.uBit then [] else [.neg eax]) shifted
  let based := (HostInstr.alu .add (guest ctx.rn) eax).apply env.recording signed
  have loads : Helper.loads .load32 = true := rfl
  obtain ⟨contexts, record, eax⟩ := called_of_addressed env addressed (.inl loads)
  have leaves : ShifterLeaves ctx pushed shifted :=
    shifterLeaves env.recording rm decoded emitter pushed
  have kept : KeepsSurroundings pushed shifted :=
    keepsSurroundings_loadShifterImm env.recording rm emitter pushed
  have same : pushed.context = state.context := contexts.context
  have toSigned : KeepsContexts shifted signed := by
    cases direction : ctx.uBit <;> constructor <;> simp [signed, direction, HostInstr.apply]
  have toShifted : KeepsContexts state shifted :=
    (contexts.trans (KeepsContexts.mk rfl rfl : KeepsContexts called pushed)).trans
      leaves.toKeepsContexts
  have all := toShifted.trans toSigned
  have sum : state.context.regs ctx.rn + signed.regs .eax =
      ctx.offsetAddress state.context.regs (state.context.x86Flags.getLsbD 8) := by
    have operand := leaves.eax
    rw [same] at operand
    cases direction : ctx.uBit <;>
      simp [signed, direction, HostInstr.apply, aluResult, operand, Context.offsetAddress,
        BitVec.sub_eq_add_neg]
  have popped : signed.stack signed.esp = called.regs .eax := by
    cases direction : ctx.uBit <;>
      simp [signed, direction, HostInstr.apply, kept.esp, kept.stack, pushed, HostState.push]
  have split : applyAll env.recording (genericPostloadShift ctx emitter) called =
      (HostInstr.pop (guest ctx.rd)).apply env.recording based := by
    simp [genericPostloadShift, based, signed, shifted, pushed, HostInstr.apply]
  have toBased : RegsBecome state based (Function.update state.context.regs ctx.rn
      (ctx.offsetAddress state.context.regs (state.context.x86Flags.getLsbD 8))) := by
    rw [← sum, ← all.context]
    refine all.andThen ?_
    apply regsBecome_of_write <;> simp [based, HostInstr.apply, AluOp.writes, aluResult]
  have world : signed.world = called.world := by
    cases direction : ctx.uBit <;>
      simp [signed, direction, HostInstr.apply, kept.world, pushed, HostState.push]
  have value : based.stack based.esp = env.returned state.world.2 .load32
      (state.context.regs ctx.rn) := by
    rw [← eax loads, ← popped]
    simp [based, HostInstr.apply, AluOp.writes]
  rw [split]
  constructor
  · rw [← record, ← world]
    simp [based, HostInstr.apply, AluOp.writes]
  · simp only [Context.accessRegs, instruction, loads, true_or, if_true, reduceCtorEq, false_and,
      if_false]
    rw [← value, ← toBased.context]
    refine toBased.trans ?_
    apply regsBecome_of_write <;> simp [HostInstr.apply]

end

/-- The second of two assignments to a register stays. -/
theorem setContext_set_set {State : Type} (state : HostState State) (index : Fin 16)
    (first second : BitVec 32) :
    (state.setContext (state.context.set (.reg index) first)).setContext
        ((state.setContext (state.context.set (.reg index) first)).context.set (.reg index)
          second) =
      state.setContext (state.context.set (.reg index) second) := by
  rw [HostState.setContext_context]
  simp [HostState.setContext, EmulationContext.set]

theorem setReg_same {State : Type} (state : HostState State) (register : HostReg) :
    state.setReg register (state.regs register) = state := by
  simp [HostState.setReg]

theorem addressed_loadEcx (rn : ctx.rn ≠ 15) (emitter : Emitter) (state : HostState World) :
    Addressed state (applyAll env (loadEcxRegOrPc emitter ctx.rn 0) state)
      (state.context.regs ctx.rn) := by
  refine ⟨keepsContexts_loadEcxRegOrPc env emitter state rn 0, ?_, ?_⟩
  · rw [loadEcxRegOrPc_ecx env emitter state rn]
    simp
  · simp [loadEcxRegOrPc, rn, addEcx, HostInstr.apply]

theorem body_accessesAt {helper : Helper} (accepted : OffsetAccess ctx helper) (emitter : Emitter)
    (flagsActual : Bool) (state : HostState (List (Helper × BitVec 32) × World)) :
    AccessesAt env ctx helper (codeAddress ctx state) state
      (applyAll env.recording (compileBody ctx emitter flagsActual).code state) := by
  have known := accepted.accessor
  have storing :=
    addressed_storeR env.recording accepted.rd accepted.rn accepted.shift emitter state
  have loading := addressed_loadR env.recording accepted.rd accepted.rn accepted.shift emitter state
  have indexing := addressed_loadRs env.recording accepted.rd accepted.rn accepted.rm
    accepted.shift emitter state
  have basing := addressed_loadEcx env.recording accepted.rn emitter state
  cases kind : ctx.instruction <;> simp only [Context.accessor, kind, Option.some.injEq,
    reduceCtorEq] at known
  case strRP =>
      subst known
      simp only [compileBody, kind, plain, applyAll_append, codeAddress]
      exact accessesAt_store env storing rfl rfl (by simp [kind])
  case strbRP =>
      subst known
      simp only [compileBody, kind, plain, applyAll_append, codeAddress]
      exact accessesAt_store env storing rfl rfl (by simp [kind])
  case strxRP =>
      split at known
      · next half =>
        obtain rfl := Option.some.inj known
        simp only [compileBody, kind, plain, applyAll_append, codeAddress, genericStoreX, half]
        exact accessesAt_store env storing rfl rfl (by simp [kind])
      · simp at known
  case ldrR =>
      subst known
      simp only [compileBody, kind, plain, applyAll_append, applyAll_cons, codeAddress,
        Context.accessAddress, if_true]
      exact accessesAt_ldrR env accepted.rm accepted.shift emitter basing kind
  case ldrRP =>
      subst known
      simp only [compileBody, kind, plain, applyAll_append, codeAddress, Context.accessAddress,
        reduceCtorEq, if_false]
      exact accessesAt_load env indexing rfl (by simp [kind]) [] fun called => by
        simp [kind, setReg_same]
  case ldrRPW =>
      subst known
      have split : genericLoadRs ctx emitter true true =
          genericLoadRs ctx emitter true false ++ [.mov (guest ctx.rn) eax] := by
        simp [genericLoadRs]
      have sum : (applyAll env.recording (genericLoadRs ctx emitter true false) state).regs .eax =
          (applyAll env.recording (genericLoadRs ctx emitter true false) state).regs .ecx := by
        simp [genericLoadRs, HostInstr.apply]
      have whole : codeAddress ctx state =
          ctx.offsetAddress state.context.regs (state.context.x86Flags.getLsbD 8) := by
        simp [codeAddress, kind, Context.accessAddress]
      rw [← whole] at indexing
      have written := accessesAt_ldrRPW env indexing kind whole
      simp only [compileBody, kind, plain, split, applyAll_append, applyAll_cons, applyAll_nil,
        HostInstr.apply, HostState.write_field, HostState.read_reg, HostState.setContext_regs,
        setContext_set_set] at written ⊢
      exact written
  case ldrbRP =>
      subst known
      simp only [compileBody, kind, plain, applyAll_append, codeAddress]
      exact accessesAt_load env loading rfl (by simp [kind]) [] fun called => by
        simp [kind, setReg_same]
  case ldrxRP =>
      simp only [compileBody, kind, plain, applyAll_append, codeAddress, genericLoadX]
      cases mode : ctx.extendMode <;> simp only [mode, Option.some.injEq, reduceCtorEq] at known
      case h =>
          subst known
          exact accessesAt_load env loading rfl (by simp [kind]) [] fun called => by
            simp [mode, setReg_same]
      case sh =>
          subst known
          exact accessesAt_load env loading rfl (by simp [kind]) [] fun called => by
            simp [mode, setReg_same]
      case sb =>
          subst known
          exact accessesAt_load env loading rfl (by simp [kind]) [.movsxEaxAl] fun called => by
            simp [kind, mode, HostInstr.apply]

/-! ### Right addresses -/

/-- The states in which the code of an access goes to the right address. -/
def offsetRight (ctx : Context) (state : HostState World) : Prop :=
  let regs := state.context.regs
  let carry := state.context.x86Flags.getLsbD 8
  let carryHeld := ctx.shift = .rrx → state.flags.cf = carry
  match ctx.instruction with
  | .strRP | .strbRP | .strxRP =>
      if ctx.uBit then carryHeld
      else ctx.operand true regs state.flags.cf + ctx.operand true regs carry = 0
  | .ldrbRP | .ldrxRP =>
      if ctx.uBit then carryHeld
      else
        ctx.operand true regs (regs ctx.rn != 0) + ctx.operand true regs carry =
          regs ctx.rn + regs ctx.rn
  | _ => True

/-- Only a rotation through the carry reads it. -/
theorem operand_eq_iff (regs : Fin 16 → BitVec 32) (held carry : Bool) :
    ctx.operand true regs held = ctx.operand true regs carry ↔
      (ctx.shift = .rrx → held = carry) := by
  cases kind : ctx.shift with
  | rrx =>
      constructor
      · intro same _
        simp only [Context.operand, if_true, kind, Shift.operand] at same
        have high := congrArg (fun word : BitVec (1 + 31) => word.getLsbD 31) same
        simp only [BitVec.getLsbD_append] at high
        simpa using high
      · intro same
        rw [same rfl]
  | lsl => simp [Context.operand, kind, Shift.operand]
  | lsr => simp [Context.operand, kind, Shift.operand]
  | asr => simp [Context.operand, kind, Shift.operand]
  | ror => simp [Context.operand, kind, Shift.operand]

theorem codeAddress_eq_iff {helper : Helper} (accepted : OffsetAccess ctx helper)
    (state : HostState World) :
    codeAddress ctx state =
        ctx.accessAddress state.context.regs (state.context.x86Flags.getLsbD 8) ↔
      offsetRight ctx state := by
  have known := accepted.accessor
  cases kind : ctx.instruction <;> simp only [Context.accessor, kind, reduceCtorEq] at known
  all_goals
    simp only [codeAddress, offsetRight, kind, Context.accessAddress, Context.offsetAddress,
      reduceCtorEq, if_false, if_true]
  case strRP | strbRP | strxRP =>
      split
      · rw [BitVec.add_right_inj, operand_eq_iff]
      · rw [sub_eq_add_neg, BitVec.add_right_inj, eq_neg_iff_add_eq_zero]
  case ldrbRP | ldrxRP =>
      split
      · rw [BitVec.add_right_inj, operand_eq_iff]
      · rw [eq_sub_iff_add_eq, add_assoc, neg_add_eq_iff_eq_add]

theorem straight_genericLoadstoreShift (ctx : Context) : Straight (genericLoadstoreShift ctx) := by
  rw [genericLoadstoreShift]
  split <;> simp [HostInstr.straight, straight_shiftEaxImm, storeCarry]

theorem straight_access {helper : Helper} (accepted : OffsetAccess ctx helper) (emitter : Emitter)
    (flagsActual : Bool) : Straight (compileBody ctx emitter flagsActual).code := by
  have known := accepted.accessor
  have rd := accepted.rd
  have rn := accepted.rn
  have shifter := straight_loadShifterImm emitter accepted.rm
  have adder := straight_genericLoadstoreShift ctx
  cases kind : ctx.instruction <;> simp only [Context.accessor, kind, reduceCtorEq] at known
  case strRP | strbRP =>
      simp [compileBody, kind, plain, genericStoreR, genericStore, breakIfPc, rd, rn,
        loadEcxRegOrPc, addEcx, loadEdxEcxOrReg, HostInstr.straight, adder]
  case strxRP =>
      split at known
      · next half =>
        simp [compileBody, kind, plain, genericStoreR, genericStore, breakIfPc, rd, rn,
          loadEcxRegOrPc, addEcx, loadEdxEcxOrReg, HostInstr.straight, adder, genericStoreX, half]
      · simp at known
  case ldrR =>
      simp [compileBody, kind, plain, rn, loadEcxRegOrPc, addEcx, HostInstr.straight, shifter,
        genericPostloadShift]
  case ldrRP | ldrRPW =>
      simp [compileBody, kind, plain, rd, rn, breakIfPc, genericLoadRs, HostInstr.straight, shifter]
  case ldrbRP =>
      simp [compileBody, kind, plain, genericLoadR, breakIfPc, rd, rn, loadEcxRegOrPc, addEcx,
        HostInstr.straight, adder]
  case ldrxRP =>
      cases mode : ctx.extendMode <;> simp only [mode, reduceCtorEq] at known <;>
        simp [compileBody, kind, plain, genericLoadR, breakIfPc, rd, rn, loadEcxRegOrPc, addEcx,
          HostInstr.straight, adder, genericLoadX, mode]

theorem accesses_iff {helper : Helper} {address : BitVec 32}
    {before after : HostState (List (Helper × BitVec 32) × World)}
    (done : AccessesAt env ctx helper address before after) :
    Accesses env ctx helper before after ↔
      address = ctx.accessAddress before.context.regs (before.context.x86Flags.getLsbD 8) := by
  constructor
  · intro accesses
    have record := done.calls.symm.trans accesses.calls
    simpa using record
  · rintro rfl
    exact ⟨done.calls, done.regs⟩

/-- An executed access with a register offset goes to its address, with its
updates, exactly in the states above, with the host flags as its test leaves
them. -/
theorem registerOffset_iff (env : HostEnv World) (ctx : Context) (emitter : Emitter)
    (flagsUpdated : Bool) {helper : Helper} (accepted : OffsetAccess ctx helper)
    (state : HostState (List (Helper × BitVec 32) × World))
    (executed : Executed env.recording ctx emitter flagsUpdated state) :
    (∃ after,
      Finishes (hostIsa env.recording) (compileInstruction ctx emitter flagsUpdated).code
          state after ∧
        Accesses env ctx helper state after) ↔
      offsetRight ctx (behindTest ctx emitter flagsUpdated state) := by
  let held := flagsHeld emitter flagsUpdated || conditional ctx
  let tested := applyAll env.recording (testCode ctx emitter flagsUpdated) state
  have kept : KeepsGuest state tested :=
    keepsGuest_testCode env.recording ctx emitter flagsUpdated state
  have around : KeepsSurroundings state tested :=
    keepsSurroundings_testCode env.recording ctx emitter flagsUpdated state
  have run : Finishes (hostIsa env.recording) (compileInstruction ctx emitter flagsUpdated).code
      state (applyAll env.recording (compileBody ctx emitter held).code tested) :=
    finishes_executed env.recording executed (straight_access accepted emitter held)
  have right : offsetRight ctx tested ↔
      offsetRight ctx (behindTest ctx emitter flagsUpdated state) := by
    have carry : tested.flags.cf = (flagsBehindTest ctx emitter flagsUpdated state).cf :=
      testCode_cf env.recording state
    rw [offsetRight, offsetRight, kept.context, carry, behindTest_context, behindTest_flags]
  have body := body_accessesAt env accepted emitter held tested
  have done : AccessesAt env ctx helper (codeAddress ctx tested) state
      (applyAll env.recording (compileBody ctx emitter held).code tested) := by
    have calls := body.calls
    have regs := body.regs
    rw [kept.context, around.world] at regs
    rw [around.world] at calls
    exact ⟨calls, kept.toKeepsContexts.andThen regs⟩
  rw [← right, ← codeAddress_eq_iff accepted, kept.context, ← accesses_iff env done]
  constructor
  · rintro ⟨after, other, accesses⟩
    rwa [← run.unique (hostIsa env.recording) other] at accesses
  · intro accesses
    exact ⟨_, run, accesses⟩

/-- `str r0, [r1, -r2]`. -/
def storeBelow : Context := { constantOne .strRP with rm := 2, imm := 0 }

/-- `str r0, [r1, r2, rrx]` under a condition. -/
def storeRotated (cond : Condition) : Context :=
  { storeBelow with cond := cond, shift := .rrx, uBit := true }

theorem storeBelow_offsetAccess : OffsetAccess storeBelow .store32 := by
  constructor <;> decide

theorem storeRotated_offsetAccess (cond : Condition) :
    OffsetAccess (storeRotated cond) .store32 := by
  constructor <;> simp [storeRotated, storeBelow, constantOne, Context.accessor, Shift.Decoded]

/-- Nothing has been recorded. -/
def unrecorded (state : HostState World) : HostState (List (Helper × BitVec 32) × World) :=
  { state with world := ([], state.world) }

/-- Under `NE` the carry of the test is the stored one. -/
theorem registerOffset_iff_rotated :
    ∃ after,
      Finishes (hostIsa (HostEnv.idle).recording)
          (compileInstruction (storeRotated .ne) ⟨2, 0, false⟩ false).code
          (unrecorded (uniformFlags 4 0x100)) after ∧
        Accesses .idle (storeRotated .ne) .store32 (unrecorded (uniformFlags 4 0x100)) after :=
  (registerOffset_iff .idle (storeRotated .ne) ⟨2, 0, false⟩ false
    (storeRotated_offsetAccess .ne) (unrecorded (uniformFlags 4 0x100)) (by decide)).mpr
    fun _ => by decide

/-- With 4 in both registers the store below goes to 8 in place of 0.  Under `HI`
the rotation takes the complement of the carry. -/
theorem registerOffset_fail_below :
    OffsetAccess storeBelow .store32 ∧ OffsetAccess (storeRotated .hi) .store32 ∧
      (¬∃ after,
        Finishes (hostIsa (HostEnv.idle).recording)
            (compileInstruction storeBelow ⟨2, 0, false⟩ false).code
            (unrecorded (uniform 4 : HostState Unit)) after ∧
          Accesses .idle storeBelow .store32 (unrecorded (uniform 4 : HostState Unit)) after) ∧
      ¬∃ after,
        Finishes (hostIsa (HostEnv.idle).recording)
            (compileInstruction (storeRotated .hi) ⟨2, 0, false⟩ false).code
            (unrecorded (uniformFlags 4 0x100)) after ∧
          Accesses .idle (storeRotated .hi) .store32 (unrecorded (uniformFlags 4 0x100)) after := by
  have below := storeBelow_offsetAccess
  have rotated := storeRotated_offsetAccess .hi
  refine ⟨below, rotated, ?_, ?_⟩
  · rintro ⟨after, run, accesses⟩
    have executed : Executed (HostEnv.idle).recording storeBelow ⟨2, 0, false⟩ false
        (unrecorded (uniform 4 : HostState Unit)) := by decide
    have ends := finishes_executed _ executed (straight_access below _ _)
    have record := accesses.calls
    rw [run.unique _ ends] at record
    revert record
    decide
  · rintro ⟨after, run, accesses⟩
    have executed : Executed (HostEnv.idle).recording (storeRotated .hi) ⟨2, 0, false⟩ false
        (unrecorded (uniformFlags 4 0x100)) := by decide
    have ends := finishes_executed _ executed (straight_access rotated _ _)
    have record := accesses.calls
    rw [run.unique _ ends] at record
    revert record
    decide

end Compiler

end Ndse
