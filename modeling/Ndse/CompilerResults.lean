import Ndse.HostStraight
import Ndse.ProcessorBanking

/-!
# Results of translated data processing instructions

The code of a data processing instruction computes what the architecture says,
with two exceptions: a reversed subtraction from a constant other than zero into
another register has no code at all, and a rotation of a register into itself
through the carry is taken for a move of the register to itself.
-/

namespace Ndse

open CarryArithmetic FlatCode

namespace Compiler

variable {World : Type}

/-! ### Writing guest registers -/

/-- The registers of the current context become these, and those of all other
contexts stay. -/
structure RegsBecome (before after : HostState World) (regs : Fin 16 → BitVec 32) : Prop where
  ebp : after.ebp = before.ebp
  regs : ∀ mode, (after.processor.context mode).regs =
    if mode = before.ebp then regs else (before.processor.context mode).regs

theorem RegsBecome.context {before after : HostState World} {regs : Fin 16 → BitVec 32}
    (become : RegsBecome before after regs) : after.context.regs = regs := by
  rw [HostState.context, become.regs, if_pos become.ebp]

theorem RegsBecome.trans {first second third : HostState World} {regs next : Fin 16 → BitVec 32}
    (one : RegsBecome first second regs) (two : RegsBecome second third next) :
    RegsBecome first third next where
  ebp := two.ebp.trans one.ebp
  regs := by
    intro mode
    rw [two.regs, one.regs, one.ebp]
    split <;> rfl

theorem KeepsContexts.regsBecome {before after : HostState World}
    (keeps : KeepsContexts before after) : RegsBecome before after before.context.regs where
  ebp := keeps.ebp
  regs := by
    intro mode
    rw [keeps.processor]
    split
    · next current => rw [current, HostState.context]
    · rfl

/-- A computation in front of code that writes registers. -/
theorem KeepsContexts.andThen {before middle after : HostState World}
    {regs : Fin 16 → BitVec 32} (keeps : KeepsContexts before middle)
    (become : RegsBecome middle after regs) : RegsBecome before after regs :=
  keeps.regsBecome.trans become

/-- The processor of a state after one assignment to a register. -/
theorem regsBecome_of_write {before after : HostState World} {index : Fin 16}
    {value : BitVec 32} (ebp : after.ebp = before.ebp)
    (processor : after.processor =
      (before.setContext (before.context.set (.reg index) value)).processor) :
    RegsBecome before after (Function.update before.context.regs index value) where
  ebp := ebp
  regs := by
    intro mode
    rw [processor, HostState.setContext_processor_regs]
    rfl

/-- Code that leaves all guest registers alone. -/
def KeepsRegs (env : HostEnv World) (code : List HostInstr) : Prop :=
  ∀ state : HostState World, RegsBecome state (applyAll env code state) state.context.regs

variable (env : HostEnv World) (ctx : Context) (emitter : Emitter) (state : HostState World)

theorem keepsRegs_nil : KeepsRegs env [] := fun _ => KeepsContexts.regsBecome ⟨rfl, rfl⟩

theorem keepsRegs_storeFlags : KeepsRegs env (storeFlags emitter) := by
  intro state
  rw [storeFlags]
  split
  · exact keepsRegs_nil env state
  · constructor
    · simp [HostInstr.apply]
    · intro mode
      by_cases current : mode = state.ebp <;> simp [current, HostInstr.apply]

theorem keepsRegs_loadCarry : KeepsRegs env loadCarry := by
  intro state
  apply KeepsContexts.regsBecome
  constructor <;> simp [loadCarry, HostInstr.apply]

theorem keepsRegs_orZero (index : Fin 16) :
    KeepsRegs env [.alu .or (guest index) (.imm8 0)] := by
  intro state
  have written : RegsBecome state (applyAll env [.alu .or (guest index) (.imm8 0)] state)
      (Function.update state.context.regs index (state.context.regs index)) := by
    apply regsBecome_of_write <;> simp [HostInstr.apply, AluOp.writes, aluResult]
  rwa [Function.update_eq_self] at written

theorem keepsRegs_cmc : KeepsRegs env [.cmc] := by
  intro state
  apply KeepsContexts.regsBecome
  constructor <;> simp [HostInstr.apply]

/-- The address computations leave their sum in `ecx`. -/
theorem loadEcxRegOrPc_ecx {reg : Fin 16} (guest : reg ≠ 15) (offset : BitVec 32) :
    (applyAll env (loadEcxRegOrPc emitter reg offset) state).regs .ecx =
      state.context.regs reg + offset := by
  rw [loadEcxRegOrPc, if_pos guest, addEcx]
  by_cases zero : offset = 0#32
  · simp [zero, HostInstr.apply]
  · simp [zero, HostInstr.apply, AluOp.writes, aluResult]

theorem keepsContexts_loadEcxRegOrPc {reg : Fin 16} (guest : reg ≠ 15) (offset : BitVec 32) :
    KeepsContexts state (applyAll env (loadEcxRegOrPc emitter reg offset) state) := by
  rw [loadEcxRegOrPc, if_pos guest, addEcx]
  split <;> constructor <;> simp [HostInstr.apply, AluOp.writes]

variable {env ctx emitter state}

theorem RegsBecome.followed {before after : HostState World} {code : List HostInstr}
    {regs : Fin 16 → BitVec 32} (become : RegsBecome before after regs)
    (kept : KeepsRegs env code) : RegsBecome before (applyAll env code after) regs := by
  have next := kept after
  rw [become.context] at next
  exact become.trans next

/-- The flags are stored without touching the registers. -/
theorem regsBecome_flagging {setFlags : Bool} {code final : List HostInstr}
    {regs : Fin 16 → BitVec 32} (become : RegsBecome state (applyAll env code state) regs)
    (kept : KeepsRegs env final) :
    RegsBecome state (applyAll env (flagging emitter setFlags code final).code state) regs := by
  rw [flagging]
  split
  · rw [applyAll_append, applyAll_append]
    exact (become.followed kept).followed (keepsRegs_storeFlags env emitter)
  · exact become

/-! ### Immediate operands -/

theorem logicalI_regs {op : AluOp} (writes : op.writes = true) (rn : ctx.rn ≠ 15)
    (rd : ctx.rd ≠ 15) :
    RegsBecome state (applyAll env (logicalI ctx op) state)
      (Function.update state.context.regs ctx.rd
        (aluResult op state.flags (state.context.regs ctx.rn) ctx.imm)) := by
  rw [logicalI, breakIfPc, breakIfPc, if_neg rn, if_neg rd]
  by_cases same : ctx.rn = ctx.rd
  · apply regsBecome_of_write <;> simp [same, HostInstr.apply, writes]
  · apply regsBecome_of_write <;> simp [same, HostInstr.apply, writes]

theorem addSubI_regs {op : AluOp} {offset : BitVec 32} (writes : op.writes = true)
    (rn : ctx.rn ≠ 15) (rd : ctx.rd ≠ 15)
    (sum : ∀ a flags, aluResult op flags a ctx.imm = a + offset) :
    RegsBecome state (applyAll env (addSubI ctx emitter op offset) state)
      (Function.update state.context.regs ctx.rd (state.context.regs ctx.rn + offset)) := by
  rw [addSubI, breakIfPc, if_neg rd, List.nil_append]
  by_cases same : ctx.rn = ctx.rd
  · rw [if_pos same, breakIfPc, if_neg rn]
    apply regsBecome_of_write <;> simp [same, HostInstr.apply, writes, sum]
  · rw [if_neg same, applyAll_append]
    have kept := keepsContexts_loadEcxRegOrPc env emitter state rn offset
    rw [← loadEcxRegOrPc_ecx env emitter state rn, ← kept.context]
    exact kept.andThen (by apply regsBecome_of_write <;> simp [HostInstr.apply])

/-- The carry is added after the constant; the sum is the same. -/
theorem adcICode_regs (rn : ctx.rn ≠ 15) (rd : ctx.rd ≠ 15) :
    RegsBecome state (applyAll env (adcICode ctx emitter) state)
      (Function.update state.context.regs ctx.rd
        (addCarry (state.context.regs ctx.rn) ctx.imm (state.context.x86Flags.getLsbD 8))) := by
  rw [adcICode, breakIfPc, if_neg rd, List.nil_append]
  by_cases same : ctx.rn = ctx.rd
  · rw [if_pos same, breakIfPc, if_neg rn, List.nil_append, applyAll_append]
    have loaded := keepsGuest_loadFlags env state
    rw [← loaded.context]
    apply loaded.andThen
    apply regsBecome_of_write <;>
      simp [same, HostInstr.apply, AluOp.writes, aluResult, loadFlags_flags, loadedFlags,
        loaded.context]
  · rw [if_neg same, applyAll_append, applyAll_append]
    have sum := keepsContexts_loadEcxRegOrPc env emitter state rn ctx.imm
    have loaded := keepsGuest_loadFlags env
      (applyAll env (loadEcxRegOrPc emitter ctx.rn ctx.imm) state)
    have kept := sum.trans loaded.toKeepsContexts
    have carried : addCarry (state.context.regs ctx.rn) ctx.imm
          (state.context.x86Flags.getLsbD 8) =
        addCarry (state.context.regs ctx.rn + ctx.imm) 0 (state.context.x86Flags.getLsbD 8) := by
      simp [addCarry]
    rw [carried, ← kept.context]
    apply kept.andThen
    apply regsBecome_of_write <;>
      simp [HostInstr.apply, AluOp.writes, aluResult, loadFlags_flags, loadedFlags,
        loaded.context, loaded.ecx, loadEcxRegOrPc_ecx env emitter state rn, sum.context]

/-- A reversed subtraction, where there is code for it. -/
theorem rsbI_regs (rn : ctx.rn ≠ 15) (rd : ctx.rd ≠ 15)
    (emitted : ctx.imm ≠ 0 → ctx.rn = ctx.rd) :
    RegsBecome state (applyAll env (rsbI ctx emitter).code state)
      (Function.update state.context.regs ctx.rd (ctx.imm - state.context.regs ctx.rn)) := by
  rw [rsbI]
  by_cases zero : ctx.imm = 0
  · rw [if_pos zero]
    refine regsBecome_flagging ?_ (keepsRegs_nil env)
    rw [breakIfPc, breakIfPc, if_neg rn, if_neg rd]
    by_cases same : ctx.rn = ctx.rd
    · apply regsBecome_of_write <;>
        simp [same, zero, HostInstr.apply, aluResult]
    · apply regsBecome_of_write <;>
        simp [same, zero, HostInstr.apply, aluResult]
  · rw [if_neg zero, if_pos (emitted zero), breakIfPc, breakIfPc, if_neg rn, if_neg rd]
    apply regsBecome_of_write <;>
      simp [plain, HostInstr.apply, AluOp.writes, aluResult]

/-- Without a shifted operand. -/
theorem immediate_regs {op : DataOp} (accepted : ctx.AlwaysData op false)
    (emitted : ctx.instruction = .rsbI → ctx.imm ≠ 0 → ctx.rn = ctx.rd) :
    RegsBecome state (applyAll env (compileBody ctx emitter false).code state)
      (ctx.dataRegs op false state.context.regs (state.context.x86Flags.getLsbD 8)) := by
  have known := accepted.instruction
  have rn := accepted.rn
  have rd := accepted.rd
  have sub (a : BitVec 32) (flags : HostFlags) :
      aluResult .sub flags a ctx.imm = a + -ctx.imm := by
    rw [aluResult, subBorrow_false, BitVec.sub_eq_add_neg]
  cases kind : ctx.instruction <;> simp only [kind, Inst.dataOp, Option.some.injEq,
    Prod.mk.injEq, reduceCtorEq, and_false, and_true] at known
  all_goals
    subst known
    simp only [DataOp.reads, DataOp.writes, forall_const, Bool.false_eq_true, false_imp_iff]
      at rn rd
    simp only [compileBody, kind, Context.dataRegs, DataOp.writes, if_true, if_false,
      Context.dataResult, DataOp.result, Context.operand, Bool.false_eq_true]
  case andI => exact regsBecome_flagging (logicalI_regs rfl rn rd) (keepsRegs_nil env)
  case eorI => exact regsBecome_flagging (logicalI_regs rfl rn rd) (keepsRegs_nil env)
  case orrI => exact regsBecome_flagging (logicalI_regs rfl rn rd) (keepsRegs_nil env)
  case subI =>
      rw [BitVec.sub_eq_add_neg]
      exact regsBecome_flagging (addSubI_regs rfl rn rd sub) (keepsRegs_nil env)
  case addI =>
      exact regsBecome_flagging (addSubI_regs rfl rn rd fun a _ => addCarry_false a _)
        (keepsRegs_nil env)
  case adcI => exact regsBecome_flagging (adcICode_regs rn rd) (keepsRegs_nil env)
  case rsbI => exact rsbI_regs rn rd (emitted kind)
  case sbcI =>
      refine regsBecome_flagging ?_ (keepsRegs_cmc env)
      rw [loadFlagsUnless, if_neg (by simp), applyAll_append, addCarry_not_eq_subBorrow]
      have loaded := keepsGuest_loadFlags env state
      rw [← loaded.context]
      apply loaded.andThen
      apply regsBecome_of_write <;>
        simp [HostInstr.apply, AluOp.writes, aluResult, loadFlags_flags, loadedFlags,
          loaded.context]
  case bicI =>
      refine regsBecome_flagging ?_ (keepsRegs_nil env)
      rw [breakIfPc, breakIfPc, if_neg rn, if_neg rd]
      apply regsBecome_of_write <;> simp [HostInstr.apply, AluOp.writes, aluResult]
  case movI =>
      refine regsBecome_flagging ?_ (keepsRegs_orZero env ctx.rd)
      rw [breakIfPc, if_neg rd]
      apply regsBecome_of_write <;> simp [HostInstr.apply]
  case mvnI =>
      rw [breakIfPc, if_neg rd]
      apply regsBecome_of_write <;> simp [plain, HostInstr.apply]
  all_goals
    -- a comparison
    refine regsBecome_flagging ?_ ?_
    · rw [breakIfPc, if_neg rn]
      apply KeepsContexts.regsBecome
      constructor <;> simp [HostInstr.apply, AluOp.writes]
    · first | exact keepsRegs_nil env | exact keepsRegs_cmc env

/-! ### Shifted registers -/

theorem logicalR_regs (op : AluOp) (writes : op.writes = true)
    (commutes : ∀ a b, aluResult op state.flags a b = aluResult op state.flags b a) :
    RegsBecome state (applyAll env (logicalR ctx op) state)
      (Function.update state.context.regs ctx.rd
        (aluResult op state.flags (state.context.regs ctx.rn) (state.regs .eax))) := by
  rw [logicalR]
  by_cases same : ctx.rn = ctx.rd
  · apply regsBecome_of_write <;> simp [same, HostInstr.apply, writes]
  · apply regsBecome_of_write <;>
      simp [same, HostInstr.apply, writes, commutes (state.regs .eax)]

/-- The operations whose first operand is the guest register. -/
theorem minusR_regs (op : AluOp) {register : HostReg} (writes : op.writes = true)
    (free : register ≠ .edx) :
    RegsBecome state
      (applyAll env
        (if ctx.rn = ctx.rd then [.alu op (guest ctx.rn) (.reg register)]
        else [.mov edx (guest ctx.rn), .alu op edx (.reg register), .mov (guest ctx.rd) edx]) state)
      (Function.update state.context.regs ctx.rd
        (aluResult op state.flags (state.context.regs ctx.rn) (state.regs register))) := by
  by_cases same : ctx.rn = ctx.rd
  · apply regsBecome_of_write <;> simp [same, HostInstr.apply, writes]
  · apply regsBecome_of_write <;> simp [same, HostInstr.apply, writes, free]

/-- The operations whose first operand is in `eax`. -/
theorem reversedR_regs (op : AluOp) {source : Operand} (writes : op.writes = true) :
    RegsBecome state (applyAll env [.alu op eax source, .mov (guest ctx.rd) eax] state)
      (Function.update state.context.regs ctx.rd
        (aluResult op state.flags (state.regs .eax) (state.read source))) := by
  apply regsBecome_of_write <;> simp [HostInstr.apply, writes]

/-- The shifter in front of code that writes the destination. -/
theorem shifted_regs {code : List HostInstr} {op : DataOp}
    (accepted : ctx.AlwaysData op true) (writes : op.writes = true)
    (rest : ∀ middle : HostState World, RegsBecome middle (applyAll env code middle)
      (Function.update middle.context.regs ctx.rd
        (op.result (middle.context.regs ctx.rn) (middle.regs .eax)
          (middle.context.x86Flags.getLsbD 8)))) :
    RegsBecome state (applyAll env (loadShifterImm ctx emitter ++ code) state)
      (ctx.dataRegs op true state.context.regs (state.context.x86Flags.getLsbD 8)) := by
  have rm := accepted.rm rfl
  have kept := keepsGuest_loadShifterImm env ctx emitter state rm
  rw [applyAll_append, Context.dataRegs_of_writes writes, Context.dataResult,
    ← loadShifterImm_eax env ctx emitter state rm (accepted.shift rfl), ← kept.context]
  exact kept.andThen (rest _)

/-- A move is left out when it does nothing. -/
theorem movR_regs (accepted : ctx.AlwaysData .mov true) (instruction : ctx.instruction = .movR)
    (rotates : ctx.rd = ctx.rm → ctx.shift ≠ .rrx) :
    RegsBecome state (applyAll env (movR ctx emitter).code state)
      (ctx.dataRegs .mov true state.context.regs (state.context.x86Flags.getLsbD 8)) := by
  have rd := accepted.rd rfl
  rw [movR]
  by_cases still : ctx.rd = ctx.rm ∧ ctx.imm = 0
  · have decoded := accepted.shift rfl
    have shift : ctx.shift = .lsl := by
      rw [still.2] at decoded
      have known := rotates still.1
      cases kind : ctx.shift <;> simp_all [Shift.Decoded]
    have magic : ctx.rd ≠ 12 := by
      intro magic
      exact accepted.noMagic ⟨instruction, magic, still.1 ▸ magic, shift, still.2⟩
    have same : ctx.dataRegs .mov true state.context.regs (state.context.x86Flags.getLsbD 8) =
        state.context.regs := by
      simp [Context.dataRegs, DataOp.writes, Context.dataResult, DataOp.result, Context.operand,
        shift, still.2, Shift.operand, ← still.1]
    rw [if_pos still, if_neg magic, same]
    exact KeepsContexts.regsBecome ⟨rfl, rfl⟩
  · rw [if_neg still]
    refine regsBecome_flagging ?_ ?_
    · rw [movRCode, if_neg rd, List.append_assoc]
      apply shifted_regs accepted rfl
      intro middle
      rw [applyAll_append]
      refine RegsBecome.followed ?_ (keepsRegs_loadCarry env)
      apply regsBecome_of_write <;> simp [HostInstr.apply, DataOp.result]
    · split
      · intro after
        apply KeepsContexts.regsBecome
        constructor <;> simp [HostInstr.apply, AluOp.writes]
      · exact keepsRegs_nil env

theorem mvnRCode_regs (accepted : ctx.AlwaysData .mvn true) :
    RegsBecome state (applyAll env (mvnRCode ctx emitter) state)
      (ctx.dataRegs .mvn true state.context.regs (state.context.x86Flags.getLsbD 8)) := by
  have rd := accepted.rd rfl
  rw [mvnRCode, breakIfPc, if_neg rd, List.nil_append, applyAll_append]
  refine RegsBecome.followed ?_ (keepsRegs_loadCarry env)
  by_cases memory : ctx.rd = ctx.rm ∧ ctx.shift = .lsl ∧ ctx.imm = 0
  · rw [if_pos memory, Context.dataRegs_of_writes rfl]
    apply regsBecome_of_write <;>
      simp [HostInstr.apply, Context.dataResult, DataOp.result, Context.operand, memory.2.1,
        memory.2.2, Shift.operand, ← memory.1]
  · rw [if_neg memory]
    apply shifted_regs accepted rfl
    intro middle
    apply regsBecome_of_write <;> simp [HostInstr.apply, DataOp.result]

/-- What is left of a state when the operand is set aside and the carry loaded. -/
structure CarryLoaded (before after : HostState World) (register : HostReg) (carry : Bool) :
    Prop extends KeepsContexts before after where
  operand : after.regs register = before.regs .eax
  carry : after.flags.cf = carry

/-- The operand is saved on the stack while the flags are loaded. -/
theorem carryLoaded_stack (env : HostEnv World) (state : HostState World) :
    CarryLoaded state (applyAll env (.push eax :: loadFlags ++ [.pop eax]) state) .eax
      (state.context.x86Flags.getLsbD 8) := by
  have flags := loadFlags_flags env ((HostInstr.push eax).apply env state)
  refine ⟨⟨?_, ?_⟩, ?_, ?_⟩
  · simp [loadFlags, HostInstr.apply, HostState.push]
  · simp [loadFlags, HostInstr.apply, HostState.push]
  · simp [loadFlags, HostInstr.apply, HostState.push]
  · rw [List.cons_append, applyAll_cons, applyAll_append]
    exact congrArg HostFlags.cf flags

/-- The operand is moved to `ecx` while the borrow is loaded. -/
theorem carryLoaded_ecx (env : HostEnv World) (state : HostState World) :
    CarryLoaded state (applyAll env ([.mov ecx eax] ++ loadFlags ++ [.cmc]) state) .ecx
      (!state.context.x86Flags.getLsbD 8) := by
  have flags := loadFlags_flags env (applyAll env [.mov ecx eax] state)
  refine ⟨⟨?_, ?_⟩, ?_, ?_⟩
  · simp [loadFlags, HostInstr.apply]
  · simp [loadFlags, HostInstr.apply]
  · simp [loadFlags, HostInstr.apply]
  · rw [applyAll_append, applyAll_append]
    exact congrArg (!HostFlags.cf ·) flags

theorem adcR_split :
    .push eax :: loadFlags ++ .pop eax :: logicalR ctx .adc =
      (.push eax :: loadFlags ++ [.pop eax]) ++ logicalR ctx .adc := by simp

theorem adcR_regs :
    RegsBecome state
      (applyAll env (.push eax :: loadFlags ++ .pop eax :: logicalR ctx .adc) state)
      (Function.update state.context.regs ctx.rd
        (addCarry (state.context.regs ctx.rn) (state.regs .eax)
          (state.context.x86Flags.getLsbD 8))) := by
  have loaded := carryLoaded_stack env state
  rw [adcR_split, applyAll_append, ← loaded.operand, ← loaded.carry, ← loaded.context]
  exact loaded.andThen (logicalR_regs .adc rfl fun a b => addCarry_comm a b _)

theorem sbcR_split (code : List HostInstr) :
    .mov ecx eax :: loadFlagsUnless false ++ .cmc :: code =
      ([.mov ecx eax] ++ loadFlags ++ [.cmc]) ++ code := by simp [loadFlagsUnless]

theorem sbcR_regs :
    RegsBecome state
      (applyAll env
        (.mov ecx eax :: loadFlagsUnless false ++ .cmc ::
          if ctx.rn = ctx.rd then [.alu .sbb (guest ctx.rn) ecx]
          else [.mov edx (guest ctx.rn), .alu .sbb edx ecx, .mov (guest ctx.rd) edx]) state)
      (Function.update state.context.regs ctx.rd
        (addCarry (state.context.regs ctx.rn) (~~~state.regs .eax)
          (state.context.x86Flags.getLsbD 8))) := by
  have loaded := carryLoaded_ecx env state
  rw [sbcR_split, applyAll_append, ← loaded.operand, addCarry_not_eq_subBorrow, ← loaded.carry,
    ← loaded.context]
  exact loaded.andThen (minusR_regs .sbb rfl (by decide))

/-- The register and the borrow in `ecx`, in front of the shifter. -/
theorem borrowed_ecx (env : HostEnv World) (ctx : Context) (held : Bool)
    (state : HostState World) :
    (applyAll env
        (loadFlagsUnless held ++ [.cmc, .mov ecx (guest ctx.rn), .alu .adc ecx (.imm8 0)])
        state).regs .ecx =
      addCarry (state.context.regs ctx.rn) 0 (!carryTaken held state) := by
  have kept := keepsGuest_loadFlagsUnless env held state
  rw [applyAll_append]
  simp [HostInstr.apply, AluOp.writes, aluResult, loadFlagsUnless_cf, kept.context]

theorem keepsContexts_borrowed (env : HostEnv World) (ctx : Context) (held : Bool)
    (state : HostState World) :
    KeepsContexts state
      (applyAll env
        (loadFlagsUnless held ++ [.cmc, .mov ecx (guest ctx.rn), .alu .adc ecx (.imm8 0)])
        state) := by
  have kept := keepsGuest_loadFlagsUnless env held state
  rw [applyAll_append]
  constructor <;> simp [HostInstr.apply, AluOp.writes, kept.processor, kept.ebp]

/-- The register and the borrow are added up before the shifter runs. -/
theorem rscR_regs (accepted : ctx.AlwaysData .rsc true) :
    RegsBecome state
      (applyAll env
        (loadFlagsUnless false ++ [.cmc, .mov ecx (guest ctx.rn), .alu .adc ecx (.imm8 0)] ++
          loadShifterImm ctx emitter ++ [.alu .sub eax ecx, .mov (guest ctx.rd) eax]) state)
      (ctx.dataRegs .rsc true state.context.regs (state.context.x86Flags.getLsbD 8)) := by
  have rm := accepted.rm rfl
  have sum := borrowed_ecx env ctx false state
  have kept := keepsContexts_borrowed env ctx false state
  have carry : carryTaken false state = state.context.x86Flags.getLsbD 8 := rfl
  rw [List.append_assoc, applyAll_append]
  generalize applyAll env
    (loadFlagsUnless false ++ [.cmc, .mov ecx (guest ctx.rn), .alu .adc ecx (.imm8 0)]) state =
      borrowed at sum kept ⊢
  rw [carry, ← kept.context] at sum
  rw [← kept.context]
  apply kept.andThen
  have shifter := keepsGuest_loadShifterImm env ctx emitter borrowed rm
  rw [applyAll_append, Context.dataRegs_of_writes rfl, Context.dataResult,
    ← loadShifterImm_eax env ctx emitter _ rm (accepted.shift rfl), DataOp.result,
    addCarry_comm, addCarry_not_eq_subBorrow, ← sub_addCarry_zero, ← sum, ← shifter.ecx,
    ← shifter.context, ← subBorrow_false]
  exact shifter.andThen (reversedR_regs .sub rfl)

/-- A comparison only computes. -/
theorem compareR_regs {op : DataOp} {final : List HostInstr} {compare : HostInstr}
    (accepted : ctx.AlwaysData op true) (reads : op.reads = true) (writes : op.writes = false)
    (kept : KeepsRegs env final)
    (computes : ∀ middle : HostState World, KeepsContexts middle (compare.apply env middle)) :
    RegsBecome state
      (applyAll env (flagging emitter true
        (breakIfPc ctx.rn ++ loadShifterImm ctx emitter ++ [compare]) final).code state)
      (ctx.dataRegs op true state.context.regs (state.context.x86Flags.getLsbD 8)) := by
  have shifter := keepsGuest_loadShifterImm env ctx emitter state (accepted.rm rfl)
  refine regsBecome_flagging ?_ kept
  rw [breakIfPc, if_neg (accepted.rn reads), List.nil_append, applyAll_append, Context.dataRegs,
    writes]
  exact (shifter.toKeepsContexts.trans (computes _)).regsBecome

/-- With a shifted operand. -/
theorem register_regs {op : DataOp} (accepted : ctx.AlwaysData op true)
    (rotates : ctx.instruction = .movR → ctx.rd = ctx.rm → ctx.shift ≠ .rrx) :
    RegsBecome state (applyAll env (compileBody ctx emitter false).code state)
      (ctx.dataRegs op true state.context.regs (state.context.x86Flags.getLsbD 8)) := by
  have known := accepted.instruction
  have rn := accepted.rn
  have rd := accepted.rd
  cases kind : ctx.instruction <;> simp only [kind, Inst.dataOp, Option.some.injEq,
    Prod.mk.injEq, reduceCtorEq, and_false, and_true, Bool.false_eq_true] at known
  all_goals
    subst known
    simp only [DataOp.reads, DataOp.writes, forall_const, Bool.false_eq_true, false_imp_iff]
      at rn rd
    simp only [compileBody, kind]
  case andR =>
      refine regsBecome_flagging ?_ (keepsRegs_nil env)
      rw [List.append_assoc]
      apply shifted_regs accepted rfl
      intro middle
      rw [applyAll_append]
      refine RegsBecome.followed ?_ (keepsRegs_loadCarry env)
      exact logicalR_regs _ rfl BitVec.and_comm
  case eorR =>
      refine regsBecome_flagging ?_ (keepsRegs_nil env)
      rw [List.append_assoc]
      apply shifted_regs accepted rfl
      intro middle
      rw [applyAll_append]
      refine RegsBecome.followed ?_ (keepsRegs_loadCarry env)
      exact logicalR_regs _ rfl BitVec.xor_comm
  case bicR =>
      refine regsBecome_flagging ?_ (keepsRegs_nil env)
      rw [List.append_assoc]
      apply shifted_regs accepted rfl
      intro middle
      rw [List.cons_append, applyAll_cons, applyAll_append]
      refine RegsBecome.followed ?_ (keepsRegs_loadCarry env)
      have kept : KeepsContexts middle ((HostInstr.not eax).apply env middle) := ⟨rfl, rfl⟩
      exact kept.andThen (logicalR_regs _ rfl BitVec.and_comm)
  case addR =>
      refine regsBecome_flagging (shifted_regs accepted rfl fun middle => ?_) (keepsRegs_nil env)
      rw [DataOp.result, ← addCarry_false]
      exact logicalR_regs .add rfl fun a b => addCarry_comm a b _
  case subR =>
      refine regsBecome_flagging (shifted_regs accepted rfl fun middle => ?_) (keepsRegs_nil env)
      rw [DataOp.result, ← subBorrow_false]
      exact minusR_regs .sub rfl (by decide)
  case rsbR =>
      refine regsBecome_flagging (shifted_regs accepted rfl fun middle => ?_) (keepsRegs_nil env)
      rw [DataOp.result, ← subBorrow_false]
      exact reversedR_regs .sub rfl
  case orrR =>
      refine regsBecome_flagging ?_ (keepsRegs_nil env)
      rw [List.append_assoc]
      refine shifted_regs accepted rfl fun middle => ?_
      rw [applyAll_append]
      refine RegsBecome.followed ?_ (keepsRegs_loadCarry env)
      rw [DataOp.result, BitVec.or_comm]
      exact reversedR_regs .or rfl
  case adcR =>
      refine regsBecome_flagging ?_ (keepsRegs_nil env)
      rw [List.append_assoc]
      exact shifted_regs accepted rfl fun middle => adcR_regs
  case sbcR =>
      refine regsBecome_flagging ?_ (keepsRegs_cmc env)
      rw [List.append_assoc]
      exact shifted_regs accepted rfl fun middle => sbcR_regs
  case movR => exact movR_regs accepted kind (rotates kind)
  case mvnR => exact regsBecome_flagging (mvnRCode_regs accepted) (keepsRegs_nil env)
  case rscR => exact regsBecome_flagging (rscR_regs accepted) (keepsRegs_cmc env)
  case tstR => exact compareR_regs accepted rfl rfl (keepsRegs_nil env) fun _ => ⟨rfl, rfl⟩
  case teqR => exact compareR_regs accepted rfl rfl (keepsRegs_nil env) fun _ => ⟨rfl, rfl⟩
  case cmpR => exact compareR_regs accepted rfl rfl (keepsRegs_cmc env) fun _ => ⟨rfl, rfl⟩
  case cmnR => exact compareR_regs accepted rfl rfl (keepsRegs_nil env) fun _ => ⟨rfl, rfl⟩

/-! ### Running the code -/

@[simp]
theorem straight_storeFlags : Straight (storeFlags emitter) := by
  simp [storeFlags, HostInstr.straight]

@[simp]
theorem straight_loadFlags : Straight loadFlags := by simp [loadFlags, HostInstr.straight]

@[simp]
theorem straight_loadFlagsUnless (held : Bool) : Straight (loadFlagsUnless held) := by
  cases held <;> simp [loadFlagsUnless]

@[simp]
theorem straight_loadCarry : Straight loadCarry := by simp [loadCarry, HostInstr.straight]

theorem straight_flagging {setFlags : Bool} {code final : List HostInstr}
    (straight : Straight code) (rest : Straight final) :
    Straight (flagging emitter setFlags code final).code := by
  rw [flagging]
  split
  · simp [straight, rest]
  · exact straight

theorem straight_shiftEaxImm : Straight (shiftEaxImm ctx) := by
  rw [shiftEaxImm]
  split <;> simp [HostInstr.straight]

theorem straight_loadShifterImm (emitter : Emitter) (rm : ctx.rm ≠ 15) :
    Straight (loadShifterImm ctx emitter) := by
  rw [loadShifterImm, loadEaxRegOrPc, if_pos rm]
  simp [HostInstr.straight, addEax, storeCarry, straight_shiftEaxImm]

theorem straight_body {op : DataOp} {shifted : Bool}
    (known : ctx.instruction.dataOp = some (op, shifted)) (rd : op.writes = true → ctx.rd ≠ 15)
    (rn : op.reads = true → ctx.rn ≠ 15) (rm : shifted = true → ctx.rm ≠ 15) {held : Bool} :
    Straight (compileBody ctx emitter held).code := by
  have shifter (form : shifted = true) :=
    straight_loadShifterImm emitter (rm form)
  cases kind : ctx.instruction <;> simp only [kind, Inst.dataOp, Option.some.injEq,
    Prod.mk.injEq, reduceCtorEq] at known
  all_goals
    obtain ⟨rfl, rfl⟩ := known
    simp only [DataOp.reads, DataOp.writes, forall_const, Bool.false_eq_true, false_imp_iff]
      at rn rd shifter
    simp only [compileBody, kind, rsbI, movR]
    try split_ifs
  all_goals
    first
    | apply straight_flagging
    | skip
  all_goals
    simp [plain, HostInstr.straight, breakIfPc, rn, rd, shifter, logicalI, logicalR, addSubI,
      adcICode, loadEcxRegOrPc, addEcx, movRCode, mvnRCode, loadR15Ecx, addNextInst]

theorem straight_countCycle : (countCycle emitter).straight = true := by
  rw [countCycle]
  split <;> rfl

theorem compileInstruction_always (always : ctx.cond = .al) :
    (compileInstruction ctx emitter false).code =
      countCycle emitter :: (compileBody ctx emitter false).code := by
  simp [compileInstruction, preamble, conditional, always, flagsHeld]

/-- The state after the cycle counter. -/
abbrev counted (env : HostEnv World) (emitter : Emitter) (state : HostState World) :
    HostState World :=
  (countCycle emitter).apply env state

variable (env emitter state)

/-- The code of an always executed instruction runs to its end. -/
theorem finishes_always {op : DataOp} {shifted : Bool} (accepted : ctx.AlwaysData op shifted) :
    Finishes (hostIsa env) (compileInstruction ctx emitter false).code state
      (applyAll env (compileBody ctx emitter false).code (counted env emitter state)) := by
  rw [compileInstruction_always accepted.always]
  apply finishes_of_straight
  rw [straight_cons]
  exact ⟨straight_countCycle,
    straight_body accepted.instruction accepted.rd accepted.rn accepted.rm⟩

variable {env emitter state}

/-- The two kinds of instructions that lose their result. -/
def losesResult (ctx : Context) : Prop :=
  (ctx.instruction = .rsbI ∧ ctx.rd ≠ ctx.rn ∧ ctx.imm ≠ 0) ∨
    (ctx.instruction = .movR ∧ ctx.rd = ctx.rm ∧ ctx.shift = .rrx)

theorem body_regs {op : DataOp} {shifted : Bool} (accepted : ctx.AlwaysData op shifted)
    (good : ¬losesResult ctx) :
    RegsBecome state (applyAll env (compileBody ctx emitter false).code state)
      (ctx.dataRegs op shifted state.context.regs (state.context.x86Flags.getLsbD 8)) := by
  rw [losesResult, not_or] at good
  cases shifted with
  | false =>
      apply immediate_regs accepted
      intro kind nonzero
      by_contra different
      exact good.1 ⟨kind, Ne.symm different, nonzero⟩
  | true =>
      apply register_regs accepted
      intro kind same rotates
      exact good.2 ⟨kind, same, rotates⟩

/-- A state whose guest registers all hold one value. -/
def uniform [Inhabited World] (value : BitVec 32) : HostState World where
  regs := fun _ => 0
  esp := 0
  ebp := .user
  flags := ⟨false, false, false, false, false, false⟩
  stack := fun _ => 0
  processor := ⟨fun _ => { EmulationContext.zero with regs := fun _ => value }, .user⟩
  world := default

theorem uniform_regs [Inhabited World] (value : BitVec 32) :
    (uniform value : HostState World).context.regs = fun _ => value := rfl

theorem uniform_x86Flags [Inhabited World] (value : BitVec 32) :
    (uniform value : HostState World).context.x86Flags = 0#32 := rfl

/-- Debug magic may write `r0` only. -/
theorem movR_still_regs (still : ctx.rd = ctx.rm ∧ ctx.imm = 0) :
    (applyAll env (movR ctx emitter).code state).context.regs ctx.rd =
      state.context.regs ctx.rd := by
  rw [movR, if_pos still]
  by_cases magic : ctx.rd = 12
  · rw [if_pos magic, plain, applyAll_append]
    generalize reached : applyAll env loadR15Ecx state = middle
    have kept : KeepsContexts state middle := by
      subst reached
      constructor <;> simp [loadR15Ecx, HostInstr.apply, AluOp.writes]
    rw [← kept.context]
    simp only [applyAll_cons, applyAll_nil, addNextInst, HostInstr.apply, AluOp.writes, if_true,
      HostState.write_reg, HostState.call, HostState.helperEffect, HostState.context,
      HostState.setFlags_processor, HostState.setReg_processor, HostState.setFlags_ebp,
      HostState.setReg_ebp]
    split
    · rw [writeReg_context, if_neg (by rintro ⟨-, zero⟩; simp [magic] at zero)]
    · rfl
  · rw [if_neg magic]
    rfl

/-- The destination stays as it is in the two cases. -/
theorem losesResult_regs {op : DataOp} {shifted : Bool} (accepted : ctx.AlwaysData op shifted)
    (loses : losesResult ctx) :
    (applyAll env (compileBody ctx emitter false).code state).context.regs ctx.rd =
      state.context.regs ctx.rd := by
  have known := accepted.instruction
  obtain ⟨kind, different, nonzero⟩ | ⟨kind, same, rotates⟩ := loses
  · obtain ⟨rfl, rfl⟩ : DataOp.rsb = op ∧ false = shifted := by
      simpa [kind, Inst.dataOp] using known
    simp only [compileBody, kind, rsbI]
    rw [if_neg nonzero, if_neg (Ne.symm different), breakIfPc, breakIfPc, if_neg (accepted.rn rfl),
      if_neg (accepted.rd rfl)]
    rfl
  · obtain ⟨rfl, rfl⟩ : DataOp.mov = op ∧ true = shifted := by
      simpa [kind, Inst.dataOp] using known
    have decoded := accepted.shift rfl
    rw [rotates] at decoded
    have zero : ctx.imm = 0 := BitVec.eq_of_toNat_eq decoded
    simp only [compileBody, kind]
    exact movR_still_regs ⟨same, zero⟩

/-- It should change for some contents of the registers. -/
theorem losesResult_wrong {op : DataOp} {shifted : Bool} (accepted : ctx.AlwaysData op shifted)
    (loses : losesResult ctx) :
    ∃ value, op.writes = true ∧ ctx.dataResult op shifted (fun _ => value) false ≠ value := by
  have known := accepted.instruction
  obtain ⟨kind, different, nonzero⟩ | ⟨kind, same, rotates⟩ := loses
  · obtain ⟨rfl, rfl⟩ : DataOp.rsb = op ∧ false = shifted := by
      simpa [kind, Inst.dataOp] using known
    exact ⟨0, rfl, by simpa [Context.dataResult, DataOp.result, Context.operand] using nonzero⟩
  · obtain ⟨rfl, rfl⟩ : DataOp.mov = op ∧ true = shifted := by
      simpa [kind, Inst.dataOp] using known
    refine ⟨1, rfl, ?_⟩
    simp [Context.dataResult, DataOp.result, Context.operand, rotates, Shift.operand]
    try decide

/-- The result of a data processing instruction is right exactly when the
instruction is not one of the two kinds that lose it. -/
theorem dataResults_iff [Inhabited World] (env : HostEnv World) (ctx : Context)
    (emitter : Emitter) {op : DataOp} {shifted : Bool} (accepted : ctx.AlwaysData op shifted) :
    (∀ state : HostState World, ∃ after,
      Finishes (hostIsa env) (compileInstruction ctx emitter false).code state after ∧
        RegsBecome state after
          (ctx.dataRegs op shifted state.context.regs (state.context.x86Flags.getLsbD 8))) ↔
      ¬losesResult ctx := by
  constructor
  · intro right loses
    obtain ⟨value, writes, wrong⟩ := losesResult_wrong accepted loses
    obtain ⟨after, run, become⟩ := right (uniform value)
    have ends := (finishes_always env emitter (uniform value) accepted).unique _ run
    have counts := keepsGuest_countCycle env emitter (uniform value)
    have written := congrFun become.context ctx.rd
    rw [Context.dataRegs_of_writes writes, Function.update_self, ← ends,
      losesResult_regs accepted loses, counts.context, uniform_regs, uniform_x86Flags,
      BitVec.getLsbD_zero] at written
    exact wrong written.symm
  · intro good state
    have counts := keepsGuest_countCycle env emitter state
    refine ⟨_, finishes_always env emitter state accepted, ?_⟩
    rw [← counts.context]
    exact counts.andThen (body_regs accepted good)

/-- `op r0, r1, #1`. -/
def constantOne (instruction : Inst) : Context where
  instruction := instruction
  cond := .al
  shift := .lsl
  addressingMode := .da
  extendMode := .invalid
  sBit := false
  uBit := false
  imm := 1
  rd := 0
  rn := 1
  rm := 0
  rs := 0
  cpNum := 0
  cpOp1 := 0
  cpOp2 := 0

theorem constantOne_alwaysData {instruction : Inst} {op : DataOp}
    (known : instruction.dataOp = some (op, false)) :
    (constantOne instruction).AlwaysData op false := by
  constructor <;> simp [constantOne, known]

theorem dataResults_iff_add :
    (∀ state : HostState Unit, ∃ after,
      Finishes (hostIsa .idle) (compileInstruction (constantOne .addI) ⟨2, 0, false⟩ false).code
          state after ∧
        RegsBecome state after ((constantOne .addI).dataRegs .add false state.context.regs
          (state.context.x86Flags.getLsbD 8))) ↔
      ¬losesResult (constantOne .addI) :=
  dataResults_iff .idle (constantOne .addI) ⟨2, 0, false⟩ (constantOne_alwaysData rfl)

/-- `rsb r0, r1, #1` leaves `r0` alone. -/
theorem dataResults_fail_rsb :
    (constantOne .rsbI).AlwaysData .rsb false ∧
      ¬∃ after, Finishes (hostIsa .idle)
          (compileInstruction (constantOne .rsbI) ⟨2, 0, false⟩ false).code
          (uniform 0 : HostState Unit) after ∧
        RegsBecome (uniform 0) after
          ((constantOne .rsbI).dataRegs .rsb false (uniform 0 : HostState Unit).context.regs
            ((uniform 0 : HostState Unit).context.x86Flags.getLsbD 8)) := by
  have accepted : (constantOne .rsbI).AlwaysData .rsb false := constantOne_alwaysData rfl
  refine ⟨accepted, ?_⟩
  rintro ⟨after, run, become⟩
  have ends := (finishes_always .idle ⟨2, 0, false⟩ (uniform 0) accepted).unique _ run
  have written := congrFun become.context 0
  rw [← ends] at written
  revert written
  decide

end Compiler

end Ndse
