import Ndse.CompilerTransfers

/-!
# The saved status register

A write to the saved status register stores the selected fields of its value and
zeros in all others; only a read behind it shows this.
-/

namespace Ndse

open FlatCode

namespace Compiler

variable {World : Type} (env : HostEnv World)

/-- A write to the saved status register and a read. -/
structure SpsrPair (msr mrs : Context) : Prop where
  write : msr.instruction = .msrSpsrI ∨ msr.instruction = .msrSpsrR ∧ msr.rm ≠ 15
  fields : msr.rn ≠ 0
  read : mrs.instruction = .mrsSpsr

/-- The value that is written. -/
def msrValue (msr : Context) (regs : Fin 16 → BitVec 32) : BitVec 32 :=
  if msr.instruction = .msrSpsrI then msr.imm else regs msr.rm

/-- The code of two instructions behind each other. -/
def pairCode (one other : Context) (emitter emitter' : Emitter) (flagsUpdated : Bool) :
    List HostInstr :=
  let emitted := compileInstruction one emitter flagsUpdated
  emitted.code ++ (compileInstruction other emitter' emitted.flagsUpdated).code

/-- One register becomes a value, and nothing else that the guest reads as a
register or flag changes. -/
structure ReadsStatus (before after : HostState World) (rd : Fin 16) (value : BitVec 32) :
    Prop extends RegsBecome before after (Function.update before.context.regs rd value) where
  cpsr : ∀ mode, (after.processor.context mode).cpsr = (before.processor.context mode).cpsr
  x86Flags : ∀ mode,
    (after.processor.context mode).x86Flags = (before.processor.context mode).x86Flags

variable {msr mrs : Context} {emitter emitter' : Emitter} {flagsUpdated : Bool}
  {state : HostState World}

/-! ### The two bodies -/

/-- The context becomes another one. -/
structure ContextBecomes (before after : HostState World) (context : EmulationContext) :
    Prop where
  ebp : after.ebp = before.ebp
  processor : after.processor = (before.setContext context).processor

theorem ContextBecomes.context {before after : HostState World} {context : EmulationContext}
    (become : ContextBecomes before after context) : after.context = context := by
  rw [HostState.context, become.processor, become.ebp]
  exact HostState.setContext_context before context

theorem ContextBecomes.after {before middle after : HostState World} {context : EmulationContext}
    (keeps : KeepsContexts before middle) (become : ContextBecomes middle after context) :
    ContextBecomes before after context where
  ebp := become.ebp.trans keeps.ebp
  processor := by
    rw [become.processor, HostState.setContext, HostState.setContext, keeps.processor, keeps.ebp]

theorem and_cpsrMask_all (value : BitVec 32) : value &&& cpsrMask 15 = value := by
  have all : cpsrMask 15 = BitVec.allOnes 32 := by decide
  rw [all, BitVec.and_allOnes]

/-- Both forms from what their first instruction loads. -/
theorem msrCode_becomes {msr : Context} (rm : msr.rm ≠ 15) (fields : msr.rn ≠ 0)
    {load : Operand → HostInstr} {state : HostState World} {value : BitVec 32}
    (loads : (load eax).apply env state = state.setReg .eax value) :
    ContextBecomes state (applyAll env (msrCode msr true load) state)
      (state.context.set .spsr (value &&& cpsrMask msr.rn)) := by
  rw [msrCode, breakIfPc, if_neg rm, if_neg fields, if_pos rfl, List.nil_append,
    List.cons_append, applyAll_cons, loads]
  by_cases all : msr.rn = 15
  · rw [all, and_cpsrMask_all]
    constructor <;> simp [HostInstr.apply]
  · constructor <;> simp [all, HostInstr.apply, AluOp.writes, aluResult]

/-- What loads the value that is written. -/
def msrLoad (msr : Context) (dst : Operand) : HostInstr :=
  if msr.instruction = .msrSpsrI then .mov dst (.imm32 msr.imm) else .mov dst (guest msr.rm)

theorem compileBody_msr (pair : SpsrPair msr mrs) (held : Bool) :
    compileBody msr emitter held = plain (msrCode msr true (msrLoad msr)) := by
  obtain immediate | ⟨register, -⟩ := pair.write
  · have load : msrLoad msr = fun dst => .mov dst (.imm32 msr.imm) := by
      funext dst
      exact if_pos immediate
    rw [compileBody, immediate, load]
  · have load : msrLoad msr = fun dst => .mov dst (guest msr.rm) := by
      funext dst
      exact if_neg (by simp [register])
    rw [compileBody, register, load]

theorem msrLoad_apply (msr : Context) (state : HostState World) :
    (msrLoad msr eax).apply env state = state.setReg .eax (msrValue msr state.context.regs) := by
  rw [msrLoad, msrValue]
  split <;> rfl

theorem msr_becomes (pair : SpsrPair msr mrs) (rm : msr.rm ≠ 15) (emitter : Emitter) (held : Bool)
    (state : HostState World) :
    ContextBecomes state (applyAll env (compileBody msr emitter held).code state)
      (state.context.set .spsr (msrValue msr state.context.regs &&& cpsrMask msr.rn)) := by
  rw [compileBody_msr pair]
  exact msrCode_becomes env rm pair.fields (msrLoad_apply env msr state)

theorem mrs_becomes (pair : SpsrPair msr mrs) (rd : mrs.rd ≠ 15) (emitter : Emitter) (held : Bool)
    (state : HostState World) :
    ContextBecomes state (applyAll env (compileBody mrs emitter held).code state)
      (state.context.set (.reg mrs.rd) state.context.spsr) := by
  rw [compileBody, pair.read]
  constructor <;> simp [plain, breakIfPc, rd, HostInstr.apply, EmulationContext.get]

/-! ### Straight code -/

theorem straight_msr (pair : SpsrPair msr mrs) (rm : msr.rm ≠ 15) (held : Bool) :
    Straight (compileBody msr emitter held).code := by
  have load : (msrLoad msr eax).straight = true := by
    rw [msrLoad]
    split <;> rfl
  rw [compileBody_msr pair, plain, msrCode, breakIfPc, if_neg rm, if_neg pair.fields, if_pos rfl]
  rw [List.nil_append, List.cons_append, straight_cons, straight_append, straight_ite]
  refine ⟨load, ⟨fun _ => ?_, fun _ => straight_nil⟩, ?_⟩ <;> simp [HostInstr.straight]

theorem straight_mrs (pair : SpsrPair msr mrs) (rd : mrs.rd ≠ 15) (held : Bool) :
    Straight (compileBody mrs emitter held).code := by
  simp [compileBody, pair.read, plain, breakIfPc, rd, HostInstr.straight]

/-- A register that may not be `r15` stops the code. -/
theorem leaves_break {ctx : Context} {rest : List HostInstr}
    (executed : Executed env ctx emitter flagsUpdated state)
    (body : (compileBody ctx emitter (flagsHeld emitter flagsUpdated || conditional ctx)).code =
      debugBreak :: rest) :
    Leaves (hostIsa env) (compileInstruction ctx emitter flagsUpdated).code state debugBreak
      (applyAll env (testCode ctx emitter flagsUpdated) state) := by
  apply leaves_executed env ctx emitter flagsUpdated executed
  rw [body]
  exact Leaves.head (hostIsa env) rfl rest

theorem flagsUpdated_msr (pair : SpsrPair msr mrs) (emitter : Emitter) (flagsUpdated : Bool) :
    (compileInstruction msr emitter flagsUpdated).flagsUpdated = false := by
  rw [compileInstruction, compileBody_msr pair]
  rfl

/-- Without flags held in the host, the test of a condition reads those stored. -/
theorem executed_of_x86Flags {ctx : Context} {before after : HostState World}
    (same : after.context.x86Flags = before.context.x86Flags)
    (executed : Executed env ctx emitter false before) :
    Executed env ctx emitter false after := by
  intro tests
  have behind : flagsBehindTest ctx emitter false after =
      flagsBehindTest ctx emitter false before := by
    simp [flagsBehindTest, tests, flagsTested, flagsHeld, same]
  have stays := executed tests
  rwa [testCode_flags_of_conditional env tests, ← behind,
    ← testCode_flags_of_conditional env tests] at stays

/-! ### The write and the read -/

/-- The context after the write. -/
theorem msr_finishes (pair : SpsrPair msr mrs) (rm : msr.rm ≠ 15)
    (executed : Executed env msr emitter flagsUpdated state) :
    ∃ middle, Finishes (hostIsa env) (compileInstruction msr emitter flagsUpdated).code state
        middle ∧
      ContextBecomes state middle
        (state.context.set .spsr (msrValue msr state.context.regs &&& cpsrMask msr.rn)) := by
  have kept := (keepsGuest_testCode env msr emitter flagsUpdated state).toKeepsContexts
  have written := (msr_becomes env pair rm emitter
    (flagsHeld emitter flagsUpdated || conditional msr) _).after kept
  rw [kept.context] at written
  exact ⟨_, finishes_executed env executed (straight_msr pair rm _), written⟩

/-- The context after both. -/
theorem pair_finishes (pair : SpsrPair msr mrs) (rm : msr.rm ≠ 15) (rd : mrs.rd ≠ 15)
    (executed : Executed env msr emitter flagsUpdated state)
    (executed' : Executed env mrs emitter' false state) :
    let value := msrValue msr state.context.regs &&& cpsrMask msr.rn
    ∃ after, Finishes (hostIsa env) (pairCode msr mrs emitter emitter' flagsUpdated) state after ∧
      ContextBecomes state after ((state.context.set .spsr value).set (.reg mrs.rd) value) := by
  intro value
  obtain ⟨middle, run, written⟩ := msr_finishes env pair rm executed
  have executed'' : Executed env mrs emitter' false middle := by
    apply executed_of_x86Flags env _ executed'
    rw [written.context]
    rfl
  have run' := finishes_executed env executed'' (straight_mrs pair rd _)
  have kept := (keepsGuest_testCode env mrs emitter' false middle).toKeepsContexts
  have read := (mrs_becomes env pair rd emitter'
    (flagsHeld emitter' false || conditional mrs) _).after kept
  rw [kept.context, written.context] at read
  refine ⟨_, ?_, read.ebp.trans written.ebp, ?_⟩
  · rw [pairCode, flagsUpdated_msr pair]
    exact Finishes.append (hostIsa env) run run'
  · rw [read.processor, HostState.setContext, HostState.setContext, written.processor,
      written.ebp, HostState.setContext]
    simp only [Function.update_idem]
    rfl

/-- The write of an immediate value looks at a register that its decoding does not set. -/
theorem msr_leaves (pair : SpsrPair msr mrs) (rm : msr.rm = 15)
    (executed : Executed env msr emitter flagsUpdated state) :
    Leaves (hostIsa env) (compileInstruction msr emitter flagsUpdated).code state debugBreak
      (applyAll env (testCode msr emitter flagsUpdated) state) := by
  apply leaves_break env executed
  rw [compileBody_msr pair, plain, msrCode, breakIfPc, if_pos rm]
  rfl

theorem mrs_leaves (pair : SpsrPair msr mrs) (rd : mrs.rd = 15)
    (executed : Executed env mrs emitter flagsUpdated state) :
    Leaves (hostIsa env) (compileInstruction mrs emitter flagsUpdated).code state debugBreak
      (applyAll env (testCode mrs emitter flagsUpdated) state) := by
  apply leaves_break env executed
  rw [compileBody, pair.read, plain, breakIfPc, if_pos rd]
  rfl

theorem ContextBecomes.readsStatus {before after : HostState World} {rd : Fin 16}
    {value : BitVec 32}
    (become : ContextBecomes before after ((before.context.set .spsr value).set (.reg rd) value)) :
    ReadsStatus before after rd value := by
  have context (mode : CpuMode) : after.processor.context mode =
      if mode = before.ebp then (before.context.set .spsr value).set (.reg rd) value
      else before.processor.context mode := by
    rw [become.processor, HostState.setContext_processor_context]
  refine ⟨⟨become.ebp, fun mode => ?_⟩, fun mode => ?_, fun mode => ?_⟩
  · rw [context]
    split <;> rfl
  · rw [context]
    split
    · next current => rw [current]; rfl
    · rfl
  · rw [context]
    split
    · next current => rw [current]; rfl
    · rfl

theorem mergeMasked_eq_iff (old value mask : BitVec 32) :
    mergeMasked old value mask = value &&& mask ↔ old &&& ~~~mask = 0 := by
  constructor
  · intro same
    have cleared := congrArg (· &&& ~~~mask) same
    simpa [mergeMasked, BitVec.and_assoc, BitVec.and_or_distrib_right] using cleared
  · intro none
    rw [mergeMasked, none]
    exact BitVec.zero_or

/-- The read gives the merged value exactly if the fields that are not selected
were zero and neither instruction breaks. -/
theorem spsr_iff (env : HostEnv World) {msr mrs : Context} (pair : SpsrPair msr mrs)
    (emitter emitter' : Emitter) (flagsUpdated : Bool) (state : HostState World)
    (executed : Executed env msr emitter flagsUpdated state)
    (executed' : Executed env mrs emitter' false state) :
    (∃ after,
      Finishes (hostIsa env) (pairCode msr mrs emitter emitter' flagsUpdated) state after ∧
        ReadsStatus state after mrs.rd (mergeMasked state.context.spsr
          (msrValue msr state.context.regs) (cpsrMask msr.rn))) ↔
      state.context.spsr &&& ~~~cpsrMask msr.rn = 0 ∧ msr.rm ≠ 15 ∧ mrs.rd ≠ 15 := by
  constructor
  · rintro ⟨after, run, reads⟩
    have rm : msr.rm ≠ 15 := by
      intro rm
      have leaves := msr_leaves env pair rm executed
      exact (leaves.append_left (hostIsa env) _).not_finishes (hostIsa env) after run
    have rd : mrs.rd ≠ 15 := by
      intro rd
      obtain ⟨middle, first, written⟩ := msr_finishes env pair rm executed
      have executed'' : Executed env mrs emitter' false middle := by
        apply executed_of_x86Flags env _ executed'
        rw [written.context]
        rfl
      have leaves := mrs_leaves env pair rd executed''
      rw [pairCode, flagsUpdated_msr pair] at run
      exact (Leaves.append (hostIsa env) first leaves).not_finishes (hostIsa env) after run
    obtain ⟨other, run', become⟩ := pair_finishes env pair rm rd executed executed'
    have same := Finishes.unique (hostIsa env) run run'
    have regs := reads.toRegsBecome.context
    rw [same, become.readsStatus.toRegsBecome.context] at regs
    have value := congrFun regs mrs.rd
    rw [Function.update_self, Function.update_self] at value
    exact ⟨(mergeMasked_eq_iff _ _ _).mp value.symm, rm, rd⟩
  · rintro ⟨none, rm, rd⟩
    obtain ⟨after, run, become⟩ := pair_finishes env pair rm rd executed executed'
    refine ⟨after, run, ?_⟩
    rw [(mergeMasked_eq_iff _ _ _).mpr none]
    exact become.readsStatus

/-- `MSR SPSR_f, r0`. -/
def msrFlags : Context := (Disassembler.blank.decode 0xE168F000 0).toContext

/-- `MRS r1, SPSR`. -/
def mrsOne : Context := (Disassembler.blank.decode 0xE14F1000 0).toContext

theorem spsrPair_msrFlags : SpsrPair msrFlags mrsOne where
  write := Or.inr ⟨by decide, by decide⟩
  fields := by decide
  read := by decide

/-- All registers have the four flags set, and a mode is saved. -/
def saved (spsr : BitVec 32) : HostState Unit :=
  let state : HostState Unit := uniform 0xF0000000
  state.setContext (state.context.set .spsr spsr)

theorem spsr_iff_flags :
    (∃ after,
      Finishes (hostIsa HostEnv.idle) (pairCode msrFlags mrsOne ⟨2, 0, false⟩ ⟨2, 1, false⟩ false)
          (saved 0x80000000) after ∧
        ReadsStatus (saved 0x80000000) after mrsOne.rd (mergeMasked (saved 0x80000000).context.spsr
          (msrValue msrFlags (saved 0x80000000).context.regs) (cpsrMask msrFlags.rn))) ↔
      (saved 0x80000000).context.spsr &&& ~~~cpsrMask msrFlags.rn = 0 ∧ msrFlags.rm ≠ 15 ∧
        mrsOne.rd ≠ 15 :=
  spsr_iff .idle spsrPair_msrFlags ⟨2, 0, false⟩ ⟨2, 1, false⟩ false (saved 0x80000000)
    (executed_always .idle (by decide) _ _ _) (executed_always .idle (by decide) _ _ _)

/-- The write of the flags clears the saved mode. -/
theorem spsr_loses_mode :
    ¬∃ after,
      Finishes (hostIsa HostEnv.idle) (pairCode msrFlags mrsOne ⟨2, 0, false⟩ ⟨2, 1, false⟩ false)
          (saved 0x1F) after ∧
        ReadsStatus (saved 0x1F) after mrsOne.rd 0xF000001F := by
  rintro ⟨after, run, reads⟩
  obtain ⟨other, run', become⟩ := pair_finishes HostEnv.idle spsrPair_msrFlags
    (by decide) (by decide) (executed_always .idle (by decide) ⟨2, 0, false⟩ false (saved 0x1F))
    (executed_always .idle (by decide) ⟨2, 1, false⟩ false (saved 0x1F))
  have regs := reads.toRegsBecome.context
  rw [Finishes.unique (hostIsa HostEnv.idle) run run',
    become.readsStatus.toRegsBecome.context] at regs
  have value := congrFun regs mrsOne.rd
  revert value
  decide

end Compiler

end Ndse
