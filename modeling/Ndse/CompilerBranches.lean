import Ndse.Branches
import Ndse.CompilerAddressing

/-!
# Translated branches

A branch leaves its page with the target in `ecx` and in `r15`.  The linking
branch to a register sets `r14` before it reads its register, and the branch
that changes the state does not align its target.
-/

namespace Ndse

open FlatCode

namespace Compiler

variable {World : Type} (env : HostEnv World)

/-! ### Leaving a page -/

/-- Straight code in front of a jump that leaves. -/
theorem leaves_of_straight {code : List HostInstr} (straight : Straight code)
    (state : HostState World) :
    Leaves (hostIsa env) (code ++ [.jmpBranch]) state .jmpBranch (applyAll env code state) :=
  Leaves.append (hostIsa env) (finishes_of_straight env straight state)
    (Leaves.head (hostIsa env) rfl [])

variable (ctx : Context) (emitter : Emitter) (flagsUpdated : Bool)

/-- An executed instruction leaves as its body does. -/
theorem leaves_executed {state after : HostState World} {instr : HostInstr}
    (executed : Executed env ctx emitter flagsUpdated state)
    (left : Leaves (hostIsa env)
      (compileBody ctx emitter (flagsHeld emitter flagsUpdated || conditional ctx)).code
      (applyAll env (testCode ctx emitter flagsUpdated) state) instr after) :
    Leaves (hostIsa env) (compileInstruction ctx emitter flagsUpdated).code state instr after := by
  obtain ⟨test, split, tested⟩ := split_executed env ctx emitter flagsUpdated executed
  rw [split]
  exact Leaves.append (hostIsa env) tested left

/-! ### Registers of a branch -/

/-- The guest registers, `ecx` and the accumulator of the long branches. -/
structure Arrived (before after : HostState World) (regs : Fin 16 → BitVec 32)
    (target bpre : BitVec 32) : Prop extends RegsBecome before after regs where
  ecx : after.regs .ecx = target
  bpre : after.context.bpre = bpre

theorem Arrived.trans {first second third : HostState World} {regs regs' : Fin 16 → BitVec 32}
    {target target' bpre bpre' : BitVec 32} (one : Arrived first second regs target bpre)
    (two : Arrived second third regs' target' bpre') : Arrived first third regs' target' bpre' where
  toRegsBecome := one.toRegsBecome.trans two.toRegsBecome
  ecx := two.ecx
  bpre := two.bpre

theorem KeepsGuest.arrived {before after : HostState World} (keeps : KeepsGuest before after) :
    Arrived before after before.context.regs (before.regs .ecx) before.context.bpre where
  toRegsBecome := keeps.toKeepsContexts.regsBecome
  ecx := keeps.ecx
  bpre := by rw [keeps.context]

/-- The calls that follow the guest's calls preserve `ecx`. -/
theorem keepsGuest_callstack {helper : Helper}
    (follows : helper = .pushcallstack ∨ helper = .popcallstack) (state : HostState World) :
    KeepsGuest state (applyAll env [.push ecx, .call helper, .pop ecx] state) := by
  obtain rfl | rfl := follows <;> refine ⟨⟨?_, ?_⟩, ?_⟩ <;>
    simp [HostInstr.apply, HostState.push, HostState.call, HostState.helperEffect]

theorem arrived_setTarget (state : HostState World) :
    Arrived state ((HostInstr.mov (guest 15) ecx).apply env state)
      (Function.update state.context.regs 15 (state.regs .ecx)) (state.regs .ecx)
      state.context.bpre := by
  refine ⟨regsBecome_of_write ?_ ?_, ?_, ?_⟩ <;> simp [HostInstr.apply, EmulationContext.set]

/-- What `r14` is set to. -/
def linkValue (regs : Fin 16 → BitVec 32) : BitVec 32 :=
  (regs 15 &&& (pageMask ||| 1)) + BitVec.ofNat 32 (emitter.inst + 1) <<< emitter.instBits

theorem arrived_linkCode (state : HostState World) :
    Arrived state (applyAll env (linkCode emitter) state)
      (Function.update state.context.regs 14 (linkValue emitter state.context.regs))
      (linkValue emitter state.context.regs) state.context.bpre := by
  let value := linkValue emitter state.context.regs
  let written := applyAll env (loadR15Ecx ++ [addNextInst emitter, .mov (guest 14) ecx]) state
  have start : Arrived state written (Function.update state.context.regs 14 value) value
      state.context.bpre := by
    refine ⟨regsBecome_of_write ?_ ?_, ?_, ?_⟩ <;>
      simp [written, value, loadR15Ecx, addNextInst, linkValue, HostInstr.apply, AluOp.writes,
        aluResult, EmulationContext.set]
  have kept := (keepsGuest_callstack env (.inl rfl) written).arrived
  rw [start.context, start.ecx, start.bpre] at kept
  rw [linkCode, applyAll_append]
  exact start.trans kept

theorem arrived_add (state : HostState World) (operand : Operand) :
    Arrived state ((HostInstr.alu .add ecx operand).apply env state) state.context.regs
      (state.regs .ecx + state.read operand) state.context.bpre := by
  refine ⟨KeepsContexts.regsBecome ⟨?_, ?_⟩, ?_, ?_⟩ <;>
    simp [HostInstr.apply, AluOp.writes, aluResult]

theorem arrived_setBpre (state : HostState World) (value : BitVec 32) :
    Arrived state ((HostInstr.mov (.field .bpre) (.imm32 value)).apply env state)
      state.context.regs (state.regs .ecx) value := by
  refine ⟨⟨?_, ?_⟩, ?_, ?_⟩ <;> simp [HostInstr.apply]

/-- The accumulator is used up. -/
theorem arrived_addEcxBpre (state : HostState World) :
    Arrived state (applyAll env (addEcxBpre ctx) state) state.context.regs
      (state.regs .ecx + (ctx.imm - 4) + state.context.bpre) 0 := by
  rw [addEcxBpre, applyAll_cons, applyAll_cons, applyAll_cons, applyAll_nil]
  have far := arrived_add env state (.imm32 (ctx.imm - 4))
  generalize (HostInstr.alu .add ecx (.imm32 (ctx.imm - 4))).apply env state = middle at *
  have near := arrived_add env middle (.field .bpre)
  have cleared :=
    arrived_setBpre env ((HostInstr.alu .add ecx (.field .bpre)).apply env middle) 0
  rw [HostState.read_field, EmulationContext.get_bpre, far.context, far.ecx, far.bpre] at near
  rw [near.context, near.ecx] at cleared
  exact far.trans (near.trans cleared)

theorem arrived_append_setTarget {code : List HostInstr} {state : HostState World}
    {regs : Fin 16 → BitVec 32} {target bpre : BitVec 32}
    (arrived : Arrived state (applyAll env code state) regs target bpre) :
    Arrived state (applyAll env (code ++ [.mov (guest 15) ecx]) state)
      (Function.update regs 15 target) target bpre := by
  have set := arrived_setTarget env (applyAll env code state)
  rw [arrived.context, arrived.ecx, arrived.bpre] at set
  rw [applyAll_append]
  exact arrived.trans set

/-- The register a branch goes to, as the code reads it. -/
def registerTarget (regs : Fin 16 → BitVec 32) : BitVec 32 :=
  if ctx.rm = 15 then (regs 15 &&& pageMask) + pcOffset emitter else regs ctx.rm

theorem arrived_loadEcxRegOrPc (state : HostState World) :
    Arrived state (applyAll env (loadEcxRegOrPc emitter ctx.rm 0) state) state.context.regs
      (registerTarget ctx emitter state.context.regs) state.context.bpre := by
  by_cases counter : ctx.rm = 15
  · by_cases zero : pcOffset emitter = 0#32 <;>
      refine ⟨KeepsContexts.regsBecome ⟨?_, ?_⟩, ?_, ?_⟩ <;>
      simp [loadEcxRegOrPc, registerTarget, counter, addEcx, zero, HostInstr.apply, AluOp.writes,
        aluResult]
  · refine ⟨KeepsContexts.regsBecome ⟨?_, ?_⟩, ?_, ?_⟩ <;>
      simp [loadEcxRegOrPc, registerTarget, counter, addEcx, HostInstr.apply]

/-- Where the code of a branch goes. -/
def codeTarget (regs : Fin 16 → BitVec 32) (bpre : BitVec 32) : BitVec 32 :=
  let link := linkValue emitter regs
  match ctx.instruction with
  | .blxI => (link &&& ~~~1#32) + (ctx.imm - 4) + bpre
  | .bl => link + (ctx.imm - 4) + bpre
  | .blx => registerTarget ctx emitter (Function.update regs 14 link)
  | .bx => registerTarget ctx emitter regs
  | _ =>
      (regs 15 &&& (pageMask ||| 1)) +
        (ctx.imm + BitVec.ofNat 32 emitter.inst <<< emitter.instBits)

/-- The registers a branch leaves behind when it goes to a target. -/
def branchRegs (links : Bool) (regs : Fin 16 → BitVec 32) (link target : BitVec 32) :
    Fin 16 → BitVec 32 :=
  Function.update (if links then Function.update regs 14 link else regs) 15 target

theorem straight_linkCode : Straight (linkCode emitter) := by
  simp [linkCode, loadR15Ecx, addNextInst, recordCallstack, HostInstr.straight]

theorem straight_loadEcxRegOrPc (reg : Fin 16) (offset : BitVec 32) :
    Straight (loadEcxRegOrPc emitter reg offset) := by
  simp [loadEcxRegOrPc, addEcx, HostInstr.straight]

/-- The code of a branch in front of the jump that leaves. -/
structure Branching (code : List HostInstr) (state : HostState World) (links : Bool)
    (link target bpre : BitVec 32) : Prop where
  straight : Straight code
  arrived : Arrived state (applyAll env code state)
    (branchRegs links state.context.regs link target) target bpre

theorem branching_blxI (state : HostState World) :
    Branching env
      (linkCode emitter ++ [.alu .and ecx (.imm32 0xFFFFFFFE), .alu .and eax (.imm8 0xFFFFFFFE)] ++
        addEcxBpre ctx ++ [.mov (guest 15) ecx]) state true (linkValue emitter state.context.regs)
      ((linkValue emitter state.context.regs &&& ~~~1#32) + (ctx.imm - 4) + state.context.bpre)
      0 := by
  let masks : List HostInstr :=
    [.alu .and ecx (.imm32 0xFFFFFFFE), .alu .and eax (.imm8 0xFFFFFFFE)]
  have linked := arrived_linkCode env emitter state
  have masked (state : HostState World) : Arrived state (applyAll env masks state)
      state.context.regs (state.regs .ecx &&& ~~~1#32) state.context.bpre := by
    refine ⟨KeepsContexts.regsBecome ⟨?_, ?_⟩, ?_, ?_⟩ <;>
      simp [masks, HostInstr.apply, AluOp.writes, aluResult]
  refine ⟨?_, arrived_append_setTarget env ?_⟩
  · simp [straight_linkCode, addEcxBpre, HostInstr.straight]
  · rw [applyAll_append, applyAll_append]
    have first := masked (applyAll env (linkCode emitter) state)
    rw [linked.context, linked.ecx, linked.bpre] at first
    have second :=
      arrived_addEcxBpre env ctx (applyAll env masks (applyAll env (linkCode emitter) state))
    rw [first.context, first.ecx, first.bpre] at second
    exact linked.trans (first.trans second)

theorem branching_bl (state : HostState World) :
    Branching env (linkCode emitter ++ addEcxBpre ctx ++ [.mov (guest 15) ecx]) state true
      (linkValue emitter state.context.regs)
      (linkValue emitter state.context.regs + (ctx.imm - 4) + state.context.bpre) 0 := by
  have linked := arrived_linkCode env emitter state
  refine ⟨?_, arrived_append_setTarget env ?_⟩
  · simp [straight_linkCode, addEcxBpre, HostInstr.straight]
  · rw [applyAll_append]
    have added := arrived_addEcxBpre env ctx (applyAll env (linkCode emitter) state)
    rw [linked.context, linked.ecx, linked.bpre] at added
    exact linked.trans added

theorem branching_blx (state : HostState World) :
    Branching env
      (linkCode emitter ++ loadEcxRegOrPc emitter ctx.rm 0 ++ [.mov (guest 15) ecx]) state true
      (linkValue emitter state.context.regs)
      (registerTarget ctx emitter
        (Function.update state.context.regs 14 (linkValue emitter state.context.regs)))
      state.context.bpre := by
  have linked := arrived_linkCode env emitter state
  refine ⟨?_, arrived_append_setTarget env ?_⟩
  · simp [straight_linkCode, straight_loadEcxRegOrPc, HostInstr.straight]
  · rw [applyAll_append]
    have loaded := arrived_loadEcxRegOrPc env ctx emitter (applyAll env (linkCode emitter) state)
    rw [linked.context, linked.bpre] at loaded
    exact linked.trans loaded

theorem arrived_updateCallstack {code : List HostInstr} {state : HostState World}
    {regs : Fin 16 → BitVec 32} {target bpre : BitVec 32}
    (arrived : Arrived state (applyAll env code state) regs target bpre) :
    Arrived state (applyAll env (code ++ updateCallstack) state) regs target bpre := by
  have kept := (keepsGuest_callstack env (.inr rfl) (applyAll env code state)).arrived
  rw [arrived.context, arrived.ecx, arrived.bpre] at kept
  rw [applyAll_append]
  exact arrived.trans kept

theorem branching_bx (state : HostState World) :
    Branching env (loadEcxRegOrPc emitter ctx.rm 0 ++ [.mov (guest 15) ecx] ++ updateCallstack)
      state false (linkValue emitter state.context.regs)
      (registerTarget ctx emitter state.context.regs) state.context.bpre := by
  refine ⟨?_, arrived_updateCallstack env (arrived_append_setTarget env ?_)⟩
  · simp [straight_loadEcxRegOrPc, updateCallstack, HostInstr.straight]
  · exact arrived_loadEcxRegOrPc env ctx emitter state

theorem branching_b (state : HostState World) :
    Branching env
      (loadR15Ecx ++
        [.alu .add ecx (.imm32 (ctx.imm + BitVec.ofNat 32 emitter.inst <<< emitter.instBits))] ++
        [.mov (guest 15) ecx] ++ updateCallstack)
      state false (linkValue emitter state.context.regs)
      ((state.context.regs 15 &&& (pageMask ||| 1)) +
        (ctx.imm + BitVec.ofNat 32 emitter.inst <<< emitter.instBits)) state.context.bpre := by
  refine ⟨?_, arrived_updateCallstack env (arrived_append_setTarget env ?_)⟩
  · simp [loadR15Ecx, updateCallstack, HostInstr.straight]
  · refine ⟨KeepsContexts.regsBecome ⟨?_, ?_⟩, ?_, ?_⟩ <;>
      simp [loadR15Ecx, HostInstr.apply, AluOp.writes, aluResult]

/-- The code of a branch leaves the page. -/
theorem leaves_branch (branches : ctx.instruction ∈ [Inst.blxI, .bl, .blx, .bx, .b])
    (known : Bool) (state : HostState World) :
    ∃ after,
      Leaves (hostIsa env) (compileBody ctx emitter known).code state .jmpBranch after ∧
        Arrived state after
          (branchRegs (ctx.instruction ∈ [Inst.blxI, .bl, .blx]) state.context.regs
            (linkValue emitter state.context.regs)
            (codeTarget ctx emitter state.context.regs state.context.bpre))
          (codeTarget ctx emitter state.context.regs state.context.bpre)
          (if ctx.instruction ∈ [Inst.blxI, .bl] then 0 else state.context.bpre) := by
  have ends {code : List HostInstr} {links : Bool} {link target bpre : BitVec 32}
      (branching : Branching env code state links link target bpre)
      (split : (compileBody ctx emitter known).code = code ++ [.jmpBranch]) :
      ∃ after, Leaves (hostIsa env) (compileBody ctx emitter known).code state .jmpBranch after ∧
        Arrived state after (branchRegs links state.context.regs link target) target bpre := by
    rw [split]
    exact ⟨_, leaves_of_straight env branching.straight state, branching.arrived⟩
  simp only [List.mem_cons, List.not_mem_nil, or_false] at branches
  rcases branches with kind | kind | kind | kind | kind <;> simp only [codeTarget, kind]
  · exact ends (branching_blxI env ctx emitter state) (by simp [compileBody, kind, plain])
  · exact ends (branching_bl env ctx emitter state) (by simp [compileBody, kind, plain])
  · exact ends (branching_blx env ctx emitter state) (by simp [compileBody, kind, plain])
  · exact ends (branching_bx env ctx emitter state) (by simp [compileBody, kind, plain])
  · exact ends (branching_b env ctx emitter state) (by simp [compileBody, kind, plain])

/-! ### Addresses -/

/-- The lowest bit of a word, beside an even one. -/
theorem add_lowest {even : BitVec 32} (lowest : even.getLsbD 0 = false) (word : BitVec 32) :
    even + (word &&& 1) = even ||| (word &&& 1) := by
  apply BitVec.add_eq_or_of_and_eq_zero
  apply BitVec.eq_of_getLsbD_eq
  intro index inside
  rw [BitVec.getLsbD_and, BitVec.getLsbD_and]
  by_cases first : index = 0
  · rw [first, lowest, Bool.false_and, BitVec.getLsbD_zero]
  · have above : (1 : BitVec 32).getLsbD index = false := by simp [first]
    rw [above, Bool.and_false, Bool.and_false, BitVec.getLsbD_zero]

theorem clear_lowest {even : BitVec 32} (lowest : even.getLsbD 0 = false) (word : BitVec 32) :
    (even + (word &&& 1)) &&& ~~~1#32 = even := by
  rw [add_lowest lowest]
  apply BitVec.eq_of_getLsbD_eq
  intro index inside
  rw [BitVec.getLsbD_and, BitVec.getLsbD_or, BitVec.getLsbD_and, BitVec.getLsbD_not]
  by_cases first : index = 0
  · rw [first, lowest]
    simp
  · have above : (1#32).getLsbD index = false := by simp [first]
    rw [above]
    simp [inside, first]

theorem page_and_state (counter : BitVec 32) :
    counter &&& (pageMask ||| 1) = (counter &&& pageMask) + (counter &&& 1) := by
  have lowest : (counter &&& pageMask).getLsbD 0 = false := by simp [pageMask]
  rw [add_lowest lowest]
  exact BitVec.and_or_distrib_left

theorem next_shiftLeft (inst bits : Nat) :
    BitVec.ofNat 32 (inst + 1) <<< bits = BitVec.ofNat 32 inst <<< bits + 1#32 <<< bits := by
  rw [BitVec.ofNat_add, BitVec.shiftLeft_add_distrib]

/-! ### The architecture -/

/-- The address of an instruction in the page of the program counter. -/
def addressOf (counter : BitVec 32) (inst bits : Nat) : BitVec 32 :=
  (counter &&& pageMask) + BitVec.ofNat 32 inst <<< bits

theorem linkValue_eq (branch : Branch) (inst : Nat) (lookaheadS : Bool)
    (regs : Fin 16 → BitVec 32) :
    linkValue ⟨branch.instBits, inst, lookaheadS⟩ regs =
      branch.returnAddress (addressOf (regs 15) inst branch.instBits) (regs 15 &&& 1) := by
  rw [linkValue, Branch.returnAddress, addressOf, page_and_state, next_shiftLeft]
  simp only
  ac_rfl

theorem page_toNat (word : BitVec 32) : (word &&& pageMask).toNat = word.toNat / 512 * 512 :=
  ByteMemory.toNat_and_not_mask word 9

theorem page_aligned (counter : BitVec 32) : (counter &&& pageMask).toNat % 512 = 0 := by
  rw [page_toNat]
  omega

theorem shiftLeft_one_toNat (inst : Nat) :
    (BitVec.ofNat 32 inst <<< 1).toNat = 2 * inst % 2 ^ 32 := by
  rw [BitVec.toNat_shiftLeft, BitVec.toNat_ofNat, Nat.shiftLeft_eq]
  omega

theorem lowest_eq_false_iff (word : BitVec 32) : word.getLsbD 0 = false ↔ word.toNat % 2 = 0 := by
  rw [BitVec.getLsbD, Nat.testBit_zero]
  simp

theorem aligned_iff (word : BitVec 32) : word &&& ~~~3#32 = word ↔ word.toNat % 4 = 0 := by
  have cleared : (word &&& ~~~3#32).toNat = word.toNat / 4 * 4 :=
    ByteMemory.toNat_and_not_mask word 2
  rw [← BitVec.toNat_inj, cleared]
  omega

/-- What a branch finds in the accumulator: nothing in the ARM state, and behind
the first halfword of a long branch the high part of the offset. -/
def Accumulates (branch : Branch) (high : BitVec 11) (bpre : BitVec 32) : Prop :=
  match branch with
  | .arm .. | .armRegister .. => bpre = 0
  | .thumbSuffix .. => bpre = 4 + Branch.highOffset high
  | _ => True

/-- Where a branch in the page of the program counter goes. -/
def targetOf (branch : Branch) (inst : Nat) (high : BitVec 11) (regs : Fin 16 → BitVec 32) :
    BitVec 32 :=
  branch.target (addressOf (regs 15) inst branch.instBits) (regs 15 &&& 1) high regs

/-- What it leaves in `r14` if it links. -/
def returnOf (branch : Branch) (inst : Nat) (regs : Fin 16 → BitVec 32) : BitVec 32 :=
  branch.returnAddress (addressOf (regs 15) inst branch.instBits) (regs 15 &&& 1)

/-- The branches that go where they should: a linking branch to `r14` only if
`r14` holds the return address already, and a branch that changes the state only
from the second halfword of a word. -/
def AimsRight (branch : Branch) (inst : Nat) (regs : Fin 16 → BitVec 32) : Prop :=
  match branch with
  | .armRegister true _ rm | .thumbRegister true rm =>
      rm.toFin = 14 → regs 14 = returnOf branch inst regs
  | .thumbSuffix true _ => inst % 2 = 1
  | _ => True

section Targets

variable {branch : Branch} {ctx : Context} (inst : Nat) (lookaheadS : Bool)
  (regs : Fin 16 → BitVec 32)

theorem codeTarget_register (counter : ctx.rm ≠ 15) (kind : ctx.instruction = .bx) 
    (emitter : Emitter) (bpre : BitVec 32) : codeTarget ctx emitter regs bpre = regs ctx.rm := by
  simp [codeTarget, kind, registerTarget, counter]

theorem codeTarget_link_register (counter : ctx.rm ≠ 15) (kind : ctx.instruction = .blx)
    (emitter : Emitter) (bpre : BitVec 32) :
    codeTarget ctx emitter regs bpre = regs ctx.rm ↔
      (ctx.rm = 14 → regs 14 = linkValue emitter regs) := by
  by_cases link : ctx.rm = 14
  · simp [codeTarget, kind, registerTarget, link, eq_comm]
  · simp [codeTarget, kind, registerTarget, counter, link]

/-- The long branches count from their first halfword. -/
theorem codeTarget_suffix {exchange : Bool} {offset : BitVec 11}
    (shows : (Branch.thumbSuffix exchange offset).Shows 0 ctx) (high : BitVec 11) :
    codeTarget ctx ⟨1, inst, lookaheadS⟩ regs (4 + Branch.highOffset high) =
      addressOf (regs 15) inst 1 - 2 + 4 + Branch.highOffset high +
        (Branch.thumbSuffix exchange offset).offset + if exchange then 0 else regs 15 &&& 1 := by
  have imm : ctx.imm = (Branch.thumbSuffix exchange offset).offset := shows.imm _ rfl
  have link : linkValue ⟨1, inst, lookaheadS⟩ regs =
      (addressOf (regs 15) inst 1 + 2) + (regs 15 &&& 1) :=
    linkValue_eq (.thumbSuffix exchange offset) inst lookaheadS regs
  have even : (addressOf (regs 15) inst 1 + 2).getLsbD 0 = false := by
    have page := page_aligned (regs 15)
    have index := shiftLeft_one_toNat inst
    rw [lowest_eq_false_iff, addressOf, BitVec.toNat_add, BitVec.toNat_add, index,
      show (2 : BitVec 32).toNat = 2 from rfl]
    omega
  cases exchange with
  | true =>
      have kind : ctx.instruction = .blxI := shows.instruction
      simp only [codeTarget, kind, link, clear_lowest even, imm, if_true]
      grind only
  | false =>
      have kind : ctx.instruction = .bl := shows.instruction
      simp only [codeTarget, kind, link, imm, Bool.false_eq_true, if_false]
      grind only

/-- The target of a change of state is aligned behind the first half of a word. -/
theorem suffix_aligned_iff (counter : BitVec 32) (inst : Nat) (high : BitVec 11)
    {offset : BitVec 11} (even : offset.getLsbD 0 = false) :
    (addressOf counter inst 1 - 2 + 4 + Branch.highOffset high +
        (Branch.thumbSuffix true offset).offset).toNat % 4 = 0 ↔ inst % 2 = 1 := by
  have page := page_aligned counter
  have index := shiftLeft_one_toNat inst
  have far : (Branch.highOffset high).toNat % 4 = 0 := by
    rw [Branch.highOffset, BitVec.toNat_signExtend, BitVec.toNat_setWidth, BitVec.toNat_append]
    simp only [Nat.shiftLeft_eq, BitVec.toNat_ofNat, Nat.zero_mod, Nat.or_zero]
    split <;> omega
  have near : (Branch.thumbSuffix true offset).offset.toNat % 4 = 0 := by
    rw [BitVec.getLsbD, Nat.testBit_zero] at even
    simp only [decide_eq_false_iff_not] at even
    rw [Branch.offset, BitVec.toNat_setWidth, BitVec.toNat_append]
    simp only [Nat.shiftLeft_eq, BitVec.toNat_ofNat, Nat.zero_mod, Nat.or_zero]
    omega
  rw [addressOf]
  generalize counter &&& pageMask = base at *
  generalize Branch.highOffset high = upper at *
  generalize (Branch.thumbSuffix true offset).offset = lower at *
  generalize BitVec.ofNat 32 inst <<< 1 = place at *
  simp only [BitVec.toNat_add, BitVec.toNat_sub, BitVec.reduceToNat]
  omega

theorem codeTarget_iff (valid : branch.Valid) (shows : branch.Shows 0 ctx)
    (low : ∀ rm ∈ branch.register, rm ≠ 15) {high : BitVec 11} {bpre : BitVec 32}
    (accumulates : Accumulates branch high bpre) :
    codeTarget ctx ⟨branch.instBits, inst, lookaheadS⟩ regs bpre = targetOf branch inst high regs ↔
      AimsRight branch inst regs := by
  cases branch with
  | arm link cond offset =>
      have imm : ctx.imm = 0 + 8 + (Branch.arm link cond offset).offset := shows.imm _ rfl
      obtain rfl : bpre = 0 := accumulates
      refine iff_of_true ?_ trivial
      cases link with
      | true =>
          have kind : ctx.instruction = .bl := shows.instruction
          have size : 1#32 <<< (Branch.arm true cond offset).instBits = 4 := rfl
          simp only [codeTarget, kind, imm, linkValue_eq, targetOf, Branch.target,
            Branch.returnAddress, size]
          grind only
      | false =>
          have kind : ctx.instruction = .b := shows.instruction
          simp only [codeTarget, kind, imm, targetOf, Branch.target, page_and_state, addressOf]
          grind only
  | armRegister link cond rm =>
      have same : ctx.rm = rm.toFin := shows.rm _ rfl
      have counter : ctx.rm ≠ 15 := by
        rw [same]
        exact low _ rfl
      cases link with
      | true =>
          have aims := codeTarget_link_register regs counter shows.instruction
            ⟨(Branch.armRegister true cond rm).instBits, inst, lookaheadS⟩ bpre
          rw [linkValue_eq, same] at aims
          rw [targetOf, Branch.target, aims]
          exact Iff.rfl
      | false =>
          refine iff_of_true ?_ trivial
          rw [codeTarget_register regs counter shows.instruction, same]
          rfl
  | thumb offset =>
      have imm : ctx.imm = 0 + 4 + (Branch.thumb offset).offset := shows.imm _ rfl
      have kind : ctx.instruction = .b := shows.instruction
      refine iff_of_true ?_ trivial
      simp only [codeTarget, kind, imm, targetOf, Branch.target, page_and_state, addressOf]
      grind only
  | thumbConditional cond offset =>
      have imm : ctx.imm = 0 + 4 + (Branch.thumbConditional cond offset).offset := shows.imm _ rfl
      have kind : ctx.instruction = .b := shows.instruction
      refine iff_of_true ?_ trivial
      simp only [codeTarget, kind, imm, targetOf, Branch.target, page_and_state, addressOf]
      grind only
  | thumbSuffix exchange offset =>
      obtain rfl : bpre = 4 + Branch.highOffset high := accumulates
      have target := codeTarget_suffix inst lookaheadS regs shows high
      rw [show (Branch.thumbSuffix exchange offset).instBits = 1 from rfl, target, targetOf]
      cases exchange with
      | false => exact iff_of_true rfl trivial
      | true =>
          have even : offset.getLsbD 0 = false := valid rfl
          rw [if_pos rfl, add_zero, eq_comm]
          exact (aligned_iff _).trans (suffix_aligned_iff (regs 15) inst high even)
  | thumbRegister link rm =>
      have same : ctx.rm = rm.toFin := shows.rm _ rfl
      have counter : ctx.rm ≠ 15 := by
        rw [same]
        exact low _ rfl
      cases link with
      | true =>
          have aims := codeTarget_link_register regs counter shows.instruction
            ⟨(Branch.thumbRegister true rm).instBits, inst, lookaheadS⟩ bpre
          rw [linkValue_eq, same] at aims
          rw [targetOf, Branch.target, aims]
          exact Iff.rfl
      | false =>
          refine iff_of_true ?_ trivial
          rw [codeTarget_register regs counter shows.instruction, same]
          rfl

end Targets

/-! ### Branches -/

/-- The branch leaves for its target with the registers of the architecture. -/
structure BranchesTo (branch : Branch) (inst : Nat) (high : BitVec 11)
    (before after : HostState World) : Prop where
  target : after.regs .ecx = targetOf branch inst high before.context.regs
  regs : RegsBecome before after
    (branchRegs branch.links before.context.regs (returnOf branch inst before.context.regs)
      (targetOf branch inst high before.context.regs))
  bpre : branch.linksImmediate = true → after.context.bpre = 0

theorem inst_mem_branches (branch : Branch) :
    branch.inst ∈ [Inst.blxI, .bl, .blx, .bx, .b] ∧
      (decide (branch.inst ∈ [Inst.blxI, .bl, .blx]) = branch.links) ∧
      (decide (branch.inst ∈ [Inst.blxI, .bl]) = branch.linksImmediate) := by
  cases branch with
  | thumb | thumbConditional => simp [Branch.inst, Branch.links, Branch.linksImmediate]
  | arm link | armRegister link | thumbRegister link | thumbSuffix link =>
      cases link <;> simp [Branch.inst, Branch.links, Branch.linksImmediate]

/-- The first halfword of a long branch prepares its second one. -/
theorem prefix_accumulates (env : HostEnv World) (prior : Disassembler) (high : BitVec 11)
    (emitter : Emitter) (flagsUpdated : Bool) (state : HostState World) :
    ∃ after,
      Finishes (hostIsa env)
          (compileInstruction (prior.decodeThumb (Branch.prefixWord high) 0).toContext emitter
            flagsUpdated).code state after ∧
        RegsBecome state after state.context.regs ∧
        after.context.bpre = 4 + Branch.highOffset high := by
  obtain ⟨kind, always, imm⟩ := Branch.decodeThumb_prefixWord prior 0 high
  generalize (prior.decodeThumb (Branch.prefixWord high) 0).toContext = ctx at *
  have code (held : Bool) : (compileBody ctx emitter held).code =
      [.mov (.field .bpre) (.imm32 ctx.imm)] := by
    simp [compileBody, kind, plain]
  have straight (held : Bool) : Straight (compileBody ctx emitter held).code := by
    simp [code, HostInstr.straight]
  have kept := keepsGuest_testCode env ctx emitter flagsUpdated state
  have executed := executed_always env always emitter flagsUpdated state
  have set := arrived_setBpre env (applyAll env (testCode ctx emitter flagsUpdated) state) ctx.imm
  rw [kept.context] at set
  refine ⟨_, finishes_executed env executed (straight _), ?_, ?_⟩
  · rw [code]
    exact kept.toKeepsContexts.andThen set.toRegsBecome
  · rw [code, applyAll_cons, applyAll_nil, set.bpre, imm, zero_add]

/-- Where an executed branch leaves to. -/
theorem leaves_codeTarget (env : HostEnv World) (branch : Branch) {ctx : Context}
    (shows : branch.Shows 0 ctx) (inst : Nat) (lookaheadS flagsUpdated : Bool)
    (state : HostState World)
    (executed : Executed env ctx ⟨branch.instBits, inst, lookaheadS⟩ flagsUpdated state) :
    ∃ after,
      Leaves (hostIsa env)
          (compileInstruction ctx ⟨branch.instBits, inst, lookaheadS⟩ flagsUpdated).code state
          .jmpBranch after ∧
        Arrived state after
          (branchRegs branch.links state.context.regs (returnOf branch inst state.context.regs)
            (codeTarget ctx ⟨branch.instBits, inst, lookaheadS⟩ state.context.regs
              state.context.bpre))
          (codeTarget ctx ⟨branch.instBits, inst, lookaheadS⟩ state.context.regs
            state.context.bpre)
          (if branch.linksImmediate then 0 else state.context.bpre) := by
  let emitter : Emitter := ⟨branch.instBits, inst, lookaheadS⟩
  have known := inst_mem_branches branch
  let tested := applyAll env (testCode ctx emitter flagsUpdated) state
  have kept : KeepsGuest state tested := keepsGuest_testCode env ctx emitter flagsUpdated state
  have link : linkValue emitter state.context.regs = returnOf branch inst state.context.regs :=
    linkValue_eq branch inst lookaheadS state.context.regs
  rw [← shows.instruction] at known
  obtain ⟨after, left, arrived⟩ := leaves_branch env ctx emitter known.1
    (flagsHeld emitter flagsUpdated || conditional ctx) tested
  rw [known.2.1, kept.context, link] at arrived
  refine ⟨after, leaves_executed env ctx emitter flagsUpdated executed left, ?_, arrived.ecx, ?_⟩
  · exact kept.toKeepsContexts.andThen arrived.toRegsBecome
  · rw [arrived.bpre, ← known.2.2]
    simp

/-- An executed branch goes where the architecture says exactly if it is none of
the two above. -/
theorem branch_iff (env : HostEnv World) (branch : Branch) (valid : branch.Valid)
    (low : ∀ rm ∈ branch.register, rm ≠ 15) (prior : Disassembler) (high : BitVec 11)
    (inst : Nat) (lookaheadS flagsUpdated : Bool) (state : HostState World)
    (accumulates : Accumulates branch high state.context.bpre)
    (executed : Executed env (branch.decoded prior 0) ⟨branch.instBits, inst, lookaheadS⟩
      flagsUpdated state) :
    (∃ after,
      Leaves (hostIsa env)
          (compileInstruction (branch.decoded prior 0) ⟨branch.instBits, inst, lookaheadS⟩
            flagsUpdated).code state .jmpBranch after ∧
        BranchesTo branch inst high state after) ↔
      AimsRight branch inst state.context.regs := by
  have shows : branch.Shows 0 (branch.decoded prior 0) := branch.decoded_shows valid prior 0
  obtain ⟨after, leaves, arrived⟩ :=
    leaves_codeTarget env branch shows inst lookaheadS flagsUpdated state executed
  rw [← codeTarget_iff inst lookaheadS state.context.regs valid shows low accumulates]
  constructor
  · rintro ⟨other, otherLeft, branches⟩
    rw [← leaves.unique (hostIsa env) otherLeft] at branches
    exact arrived.ecx.symm.trans branches.target
  · intro target
    rw [target] at arrived
    refine ⟨after, leaves, arrived.ecx, arrived.toRegsBecome, ?_⟩
    intro immediate
    have cleared := arrived.bpre
    rwa [if_pos immediate] at cleared

/-- `blx lr`. -/
def linkToLink : Branch := .armRegister true .al 14

theorem branch_iff_seven :
    (∃ after,
      Leaves (hostIsa .idle)
          (compileInstruction (linkToLink.decoded .blank 0) ⟨2, 0, false⟩ false).code
          (uniform 7 : HostState Unit) .jmpBranch after ∧
        BranchesTo linkToLink 0 0 (uniform 7) after) ↔
      AimsRight linkToLink 0 (uniform 7 : HostState Unit).context.regs :=
  branch_iff .idle linkToLink (by decide) (by decide) .blank 0 0 false false (uniform 7)
    rfl (executed_always .idle (by decide) _ _ _)

/-- The link is set before it is read. -/
theorem branch_fail_link :
    linkToLink.Valid ∧ Accumulates linkToLink 0 (uniform 7 : HostState Unit).context.bpre ∧
      Executed .idle (linkToLink.decoded .blank 0) ⟨2, 0, false⟩ false
        (uniform 7 : HostState Unit) ∧
      ¬∃ after,
        Leaves (hostIsa .idle)
            (compileInstruction (linkToLink.decoded .blank 0) ⟨2, 0, false⟩ false).code
            (uniform 7 : HostState Unit) .jmpBranch after ∧
          BranchesTo linkToLink 0 0 (uniform 7) after := by
  have executed : Executed .idle (linkToLink.decoded .blank 0) ⟨2, 0, false⟩ false
      (uniform 7 : HostState Unit) := executed_always .idle (by decide) _ _ _
  have shows := linkToLink.decoded_shows (by decide) .blank 0
  refine ⟨by decide, rfl, executed, ?_⟩
  rintro ⟨after, leaves, branches⟩
  obtain ⟨other, otherLeaves, arrived⟩ :=
    leaves_codeTarget .idle linkToLink shows 0 false false (uniform 7) executed
  have target := branches.target
  rw [leaves.unique (hostIsa .idle) otherLeaves, arrived.ecx] at target
  revert target
  decide

end Compiler

end Ndse
