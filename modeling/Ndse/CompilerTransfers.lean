import Ndse.GuestWords
import Ndse.HostStack

/-!
# Translated multiple transfers

The code for `LDM` and `STM` has three shapes: a single register is transferred
like one word, neighbouring registers right from and to the context, and all
others over the stack.  They agree, but for the load of a single register from
an address that is not aligned.
-/

namespace Ndse

open FlatCode GuestMemory

/-! ### Surroundings -/

/-- Surroundings whose loads and stores are those of a processor.  What a
transfer of several words leaves that reports something is left open. -/
def HostEnv.onGuest {World : Type} (env : HostEnv (GuestMemory × World)) (cpu : Cpu)
    (ioLoad : BitVec 32 → BitVec 32) : HostEnv (GuestMemory × World) :=
  { env with
    store32 := fun world addr value => (world.1.store32 cpu addr value, world.2)
    store16 := fun world addr value => (world.1.store16 cpu addr value, world.2)
    store8 := fun world addr value => (world.1.store8 cpu addr value, world.2)
    store32Array := fun world addr words => (world.1.store32Array cpu addr words, world.2)
    load32 := fun world addr => (world, world.1.load32 cpu ioLoad addr)
    load16u := fun world addr => (world, world.1.load16u cpu ioLoad addr)
    load16s := fun world addr => (world, world.1.load16s cpu ioLoad addr)
    load8u := fun world addr => (world, world.1.load8u cpu ioLoad addr)
    load32Array := fun world addr num =>
      let loaded := world.1.load32Array cpu addr (List.replicate num 0)
      (world, if loaded.2 = .done then loaded.1 else (env.load32Array world addr num).2) }

/-- Surroundings in which the functions of the emulator leave guest memory alone. -/
def HostEnv.idleGuest : HostEnv (GuestMemory × Unit) where
  address := HostEnv.idle.address
  address_injective := HostEnv.idle.address_injective
  store32 := fun world _ _ => world
  store16 := fun world _ _ => world
  store8 := fun world _ _ => world
  store32Array := fun world _ _ => world
  load32 := fun world _ => (world, 0)
  load16u := fun world _ => (world, 0)
  load16s := fun world _ => (world, 0)
  load8u := fun world _ => (world, 0)
  load32Array := fun world _ num => (world, List.replicate num 0)
  pushcallstack := fun world _ => world
  popcallstack := fun world _ => world
  remapTcm := fun world _ _ => world
  swi := fun world processor _ => (world, processor)
  debugMagic := fun world _ _ => (world, none)
  clobbered := fun _ _ _ _ => ⟨0, 0, 0, ⟨false, false, false, false, false, false⟩⟩
  undefined := fun _ _ _ => ⟨false, false, false, false, false, false⟩

/-! ### What a transfer is -/

namespace Context

def loads (ctx : Context) : Bool := ctx.instruction = .ldm ∨ ctx.instruction = .ldmW

def writesBack (ctx : Context) : Bool := ctx.instruction = .stmW ∨ ctx.instruction = .ldmW

/-- The address the lowest register is transferred to or from. -/
def transferStart (ctx : Context) (base : BitVec 32) (num : Nat) : BitVec 32 :=
  match ctx.addressingMode with
  | .ia => base
  | .ib => base + 4
  | .da => base - BitVec.ofNat 32 (4 * num) + 4
  | .db => base - BitVec.ofNat 32 (4 * num)

/-- The updated base. -/
def transferBase (ctx : Context) (base : BitVec 32) (num : Nat) : BitVec 32 :=
  match ctx.addressingMode with
  | .ia | .ib => base + BitVec.ofNat 32 (4 * num)
  | .da | .db => base - BitVec.ofNat 32 (4 * num)

end Context

namespace Compiler

variable {World : Type}

/-- A transfer without `r15`, and a load without its base. -/
structure MultipleTransfer (ctx : Context) : Prop where
  instruction : ctx.instruction ∈ [.stm, .stmW, .ldm, .ldmW]
  plain : ctx.sBit = false
  list : transferList ctx ≠ []
  list_pc : 15 ∉ transferList ctx
  base_pc : ctx.rn ≠ 15
  list_base : ctx.loads = true → ctx.rn ∉ transferList ctx

/-- What a transfer should do. -/
structure Transferred (ctx : Context) (cpu : Cpu)
    (before after : HostState (GuestMemory × World)) : Prop where
  processor : OnlyRegs before after after.context.regs
  regs : ∀ i, (ctx.loads = true → i ∉ transferList ctx) →
    (ctx.writesBack = true → i ≠ ctx.rn) → after.context.regs i = before.context.regs i
  base : ctx.writesBack = true → after.context.regs ctx.rn =
    ctx.transferBase (before.context.regs ctx.rn) (transferList ctx).length
  loaded : ctx.loads = true → ∀ k (inside : k < (transferList ctx).length),
    after.context.regs (transferList ctx)[k] = before.world.1.wordAt cpu
      (wordAddr (ctx.transferStart (before.context.regs ctx.rn) (transferList ctx).length) k)
  kept : ctx.loads = true → after.world.1 = before.world.1
  stored : ctx.loads = false → WordsStored before.world.1 after.world.1 cpu
    (ctx.transferStart (before.context.regs ctx.rn) (transferList ctx).length)
    ((transferList ctx).map before.context.regs)
  world : after.world.2 = before.world.2

variable (env : HostEnv World)

variable {ctx : Context}

/-- The address of the transfer is pushed. -/
theorem pushed_pushMultiple (ctx : Context) (num : Nat) (state : HostState World) :
    Pushed state (applyAll env (pushMultiple ctx num) state)
      [ctx.transferStart (state.context.regs ctx.rn) num] := by
  have start {value : BitVec 32} (middle : HostState World) (contexts : KeepsContexts state middle)
      (around : KeepsSurroundings state middle) (ecx : middle.regs .ecx = value) :
      Pushed state ((HostInstr.push Compiler.ecx).apply env middle) [value] := by
    have pushed := (pushed_nil contexts around).push env (by simp) Compiler.ecx
    rwa [HostState.read_reg, ecx] at pushed
  cases mode : ctx.addressingMode with
  | ia =>
      simp only [pushMultiple, Context.transferStart, mode]
      exact pushed_push state _
  | ib =>
      simp only [pushMultiple, Context.transferStart, mode, applyAll_cons, applyAll_nil]
      apply start
      · constructor <;> simp [HostInstr.apply, AluOp.writes]
      · constructor <;> simp [HostInstr.apply, AluOp.writes]
      · simp [HostInstr.apply, AluOp.writes, aluResult]
  | da =>
      have amount : BitVec.ofNat 32 (4 * num) = ((BitVec.ofNat 32 num - 1) <<< 2) + 4 := by
        apply BitVec.eq_of_toNat_eq
        simp [BitVec.toNat_sub, Nat.shiftLeft_eq]
        omega
      simp only [pushMultiple, Context.transferStart, mode, applyAll_cons, applyAll_nil, amount]
      apply start
      · constructor <;> simp [HostInstr.apply, AluOp.writes]
      · constructor <;> simp [HostInstr.apply, AluOp.writes]
      · simp [HostInstr.apply, AluOp.writes, aluResult]
        generalize (BitVec.ofNat 32 num - 1#32) <<< 2 = lower
        bv_omega
  | db =>
      simp only [pushMultiple, Context.transferStart, mode, applyAll_cons, applyAll_nil]
      apply start
      · constructor <;> simp [HostInstr.apply, AluOp.writes]
      · constructor <;> simp [HostInstr.apply, AluOp.writes]
      · simp [HostInstr.apply, AluOp.writes, aluResult]

/-- The address of a register of the context is pushed. -/
theorem pushed_pushContext (lowest : Fin 16) (state : HostState World) :
    Pushed state (applyAll env (pushContext lowest) state)
      [env.address state.ebp + BitVec.ofNat 32 (4 * lowest.val)] := by
  rw [pushContext]
  split
  · next zero =>
    rw [zero]
    simpa [HostInstr.apply] using pushed_push state (env.address state.ebp)
  · let loaded := state.setReg .eax (env.address state.ebp + BitVec.ofNat 32 (4 * lowest.val))
    have computed : Pushed state loaded [] := pushed_nil ⟨rfl, rfl⟩ ⟨rfl, rfl, rfl⟩
    have pushed := computed.push env (by simp) eax
    rw [HostState.read_reg, HostState.setReg_regs, Function.update_self] at pushed
    exact pushed

theorem sorted_transferList (ctx : Context) : (transferList ctx).Pairwise (· < ·) :=
  (List.pairwise_lt_finRange 16).filter _

theorem length_transferList (ctx : Context) : (transferList ctx).length ≤ 16 :=
  (List.length_filter_le _ _).trans List.length_finRange.le

theorem count_transferList {lowest : Fin 16} {rest : List (Fin 16)} {num : Nat}
    (registers : transferList ctx = lowest :: rest) (count : (lowest :: rest).length = num) :
    0 < num ∧ num ≤ 16 := by
  have short := length_transferList ctx
  rw [registers, count] at short
  have some : 0 < (lowest :: rest).length := Nat.succ_pos _
  omega

theorem toNat_count {num : Nat} (short : num ≤ 16) : (BitVec.ofNat 32 num).toNat = num := by
  rw [BitVec.toNat_ofNat, Nat.mod_eq_of_lt (by omega)]

theorem neighbours_of_isRegion (region : isRegion ctx = true) {index : Fin 16}
    {list : List (Fin 16)} (registers : transferList ctx = index :: list) :
    Neighbours (index :: list) := by
  have sorted := sorted_transferList ctx
  rw [registers] at sorted
  rw [isRegion, registers] at region
  exact neighbours_of_span sorted (of_decide_eq_true region)

/-! ### Stores -/

/-- The address for a single register. -/
theorem addressed_loadEcxSingle (ctx : Context) (state : HostState World) :
    Addressed state (applyAll env (loadEcxSingle ctx) state)
        (ctx.transferStart (state.context.regs ctx.rn) 1) ∧
      KeepsSurroundings state (applyAll env (loadEcxSingle ctx) state) := by
  cases mode : ctx.addressingMode <;> simp only [loadEcxSingle, Context.transferStart, mode] <;>
    refine ⟨⟨⟨?_, ?_⟩, ?_, ?_⟩, ⟨?_, ?_, ?_⟩⟩ <;>
    simp [HostInstr.apply, AluOp.writes, aluResult]

/-- Words stored by the function for one word or by the one for several. -/
def storeRegisters (world : World) (start : BitVec 32) : List (BitVec 32) → World
  | [word] => env.store32 world start word
  | words => env.store32Array world start words

/-- The words are pushed with the number and the address in front. -/
theorem Pushed.transfer {before middle : HostState World} {words : List (BitVec 32)}
    (pushed : Pushed before middle words) (short : words.length < 50) (ctx : Context) (num : Nat) :
    Pushed before
      (applyAll env ([.push (.imm8 (BitVec.ofNat 32 num))] ++ pushMultiple ctx num) middle)
      (ctx.transferStart (before.context.regs ctx.rn) num :: BitVec.ofNat 32 num :: words) := by
  have counted := pushed.push env (by omega) (.imm8 (BitVec.ofNat 32 num))
  have addressed := pushed_pushMultiple env ctx num
    ((HostInstr.push (.imm8 (BitVec.ofNat 32 num))).apply env middle)
  rw [counted.context] at addressed
  exact counted.append addressed (by simp; omega)

theorem passed_single {before middle : HostState World} {addr : BitVec 32}
    (addressed : Addressed before middle addr) (around : KeepsSurroundings before middle)
    (index : Fin 16) :
    Passed before (applyAll env [.mov edx (guest index), .call .store32] middle)
      (env.store32 before.world addr (before.context.regs index)) := by
  refine ⟨⟨addressed.processor, addressed.ebp⟩, around.esp, ?_⟩
  rw [← addressed.world, ← addressed.ecx, ← addressed.context]
  rfl

section Stores

variable {env} {lowest : Fin 16} {rest : List (Fin 16)} {num : Nat}
  (registers : transferList ctx = lowest :: rest) (count : (lowest :: rest).length = num)
  (state : HostState World)

include registers count

/-- Neighbouring registers are stored from the context. -/
theorem passed_region (region : isRegion ctx = true) (layout : Layout env state.esp) :
    Passed state
      (applyAll env
        (pushContext lowest ++ [.push (.imm8 (BitVec.ofNat 32 num))] ++ pushMultiple ctx num ++
          [.call .store32Array, .addEsp 12]) state)
      (env.store32Array state.world (ctx.transferStart (state.context.regs ctx.rn) num)
        ((lowest :: rest).map state.context.regs)) := by
  obtain ⟨-, short⟩ := count_transferList registers count
  have pointer := pushed_pushContext env lowest state
  have pushed := pointer.transfer env (by simp) ctx num
  rw [List.append_assoc, List.append_assoc, applyAll_append, ← List.append_assoc, applyAll_append]
  generalize applyAll env (_ ++ pushMultiple ctx num) (applyAll env (pushContext lowest) state) =
    middle at *
  have read := wordsAt_context env (neighbours_of_isRegion region registers) layout.contexts middle
  rw [pushed.ebp, pushed.context] at read
  have length : ((lowest :: rest).map state.context.regs).length = (BitVec.ofNat 32 num).toNat := by
    rw [List.length_map, count, toNat_count short]
  have done := passed_array env pushed length read
  rw [List.length_nil] at done
  exact done

/-- All others are pushed on the stack. -/
theorem passed_stack (layout : Layout env state.esp) :
    Passed state
      (applyAll env
        (((lowest :: rest).reverse.map fun i => .push (guest i)) ++
          [.pushEsp, .push (.imm8 (BitVec.ofNat 32 num))] ++ pushMultiple ctx num ++
          [.call .store32Array, .addEsp (BitVec.ofNat 32 (4 * (num + 3)))]) state)
      (env.store32Array state.world (ctx.transferStart (state.context.regs ctx.rn) num)
        ((lowest :: rest).map state.context.regs)) := by
  obtain ⟨-, short⟩ := count_transferList registers count
  have words := pushed_registers env (lowest :: rest) (by omega) state
  have length : ((lowest :: rest).map state.context.regs).length = num := by
    rw [List.length_map, count]
  have split : ((lowest :: rest).reverse.map fun i => HostInstr.push (guest i)) ++
      [.pushEsp, .push (.imm8 (BitVec.ofNat 32 num))] ++ pushMultiple ctx num ++
        [.call .store32Array, .addEsp (BitVec.ofNat 32 (4 * (num + 3)))] =
      ((lowest :: rest).reverse.map fun i => HostInstr.push (guest i)) ++ ([.pushEsp] ++
        (([.push (.imm8 (BitVec.ofNat 32 num))] ++ pushMultiple ctx num) ++
          [.call .store32Array, .addEsp (BitVec.ofNat 32 (4 * (num + 3)))])) := by
    simp
  generalize (lowest :: rest).map state.context.regs = values at *
  rw [split, applyAll_append]
  generalize applyAll env ((lowest :: rest).reverse.map fun i => HostInstr.push (guest i)) state =
    pushing at *
  rw [applyAll_append]
  have pointer : Pushed state (applyAll env [.pushEsp] pushing) (pushing.esp :: values) :=
    words.append (pushed_push pushing pushing.esp) (by
      rw [List.length_append, length, List.length_singleton]
      omega)
  generalize applyAll env [.pushEsp] pushing = pointing at *
  have pushed := pointer.transfer env (by
    rw [List.length_cons, length]
    omega) ctx num
  rw [applyAll_append]
  generalize applyAll env (_ ++ pushMultiple ctx num) pointing = middle at *
  have read : WordsAt env middle pushing.esp values := by
    have stacked : Pushed state middle ([_, _, _] ++ values) := pushed
    rw [words.esp]
    exact wordsAt_pushed stacked layout (by omega)
  have done := passed_array env pushed (length.trans (toNat_count short).symm) read
  rwa [length] at done

end Stores

theorem mem_transferList {index : Fin 16} :
    index ∈ transferList ctx ↔ ctx.imm.getLsbD index.val = true := by
  simp [transferList]

/-- The code of a store hands all registers to the memory. -/
theorem passed_stmTransfer (accepted : MultipleTransfer ctx) (emitter : Emitter)
    (state : HostState World) (layout : Layout env state.esp) :
    Passed state (applyAll env (stmTransfer ctx emitter) state)
      (storeRegisters env state.world
        (ctx.transferStart (state.context.regs ctx.rn) (transferList ctx).length)
        ((transferList ctx).map state.context.regs)) := by
  have noPc := accepted.list_pc
  have pcBit : ¬ctx.imm.getLsbD 15 = true := fun pc => noPc (mem_transferList.mpr pc)
  rw [stmTransfer]
  rcases registers : transferList ctx with _ | ⟨lowest, _ | ⟨next, list⟩⟩
  · exact absurd registers accepted.list
  · dsimp only
    rw [applyAll_append]
    obtain ⟨addressed, around⟩ := addressed_loadEcxSingle env ctx state
    exact passed_single env addressed around lowest
  · dsimp only
    by_cases region : isRegion ctx = true
    · rw [if_pos region]
      exact passed_region registers rfl state region layout
    · have others : (lowest :: next :: list).filter (· ≠ 15) = lowest :: next :: list := by
        rw [registers] at noPc
        apply List.filter_eq_self.mpr
        intro index member
        have different : index ≠ 15 := ne_of_mem_of_not_mem member noPc
        exact decide_eq_true different
      rw [if_neg region, if_neg pcBit, others, List.nil_append]
      exact passed_stack registers rfl state layout

/-! ### Loads -/

/-- Words loaded by the function for one word or by the one for several. -/
def loadRegisters (world : World) (start : BitVec 32) (num : Nat) : World × List (BitVec 32) :=
  if num = 1 then ((env.load32 world start).1, [(env.load32 world start).2])
  else env.load32Array world start num

theorem loaded_single {before middle : HostState World} {addr : BitVec 32}
    (addressed : Addressed before middle addr) (around : KeepsSurroundings before middle)
    (index : Fin 16) :
    Loaded before (applyAll env [.call .load32, .mov (guest index) eax] middle)
      (Function.update before.context.regs index (env.load32 before.world addr).2)
      (env.load32 before.world addr).1 := by
  have written := onlyRegs_write (middle.call env .load32) index
    ((middle.call env .load32).regs .eax)
  have called : KeepsContexts middle (middle.call env .load32) := ⟨rfl, rfl⟩
  have eax : (middle.call env .load32).regs .eax = (env.load32 middle.world addr).2 := by
    rw [← addressed.ecx]
    rfl
  have contexts := addressed.toKeepsContexts.trans called
  rw [contexts.context, eax, addressed.world] at written
  refine ⟨contexts.onlyRegs.trans ?_, around.esp, ?_⟩
  · rw [← addressed.world, ← eax] at written ⊢
    exact written
  · rw [← addressed.world, ← addressed.ecx]
    rfl

section Loads

variable {env} {lowest : Fin 16} {rest : List (Fin 16)} {num : Nat}
  (registers : transferList ctx = lowest :: rest) (count : (lowest :: rest).length = num)
  (state : HostState World)
  (length : (env.load32Array state.world
    (ctx.transferStart (state.context.regs ctx.rn) num) num).2.length = num)

include registers count length

/-- Neighbouring registers are loaded into the context. -/
theorem loaded_region (region : isRegion ctx = true) (layout : Layout env state.esp) :
    Loaded state
      (applyAll env
        (pushContext lowest ++ [.push (.imm8 (BitVec.ofNat 32 num))] ++ pushMultiple ctx num ++
          [.call .load32Array, .addEsp 12]) state)
      (assign (lowest :: rest)
        (env.load32Array state.world (ctx.transferStart (state.context.regs ctx.rn) num) num).2
        state.context.regs)
      (env.load32Array state.world (ctx.transferStart (state.context.regs ctx.rn) num) num).1 := by
  obtain ⟨-, short⟩ := count_transferList registers count
  have pointer := pushed_pushContext env lowest state
  have pushed := pointer.transfer env (by simp) ctx num
  rw [List.append_assoc, List.append_assoc, applyAll_append, ← List.append_assoc, applyAll_append]
  generalize applyAll env (_ ++ pushMultiple ctx num) (applyAll env (pushContext lowest) state) =
    middle at *
  have released := released_call env .load32Array 12 middle
  obtain ⟨outer, reading, effect⟩ := effect_load32Array pushed
  rw [pushed.world, toNat_count short] at reading effect
  have kept := pushed.toKeepsContexts.trans reading.toKeepsContexts
  obtain ⟨only, esp, world⟩ := pokeWords_context env layout.contexts
    (neighbours_of_isRegion region registers) (length.trans count.symm) outer
  rw [kept.context] at only
  rw [kept.ebp] at only esp world
  rw [effect] at released
  refine ⟨kept.onlyRegs.trans ⟨released.ebp.trans only.ebp, ?_⟩, ?_, ?_⟩
  · rw [released.processor, only.processor, kept.context]
  · rw [released.esp, esp, reading.esp, pushed.esp]
    exact BitVec.sub_add_cancel _ _
  · rw [released.world, world, reading.world]

/-- The words are loaded to the stack. -/
theorem staged_ldmToStack (layout : Layout env state.esp) :
    let after := applyAll env (ldmToStack ctx num) state
    let loaded :=
      env.load32Array state.world (ctx.transferStart (state.context.regs ctx.rn) num) num
    KeepsContexts state after ∧ after.esp = state.esp - BitVec.ofNat 32 (4 * num) ∧
      after.world = loaded.1 ∧
        ∀ k (inside : k < loaded.2.length),
          after.stack (after.esp + BitVec.ofNat 32 (4 * k)) = loaded.2[k] := by
  obtain ⟨-, short⟩ := count_transferList registers count
  let reserved := (HostInstr.subEsp (BitVec.ofNat 32 (4 * num))).apply env state
  have contexts : KeepsContexts state reserved := ⟨rfl, rfl⟩
  have lowered : reserved.esp = state.esp - BitVec.ofNat 32 (4 * num) := rfl
  have same : reserved.world = state.world := rfl
  have pushed := (pushed_push reserved reserved.esp).transfer env (by simp) ctx num
  have split : ldmToStack ctx num =
      HostInstr.subEsp (BitVec.ofNat 32 (4 * num)) :: .pushEsp ::
        (([.push (.imm8 (BitVec.ofNat 32 num))] ++ pushMultiple ctx num) ++
          [.call .load32Array, .addEsp 12]) := by
    simp [ldmToStack]
  have run : applyAll env (ldmToStack ctx num) state =
      applyAll env [.call .load32Array, .addEsp 12]
        (applyAll env ([.push (.imm8 (BitVec.ofNat 32 num))] ++ pushMultiple ctx num)
          (reserved.push reserved.esp)) := by
    rw [split, applyAll_cons, applyAll_cons, applyAll_append]
    rfl
  rw [run]
  generalize applyAll env (_ ++ pushMultiple ctx num) (reserved.push reserved.esp) = middle at *
  have released := released_call env .load32Array 12 middle
  obtain ⟨outer, reading, effect⟩ := effect_load32Array pushed
  rw [pushed.world, toNat_count short, contexts.context, same] at reading effect
  rw [effect] at released
  generalize env.load32Array state.world (ctx.transferStart (state.context.regs ctx.rn) num) num =
    loaded at *
  have outside (k : Nat) (inside : k < loaded.2.length) :
      HostState.contextAt env (reserved.esp + BitVec.ofNat 32 (4 * k)) = none := by
    rw [lowered]
    exact layout.below (by omega) (by omega)
  have staged := staged_pokeWords env (by omega) outside outer
  generalize applyAll env [.call .load32Array, .addEsp 12] middle = after at *
  have esp : after.esp = reserved.esp := by
    rw [released.esp, staged.esp, reading.esp, pushed.esp]
    exact BitVec.sub_add_cancel _ _
  refine ⟨?_, esp, ?_, ?_⟩
  · exact (((contexts.trans pushed.toKeepsContexts).trans reading.toKeepsContexts).trans
      staged.toKeepsContexts).trans ⟨released.processor, released.ebp⟩
  · rw [released.world, staged.world, reading.world]
  · rw [released.stack, esp]
    exact staged.staged

/-- All others are loaded to the stack first. -/
theorem loaded_stack (layout : Layout env state.esp) :
    Loaded state
      (applyAll env (ldmToStack ctx num ++ (lowest :: rest).map fun i => .pop (guest i)) state)
      (assign (lowest :: rest)
        (env.load32Array state.world (ctx.transferStart (state.context.regs ctx.rn) num) num).2
        state.context.regs)
      (env.load32Array state.world (ctx.transferStart (state.context.regs ctx.rn) num) num).1 := by
  obtain ⟨kept, lowered, loaded, staged⟩ := staged_ldmToStack registers count state length layout
  rw [applyAll_append]
  obtain ⟨only, raised, world⟩ := onlyRegs_pops env (length.trans count.symm) _ staged
  rw [kept.context] at only
  refine ⟨kept.onlyRegs.trans only, ?_, world.trans loaded⟩
  rw [raised, lowered, count]
  exact BitVec.sub_add_cancel _ _

end Loads

/-- The code of a load writes the words from the memory to all registers. -/
theorem loaded_ldmTransfer (accepted : MultipleTransfer ctx) (state : HostState World)
    (layout : Layout env state.esp)
    (length : (loadRegisters env state.world
      (ctx.transferStart (state.context.regs ctx.rn) (transferList ctx).length)
      (transferList ctx).length).2.length = (transferList ctx).length) :
    let loaded := loadRegisters env state.world
      (ctx.transferStart (state.context.regs ctx.rn) (transferList ctx).length)
      (transferList ctx).length
    Loaded state (applyAll env (ldmTransfer ctx) state)
      (assign (transferList ctx) loaded.2 state.context.regs) loaded.1 := by
  rw [ldmTransfer, accepted.plain, if_neg Bool.false_ne_true]
  rcases registers : transferList ctx with _ | ⟨lowest, _ | ⟨next, list⟩⟩
  · exact absurd registers accepted.list
  · dsimp only
    rw [applyAll_append]
    obtain ⟨addressed, around⟩ := addressed_loadEcxSingle env ctx state
    exact loaded_single env addressed around lowest
  · rw [registers] at length
    have several : (lowest :: next :: list).length ≠ 1 := by simp
    rw [loadRegisters, if_neg several] at length ⊢
    dsimp only
    by_cases region : isRegion ctx = true
    · rw [if_pos region]
      exact loaded_region registers rfl state length region layout
    · rw [if_neg region]
      exact loaded_stack registers rfl state length layout

/-! ### The base register -/

theorem loaded_updateDest (ctx : Context) (size : Nat) (state : HostState World) :
    Loaded state (applyAll env (updateDest ctx size) state)
      (Function.update state.context.regs ctx.rn
        (ctx.transferBase (state.context.regs ctx.rn) size)) state.world := by
  cases mode : ctx.addressingMode <;> simp only [updateDest, Context.transferBase, mode] <;>
    refine ⟨⟨?_, ?_⟩, ?_, ?_⟩ <;>
    simp [HostInstr.apply, AluOp.writes, aluResult, HostState.setContext, EmulationContext.set]

/-- The registers after a transfer. -/
def transferRegs (ctx : Context) (world : World) (regs : Fin 16 → BitVec 32) :
    Fin 16 → BitVec 32 :=
  let list := transferList ctx
  let start := ctx.transferStart (regs ctx.rn) list.length
  let loaded :=
    if ctx.loads then assign list (loadRegisters env world start list.length).2 regs else regs
  if ctx.writesBack then
    Function.update loaded ctx.rn (ctx.transferBase (regs ctx.rn) list.length)
  else loaded

/-- What is outside of the contexts after a transfer. -/
def transferWorld (ctx : Context) (world : World) (regs : Fin 16 → BitVec 32) : World :=
  let list := transferList ctx
  let start := ctx.transferStart (regs ctx.rn) list.length
  if ctx.loads then (loadRegisters env world start list.length).1
  else storeRegisters env world start (list.map regs)

section TransferRegs

variable {ctx : Context} {world : World} {regs : Fin 16 → BitVec 32}

theorem transferRegs_of_other {index : Fin 16}
    (outside : ctx.loads = true → index ∉ transferList ctx)
    (plain : ctx.writesBack = true → index ≠ ctx.rn) :
    transferRegs env ctx world regs index = regs index := by
  have loaded (words : List (BitVec 32)) :
      (if ctx.loads then assign (transferList ctx) words regs else regs) index = regs index := by
    split
    · next loads => exact assign_of_notMem (outside loads) _ _
    · rfl
  rw [transferRegs]
  split
  · next writes => rw [Function.update_of_ne (plain writes), loaded]
  · exact loaded _

theorem transferRegs_base (writes : ctx.writesBack = true) :
    transferRegs env ctx world regs ctx.rn =
      ctx.transferBase (regs ctx.rn) (transferList ctx).length := by
  rw [transferRegs, if_pos writes, Function.update_self]

theorem transferRegs_loaded (accepted : MultipleTransfer ctx) (loads : ctx.loads = true)
    {words : List (BitVec 32)} (length : words.length = (transferList ctx).length)
    (loaded : (loadRegisters env world (ctx.transferStart (regs ctx.rn) (transferList ctx).length)
      (transferList ctx).length).2 = words)
    {k : Nat} (inside : k < (transferList ctx).length) :
    transferRegs env ctx world regs (transferList ctx)[k] = words[k] := by
  have nodup : (transferList ctx).Nodup := (sorted_transferList ctx).imp ne_of_lt
  have other : (transferList ctx)[k] ≠ ctx.rn :=
    ne_of_mem_of_not_mem (List.getElem_mem inside) (accepted.list_base loads)
  have written := assign_getElem nodup length regs inside
  rw [transferRegs, loaded, if_pos loads]
  split
  · rw [Function.update_of_ne other, written]
  · exact written

end TransferRegs

theorem ldmKeepsBase_eq_false (accepted : MultipleTransfer ctx) (loads : ctx.loads = true) :
    ldmKeepsBase ctx = false := by
  have other := accepted.list_base loads
  have first : (transferList ctx).head? ≠ some ctx.rn :=
    fun first => other (List.mem_of_mem_head? first)
  simp [ldmKeepsBase, first]

theorem ldmCode_eq (accepted : MultipleTransfer ctx) (loads : ctx.loads = true) :
    ldmCode ctx =
      ldmTransfer ctx ++
        if ctx.writesBack then updateDest ctx (transferList ctx).length else [] := by
  have other := accepted.list_base loads
  have pcBit : ctx.imm.getLsbD 15 = false :=
    Bool.eq_false_iff.mpr fun pc => accepted.list_pc (mem_transferList.mpr pc)
  have updates : ldmUpdates ctx = ctx.writesBack := by
    simp only [Context.loads, decide_eq_true_eq] at loads
    obtain kind | kind := loads <;> simp [ldmUpdates, Context.writesBack, other, kind]
  simp [-BitVec.getLsbD_eq_getElem, ldmCode, ldmKeepsBase_eq_false accepted loads, updates, pcBit]

/-- The code of a transfer. -/
theorem compileBody_transfer (accepted : MultipleTransfer ctx) (emitter : Emitter) (held : Bool) :
    (compileBody ctx emitter held).code =
      (if ctx.loads then ldmTransfer ctx else stmTransfer ctx emitter) ++
        if ctx.writesBack then updateDest ctx (transferList ctx).length else [] := by
  have user := accepted.plain
  have kinds := accepted.instruction
  simp only [List.mem_cons, List.not_mem_nil, or_false] at kinds
  obtain kind | kind | kind | kind := kinds
  · simp [compileBody, plain, Context.loads, Context.writesBack, kind, user]
  · simp [compileBody, plain, Context.loads, Context.writesBack, kind, user]
  · have loads : ctx.loads = true := by simp [Context.loads, kind]
    simp [compileBody, plain, kind, ldmCode_eq accepted loads, loads]
  · have loads : ctx.loads = true := by simp [Context.loads, kind]
    simp [compileBody, plain, kind, ldmCode_eq accepted loads, loads]

/-- The code of a transfer computes these. -/
theorem loaded_body (accepted : MultipleTransfer ctx) (emitter : Emitter) (held : Bool)
    (state : HostState World) (layout : Layout env state.esp)
    (length : (loadRegisters env state.world
      (ctx.transferStart (state.context.regs ctx.rn) (transferList ctx).length)
      (transferList ctx).length).2.length = (transferList ctx).length) :
    Loaded state (applyAll env (compileBody ctx emitter held).code state)
      (transferRegs env ctx state.world state.context.regs)
      (transferWorld env ctx state.world state.context.regs) := by
  let moved := if ctx.loads then ldmTransfer ctx else stmTransfer ctx emitter
  have transfer : Loaded state (applyAll env moved state)
      (if ctx.loads then
        assign (transferList ctx) (loadRegisters env state.world
          (ctx.transferStart (state.context.regs ctx.rn) (transferList ctx).length)
          (transferList ctx).length).2 state.context.regs
      else state.context.regs)
      (transferWorld env ctx state.world state.context.regs) := by
    cases loads : ctx.loads with
    | true =>
        simp only [moved, transferWorld, loads, if_true]
        exact loaded_ldmTransfer env accepted state layout length
    | false =>
        have passed := passed_stmTransfer env accepted emitter state layout
        simp only [moved, transferWorld, loads, Bool.false_eq_true, if_false]
        exact ⟨passed.toKeepsContexts.onlyRegs, passed.esp, passed.world⟩
  rw [compileBody_transfer accepted, applyAll_append, transferRegs]
  cases writes : ctx.writesBack with
  | false => exact transfer
  | true =>
      have updated := loaded_updateDest env ctx (transferList ctx).length
        (applyAll env moved state)
      have base : (applyAll env moved state).context.regs ctx.rn = state.context.regs ctx.rn := by
        rw [transfer.context]
        dsimp only
        split
        · next loads => rw [assign_of_notMem (accepted.list_base loads)]
        · rfl
      rw [base, transfer.context, transfer.world] at updated
      exact transfer.trans updated

/-! ### Running -/

theorem straight_pushMultiple (ctx : Context) (num : Nat) : Straight (pushMultiple ctx num) := by
  cases mode : ctx.addressingMode <;> simp [pushMultiple, mode, HostInstr.straight]

theorem straight_pushContext (lowest : Fin 16) : Straight (pushContext lowest) := by
  rw [pushContext]
  split <;> simp [HostInstr.straight]

theorem straight_loadEcxSingle (ctx : Context) : Straight (loadEcxSingle ctx) := by
  cases mode : ctx.addressingMode <;> simp [loadEcxSingle, mode, HostInstr.straight]

theorem straight_updateDest (ctx : Context) (size : Nat) : Straight (updateDest ctx size) := by
  cases mode : ctx.addressingMode <;> simp [updateDest, mode, HostInstr.straight]

theorem straight_map {list : List (Fin 16)} {instr : Fin 16 → HostInstr}
    (each : ∀ index, (instr index).straight = true) : Straight (list.map instr) := by
  intro emitted member
  obtain ⟨index, -, rfl⟩ := List.mem_map.mp member
  exact each index

theorem straight_stmTransfer (some : transferList ctx ≠ []) (emitter : Emitter) :
    Straight (stmTransfer ctx emitter) := by
  have pushes (list : List (Fin 16)) : Straight (list.map fun i => .push (guest i)) :=
    straight_map fun _ => rfl
  rw [stmTransfer]
  split
  · next none => exact absurd none some
  · simp only [straight_append, straight_cons, straight_nil, straight_loadEcxSingle,
      HostInstr.straight, and_self]
  · simp only [straight_ite, straight_append, straight_cons, straight_nil, straight_pushContext,
      straight_pushMultiple, pushes, HostInstr.straight, loadR15Ecx, addNextInst, implies_true,
      and_self]

theorem straight_ldmTransfer (accepted : MultipleTransfer ctx) : Straight (ldmTransfer ctx) := by
  have pops (list : List (Fin 16)) : Straight (list.map fun i => .pop (guest i)) :=
    straight_map fun _ => rfl
  rw [ldmTransfer, accepted.plain, if_neg Bool.false_ne_true]
  split
  · next none => exact absurd none accepted.list
  · simp only [straight_append, straight_cons, straight_nil, straight_loadEcxSingle,
      HostInstr.straight, and_self]
  · simp only [straight_ite, straight_append, straight_cons, straight_nil, straight_pushContext,
      straight_pushMultiple, ldmToStack, pops, HostInstr.straight, implies_true, and_self]

theorem straight_transfer (accepted : MultipleTransfer ctx) (emitter : Emitter) (held : Bool) :
    Straight (compileBody ctx emitter held).code := by
  rw [compileBody_transfer accepted, straight_append]
  constructor
  · split
    · exact straight_ldmTransfer accepted
    · exact straight_stmTransfer accepted.list emitter
  · split
    · exact straight_updateDest ctx _
    · exact straight_nil

/-- A transfer that is executed runs through and computes these. -/
theorem loaded_instruction (accepted : MultipleTransfer ctx) {emitter : Emitter}
    {flagsUpdated : Bool} {state : HostState World} (layout : Layout env state.esp)
    (executed : Executed env ctx emitter flagsUpdated state)
    (length : (loadRegisters env state.world
      (ctx.transferStart (state.context.regs ctx.rn) (transferList ctx).length)
      (transferList ctx).length).2.length = (transferList ctx).length) :
    ∃ after,
      Finishes (hostIsa env) (compileInstruction ctx emitter flagsUpdated).code state after ∧
        Loaded state after (transferRegs env ctx state.world state.context.regs)
          (transferWorld env ctx state.world state.context.regs) := by
  have kept := (keepsGuest_testCode env ctx emitter flagsUpdated state).toKeepsContexts
  have around := keepsSurroundings_testCode env ctx emitter flagsUpdated state
  have run := finishes_executed env executed (straight_transfer accepted emitter _)
  have loaded := loaded_body env accepted emitter
    (flagsHeld emitter flagsUpdated || conditional ctx)
    (applyAll env (testCode ctx emitter flagsUpdated) state)
  rw [kept.context, around.world, around.esp] at loaded
  have body := loaded layout length
  exact ⟨_, run, kept.onlyRegs.trans body.toOnlyRegs, body.esp.trans around.esp, body.world⟩

/-! ### Transfers with guest memory -/

section Guest

variable (env : HostEnv (GuestMemory × World)) {cpu : Cpu} (ioLoad : BitVec 32 → BitVec 32)
  {world : GuestMemory × World} {start : BitVec 32} {num : Nat}

/-- The word a load gets: one word alone is rotated. -/
def loadedWord (memory : GuestMemory) (cpu : Cpu) (start : BitVec 32) (num k : Nat) : BitVec 32 :=
  if num = 1 then (memory.wordAt cpu (wordAddr start k)).rotateRight (8 * (start.toNat % 4))
  else memory.wordAt cpu (wordAddr start k)

theorem loadRegisters_onGuest (some : num ≠ 0) (ordinary : world.1.OrdinaryWords cpu start num) :
    loadRegisters (env.onGuest cpu ioLoad) world start num =
      (world, (List.range num).map (loadedWord world.1 cpu start num)) := by
  rw [loadRegisters]
  split
  · next single =>
    subst single
    have first := ordinary.words 0 Nat.one_pos
    have here : world.1.Ordinary cpu start := by
      rwa [wordAddr, wordAfter_zero, Ordinary, addr2page_align] at first
    simp only [HostEnv.onGuest, load32_eq_wordAt here, List.range_one, List.map_singleton, wordAddr,
      wordAfter_zero, loadedWord, if_true]
  · next several =>
    have zeros : List.replicate num (0 : BitVec 32) ≠ [] := by simpa using some
    have loaded := load32Array_ordinary zeros (by rwa [List.length_replicate])
    rw [List.length_replicate] at loaded
    have words : loadedWord world.1 cpu start num =
        fun k => world.1.wordAt cpu (wordAddr start k) :=
      funext fun k => if_neg several
    simp only [HostEnv.onGuest, loaded, words, if_true]

theorem storeRegisters_onGuest {words : List (BitVec 32)} (some : words ≠ [])
    (short : words.length ≤ 128) (ordinary : world.1.OrdinaryWords cpu start words.length) :
    (storeRegisters (env.onGuest cpu ioLoad) world start words).2 = world.2 ∧
      WordsStored world.1 (storeRegisters (env.onGuest cpu ioLoad) world start words).1 cpu start
        words := by
  rcases words with _ | ⟨word, _ | ⟨next, words⟩⟩
  · exact absurd rfl some
  · exact ⟨rfl, wordsStored_store32 ordinary⟩
  · exact ⟨rfl, wordsStored_store32Array some short ordinary⟩

/-- A load of one register whose word the rotation changes is none of these. -/
def Unrotated (ctx : Context) (cpu : Cpu) (state : HostState (GuestMemory × World)) : Prop :=
  let start := ctx.transferStart (state.context.regs ctx.rn) (transferList ctx).length
  let word := state.world.1.wordAt cpu (wordAddr start 0)
  ctx.loads = true → (transferList ctx).length = 1 →
    word.rotateRight (8 * (start.toNat % 4)) = word

theorem transferred_iff_unrotated (accepted : MultipleTransfer ctx)
    {state after : HostState (GuestMemory × World)}
    (ordinary : state.world.1.OrdinaryWords cpu
      (ctx.transferStart (state.context.regs ctx.rn) (transferList ctx).length)
      (transferList ctx).length)
    (loaded : Loaded state after
      (transferRegs (env.onGuest cpu ioLoad) ctx state.world state.context.regs)
      (transferWorld (env.onGuest cpu ioLoad) ctx state.world state.context.regs)) :
    Transferred ctx cpu state after ↔ Unrotated ctx cpu state := by
  have some : (transferList ctx).length ≠ 0 := mt List.length_eq_zero_iff.mp accepted.list
  have regs : after.context.regs =
      transferRegs (env.onGuest cpu ioLoad) ctx state.world state.context.regs := by
    rw [loaded.context]
  have world := loaded.world
  have words := loadRegisters_onGuest env ioLoad some ordinary
  have value (loads : ctx.loads = true) (k : Nat) (inside : k < (transferList ctx).length) :
      after.context.regs (transferList ctx)[k] = loadedWord state.world.1 cpu
        (ctx.transferStart (state.context.regs ctx.rn) (transferList ctx).length)
        (transferList ctx).length k := by
    rw [regs, transferRegs_loaded (env.onGuest cpu ioLoad) accepted loads (by simp)
      (congrArg Prod.snd words) inside, List.getElem_map, List.getElem_range]
  rw [transferWorld, words] at world
  have length : ((transferList ctx).map state.context.regs).length = (transferList ctx).length :=
    List.length_map _
  have stored := storeRegisters_onGuest env ioLoad (mt List.map_eq_nil_iff.mp accepted.list)
    (length.le.trans ((length_transferList ctx).trans (by decide))) (by rwa [length])
  constructor
  · intro transferred loads single
    have first := transferred.loaded loads 0 (by omega)
    rwa [value loads, loadedWord, if_pos single] at first
  · intro unrotated
    refine ⟨?_, ?_, ?_, ?_, ?_, ?_, ?_⟩
    · rw [loaded.context]
      exact loaded.toOnlyRegs
    · intro i outside plain
      rw [regs, transferRegs_of_other _ outside plain]
    · intro writes
      rw [regs, transferRegs_base _ writes]
    · intro loads k inside
      rw [value loads, loadedWord]
      split
      · next single =>
        obtain rfl : k = 0 := by omega
        exact unrotated loads single
      · rfl
    · intro loads
      rw [world, if_pos loads]
    · intro stores
      rw [world, stores]
      exact stored.2
    · rw [world]
      split
      · rfl
      · exact stored.1

/-- The three shapes of code transfer the same words, except for a load of one
register whose word the rotation changes. -/
theorem multipleTransfer_iff (cpu : Cpu) (accepted : MultipleTransfer ctx) (emitter : Emitter)
    (flagsUpdated : Bool) (state : HostState (GuestMemory × World))
    (layout : Layout env state.esp)
    (executed : Executed (env.onGuest cpu ioLoad) ctx emitter flagsUpdated state)
    (ordinary : state.world.1.OrdinaryWords cpu
      (ctx.transferStart (state.context.regs ctx.rn) (transferList ctx).length)
      (transferList ctx).length) :
    (∃ after,
      Finishes (hostIsa (env.onGuest cpu ioLoad))
          (compileInstruction ctx emitter flagsUpdated).code state after ∧
        Transferred ctx cpu state after) ↔
      Unrotated ctx cpu state := by
  have some : (transferList ctx).length ≠ 0 := mt List.length_eq_zero_iff.mp accepted.list
  have length : (loadRegisters (env.onGuest cpu ioLoad) state.world
      (ctx.transferStart (state.context.regs ctx.rn) (transferList ctx).length)
      (transferList ctx).length).2.length = (transferList ctx).length := by
    rw [loadRegisters_onGuest env ioLoad some ordinary, List.length_map, List.length_range]
  obtain ⟨after, run, loaded⟩ := loaded_instruction (env.onGuest cpu ioLoad) accepted
    ⟨layout.contexts, layout.stack⟩ executed length
  have correct := transferred_iff_unrotated env ioLoad accepted ordinary loaded
  constructor
  · rintro ⟨other, otherRun, transferred⟩
    obtain rfl := run.unique (hostIsa (env.onGuest cpu ioLoad)) otherRun
    exact correct.mp transferred
  · intro unrotated
    exact ⟨after, run, correct.mpr unrotated⟩

end Guest

/-! ### A load of one register -/

/-- `LDMIA r1, {..}`. -/
def ldmIa (list : BitVec 32) : Context where
  instruction := .ldm
  cond := .al
  shift := .lsl
  addressingMode := .ia
  extendMode := .invalid
  sBit := false
  uBit := false
  imm := list
  rd := 0
  rn := 1
  rm := 0
  rs := 0
  cpNum := 0
  cpOp1 := 0
  cpOp2 := 0

/-- One page of main memory seen at every address, whose first word is 1. -/
def onePage : GuestMemory :=
  { mirroredPage with
    blocks := fun b =>
      { mirroredPage.blocks b with mem := fun offset => if offset = 0 then 1 else 0 } }

/-- The registers are unaligned addresses, and the stack is behind the contexts. -/
def unaligned : HostState (GuestMemory × Unit) :=
  { (uniform 0x201 : HostState Unit) with esp := 0x8000, world := (onePage, ()) }

theorem layout_unaligned : Layout HostEnv.idleGuest unaligned.esp where
  contexts := by
    intro mode
    cases mode <;> decide
  stack := by decide

theorem executed_unaligned (list : BitVec 32) :
    Executed (HostEnv.idleGuest.onGuest .arm9 fun _ => 0) (ldmIa list) ⟨2, 0, false⟩ false
      unaligned :=
  fun tested => absurd tested Bool.false_ne_true

/-- Two registers loaded from an address that is not aligned. -/
theorem multipleTransfer_iff_unaligned :
    (∃ after,
      Finishes (hostIsa (HostEnv.idleGuest.onGuest .arm9 fun _ => 0))
          (compileInstruction (ldmIa 0x5) ⟨2, 0, false⟩ false).code unaligned after ∧
        Transferred (ldmIa 0x5) .arm9 unaligned after) ↔
      Unrotated (ldmIa 0x5) .arm9 unaligned :=
  multipleTransfer_iff .idleGuest (fun _ => 0) .arm9
    ⟨by decide, rfl, by decide, by decide, by decide, by decide⟩ ⟨2, 0, false⟩ false unaligned
    layout_unaligned (executed_unaligned 0x5) ⟨by decide, by decide⟩

/-- One register loaded from there is rotated. -/
theorem multipleTransfer_fail_unaligned :
    ¬∃ after,
      Finishes (hostIsa (HostEnv.idleGuest.onGuest .arm9 fun _ => 0))
          (compileInstruction (ldmIa 0x1) ⟨2, 0, false⟩ false).code unaligned after ∧
        Transferred (ldmIa 0x1) .arm9 unaligned after := by
  have accepted : MultipleTransfer (ldmIa 0x1) :=
    ⟨by decide, rfl, by decide, by decide, by decide, by decide⟩
  obtain ⟨after, run, loaded⟩ := loaded_instruction (HostEnv.idleGuest.onGuest .arm9 fun _ => 0)
    accepted ⟨layout_unaligned.contexts, layout_unaligned.stack⟩ (executed_unaligned 0x1) rfl
  rintro ⟨other, otherRun, transferred⟩
  obtain rfl := run.unique (hostIsa (HostEnv.idleGuest.onGuest .arm9 fun _ => 0)) otherRun
  have unrotated := (transferred_iff_unrotated .idleGuest (fun _ => 0) accepted
    ⟨by decide, by decide⟩ loaded).mp transferred
  exact absurd (unrotated rfl rfl) (by decide)

end Compiler

end Ndse
