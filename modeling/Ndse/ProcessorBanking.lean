import Ndse.Library.LabelledRun
import Ndse.Processor

/-!
# Register banks against the architecture

The architecture banks single registers: `r8` to `r12` have a copy of their own
in fast interrupt mode only, `r13` and `r14` one copy for each bank, and all
other registers a single copy.  The emulator instead switches between complete
contexts and copies a prefix of the registers.  Both machines run here side by
side over the same writes and status register loads.  They agree exactly as
long as fast interrupt mode is only left for a bank that still holds the shared
registers of the bank it was entered from.
-/

namespace Ndse

/-! ### The reference register file -/

/-- The physical registers of the architecture. -/
inductive PhysReg
  | common (index : Fin 16)
  | fiq (index : Fin 16)
  | banked (mode : CpuMode) (index : Fin 16)
deriving DecidableEq

/-- The physical register that a register name means in a mode. -/
def physReg (mode : CpuMode) (index : Fin 16) : PhysReg :=
  if 13 ≤ index.val ∧ index.val < 15 then .banked mode index
  else if mode = .fastint ∧ 8 ≤ index.val ∧ index.val < 13 then .fiq index
  else .common index

/-- The reference machine: one store of physical registers. -/
structure RegisterFile where
  store : PhysReg → BitVec 32
  cpsr : BitVec 32
  mode : CpuMode

namespace RegisterFile

def boot : RegisterFile where
  store := fun _ => 0
  cpsr := 0
  mode := .user

def read (file : RegisterFile) (index : Fin 16) : BitVec 32 :=
  file.store (physReg file.mode index)

def write (file : RegisterFile) (index : Fin 16) (value : BitVec 32) : RegisterFile :=
  { file with store := Function.update file.store (physReg file.mode index) value }

/-- A masked write of the status register changes the mode and no register. -/
def loadcpsr (file : RegisterFile) (value mask : BitVec 32) : RegisterFile :=
  let cpsr := mergeMasked file.cpsr value mask
  { file with
    cpsr := cpsr
    mode := if mask &&& 0x1F ≠ 0 then (cpumodeOf cpsr).getD file.mode else file.mode }

end RegisterFile

/-! ### Running both machines -/

/-- What a program can do to the register banks. -/
inductive BankAction
  | write (index : Fin 16) (value : BitVec 32)
  | loadcpsr (value mask : BitVec 32)
deriving DecidableEq

/-- The emulator beside the reference machine.  `entered` remembers the bank
from which fast interrupt mode was last entered. -/
structure BankRun where
  processor : Processor
  file : RegisterFile
  entered : CpuMode

def BankRun.boot : BankRun where
  processor := Processor.boot
  file := RegisterFile.boot
  entered := .user

/-- One action on both machines. -/
def bankStep (run : BankRun) : BankAction → BankRun
  | .write index value =>
      { run with
        processor := run.processor.writeReg index value
        file := run.file.write index value }
  | .loadcpsr value mask =>
      { processor := (loadcpsr run.processor value mask).1
        file := run.file.loadcpsr value mask
        entered := if run.processor.mode = .fastint then run.entered else run.processor.mode }

/-- A status register load that touches the mode field names a valid mode. -/
def NamesValidMode (run : BankRun) : BankAction → Prop
  | .write _ _ => True
  | .loadcpsr value mask =>
      mask &&& 0x1F ≠ 0 → (cpumodeOf (mergeMasked run.processor.ctx.cpsr value mask)).isSome

/-- Every register reads the same on both machines. -/
def RegistersAgree (run : BankRun) : Prop :=
  ∀ index, run.processor.ctx.regs index = run.file.read index

/-- The registers fast interrupt mode has copies of. -/
def FiqRegister (index : Fin 16) : Prop := 8 ≤ index.val ∧ index.val < 13

instance (index : Fin 16) : Decidable (FiqRegister index) :=
  inferInstanceAs (Decidable (_ ∧ _))

/-- The bank a status register load makes current. -/
def targetMode (processor : Processor) (value mask : BitVec 32) : CpuMode :=
  if mask &&& 0x1F ≠ 0 then
    (cpumodeOf (mergeMasked processor.ctx.cpsr value mask)).getD processor.mode
  else processor.mode

/-- Fast interrupt mode is left only for a bank whose context holds the same
`r8` to `r12` as the bank it was entered from. -/
def LeavesFiqFaithfully (run : BankRun) : BankAction → Prop
  | .write _ _ => True
  | .loadcpsr value mask =>
      run.processor.mode = .fastint →
        targetMode run.processor value mask ≠ .fastint →
          ∀ index, FiqRegister index →
            (run.processor.context (targetMode run.processor value mask)).regs index =
              (run.processor.context run.entered).regs index

instance (run : BankRun) : DecidablePred (NamesValidMode run)
  | .write _ _ => isTrue trivial
  | .loadcpsr _ _ => inferInstanceAs (Decidable (_ → _))

instance (run : BankRun) : DecidablePred (LeavesFiqFaithfully run)
  | .write _ _ => isTrue trivial
  | .loadcpsr _ _ => inferInstanceAs (Decidable (_ → _ → ∀ _, _ → _))

instance : DecidablePred RegistersAgree :=
  fun _ => inferInstanceAs (Decidable (∀ _, _ = _))

/-! ### What one step does -/

/-- With a valid mode, a status register load is the flag update followed by
the switch to the target bank. -/
theorem loadcpsr_eq_switchBank (processor : Processor) (value mask : BitVec 32)
    (valid : mask &&& 0x1F ≠ 0 →
      (cpumodeOf (mergeMasked processor.ctx.cpsr value mask)).isSome) :
    (loadcpsr processor value mask).1 =
      switchBank (loadcpsrFlags processor value mask) (targetMode processor value mask) := by
  unfold loadcpsr targetMode
  by_cases touched : mask &&& 0x1F = 0
  · rw [if_neg (not_not.mpr touched), if_neg (not_not.mpr touched)]
    exact (switchBank_self (loadcpsrFlags processor value mask)).symm
  · obtain ⟨cpumode, named⟩ := Option.isSome_iff_exists.mp (valid touched)
    rw [if_pos touched, if_pos touched]
    simp only [loadcpsrFlags_cpsr, named, Option.getD_some]

theorem loadcpsrFlags_context_regs (processor : Processor) (value mask : BitVec 32)
    (mode : CpuMode) :
    ((loadcpsrFlags processor value mask).context mode).regs =
      (processor.context mode).regs := by
  by_cases current : mode = processor.mode
  · subst current
    exact loadcpsrFlags_regs processor value mask
  · rw [loadcpsrFlags_context_of_ne _ _ _ current]

/-- The registers after a bank switch, in terms of the contexts before it. -/
theorem loadcpsr_regs (processor : Processor) (value mask : BitVec 32) (mode : CpuMode)
    (index : Fin 16)
    (valid : mask &&& 0x1F ≠ 0 →
      (cpumodeOf (mergeMasked processor.ctx.cpsr value mask)).isSome) :
    ((loadcpsr processor value mask).1.context mode).regs index =
      if mode = targetMode processor value mask ∧
          (index.val < min (modeRegs processor.mode) (modeRegs mode) ∨ index = 15) then
        processor.ctx.regs index
      else (processor.context mode).regs index := by
  rw [loadcpsr_eq_switchBank processor value mask valid]
  by_cases target : mode = targetMode processor value mask
  · subst target
    have switched := switchBank_regs (loadcpsrFlags processor value mask)
      (targetMode processor value mask) index
    rw [Processor.ctx, switchBank_mode] at switched
    rw [switched, loadcpsrFlags_mode, loadcpsrFlags_regs, loadcpsrFlags_context_regs]
    simp only [true_and]
  · rw [switchBank_context_of_ne _ target, loadcpsrFlags_context_regs]
    simp only [target, false_and, if_false]

theorem loadcpsr_mode (processor : Processor) (value mask : BitVec 32)
    (valid : mask &&& 0x1F ≠ 0 →
      (cpumodeOf (mergeMasked processor.ctx.cpsr value mask)).isSome) :
    (loadcpsr processor value mask).1.mode = targetMode processor value mask := by
  rw [loadcpsr_eq_switchBank processor value mask valid, switchBank_mode]

theorem loadcpsr_cpsr (processor : Processor) (value mask : BitVec 32)
    (valid : mask &&& 0x1F ≠ 0 →
      (cpumodeOf (mergeMasked processor.ctx.cpsr value mask)).isSome) :
    (loadcpsr processor value mask).1.ctx.cpsr =
      mergeMasked processor.ctx.cpsr value mask := by
  rw [loadcpsr_eq_switchBank processor value mask valid, switchBank_cpsr, loadcpsrFlags_cpsr]

/-! ### The simulation -/

/-- The emulator simulates the reference machine: the current context shows the
current registers, and each saved context holds what a later switch reads. -/
structure BanksSimulate (run : BankRun) : Prop where
  mode : run.file.mode = run.processor.mode
  cpsr : run.file.cpsr = run.processor.ctx.cpsr
  current : RegistersAgree run
  banked : ∀ mode index, 13 ≤ index.val → index.val < 15 →
    (run.processor.context mode).regs index = run.file.store (.banked mode index)
  fiqSaved : run.processor.mode ≠ .fastint → ∀ index, FiqRegister index →
    (run.processor.context .fastint).regs index = run.file.store (.fiq index)
  sharedSaved : run.processor.mode = .fastint → ∀ index, FiqRegister index →
    (run.processor.context run.entered).regs index = run.file.store (.common index)
  outside : run.entered ≠ .fastint

theorem banksSimulate_boot : BanksSimulate BankRun.boot where
  mode := rfl
  cpsr := rfl
  current := fun _ => rfl
  banked := fun _ _ _ _ => rfl
  fiqSaved := fun _ _ _ => rfl
  sharedSaved := fun _ _ _ => rfl
  outside := by decide

theorem writeReg_context (processor : Processor) (index : Fin 16) (value : BitVec 32)
    (mode : CpuMode) (other : Fin 16) :
    ((processor.writeReg index value).context mode).regs other =
      if mode = processor.mode ∧ other = index then value
      else (processor.context mode).regs other := by
  unfold Processor.writeReg
  by_cases current : mode = processor.mode
  · subst current
    have written := processor.setCtx_ctx
      { processor.ctx with regs := Function.update processor.ctx.regs index value }
    rw [Processor.ctx, Processor.setCtx_mode] at written
    rw [written]
    simp only [Function.update_apply, true_and]
    rfl
  · rw [Processor.setCtx_context_of_ne _ _ current]
    simp only [current, false_and, if_false]

theorem physReg_injective (mode : CpuMode) : Function.Injective (physReg mode) := by
  intro first second equal
  unfold physReg at equal
  split_ifs at equal <;> simpa using equal

/-- A register write keeps the simulation. -/
theorem BanksSimulate.write {run : BankRun} (simulates : BanksSimulate run)
    (index : Fin 16) (value : BitVec 32) :
    BanksSimulate (bankStep run (.write index value)) where
  mode := simulates.mode
  cpsr := by
    simpa [bankStep, RegisterFile.write, Processor.writeReg] using simulates.cpsr
  current := by
    intro other
    have kept := simulates.current other
    simp only [RegisterFile.read, Processor.ctx, simulates.mode] at kept
    simp only [bankStep, RegisterFile.read, RegisterFile.write, Processor.ctx, simulates.mode]
    rw [show (run.processor.writeReg index value).mode = run.processor.mode from rfl,
      writeReg_context, Function.update_apply, kept]
    simp only [true_and, (physReg_injective run.processor.mode).eq_iff]
  banked := by
    intro mode other low high
    have kept := simulates.banked mode other low high
    simp only [bankStep, RegisterFile.write, simulates.mode]
    rw [writeReg_context, Function.update_apply, kept]
    refine if_congr ?_ rfl rfl
    unfold physReg
    split_ifs with banks fiqs <;> simp <;> grind
  fiqSaved := by
    intro outside other fiq
    have kept := simulates.fiqSaved outside other fiq
    simp only [bankStep, RegisterFile.write, simulates.mode]
    rw [writeReg_context, Function.update_apply, kept]
    refine if_congr ?_ rfl rfl
    have notFiq : ¬ run.processor.mode = .fastint := outside
    unfold physReg
    split_ifs with banks fiqs <;> simp <;> grind
  sharedSaved := by
    intro inside other fiq
    have kept := simulates.sharedSaved inside other fiq
    have left := simulates.outside
    have inFiq : run.processor.mode = .fastint := inside
    simp only [bankStep, RegisterFile.write, simulates.mode]
    rw [writeReg_context, Function.update_apply, kept]
    refine if_congr ?_ rfl rfl
    have low := fiq.1
    have high := fiq.2
    unfold physReg
    split_ifs with banks fiqs <;> simp <;> grind
  outside := simulates.outside

theorem BanksSimulate.loadcpsr_mode {run : BankRun} (simulates : BanksSimulate run)
    (value mask : BitVec 32) :
    (run.file.loadcpsr value mask).mode = targetMode run.processor value mask := by
  simp only [RegisterFile.loadcpsr, targetMode, simulates.mode, simulates.cpsr]

/-- A switch to another bank copies eight registers when it enters or leaves
fast interrupt mode and thirteen otherwise. -/
theorem min_modeRegs {old new : CpuMode} (changed : new ≠ old) :
    min (modeRegs old) (modeRegs new) =
      if old = .fastint ∨ new = .fastint then 8 else 13 := by
  cases old <;> cases new <;> first | rfl | exact absurd rfl changed

/-- What a context holds for a register that a switch to it does not copy is
what the reference machine reads in that mode, once the shared registers of a
switch out of fast interrupt mode are accounted for. -/
theorem BanksSimulate.saved {run : BankRun} (simulates : BanksSimulate run)
    {mode : CpuMode} {index : Fin 16}
    (notCopied : ¬ (index.val < min (modeRegs run.processor.mode) (modeRegs mode) ∨ index = 15))
    (changed : mode ≠ run.processor.mode)
    (shared : run.processor.mode = .fastint → FiqRegister index →
      (run.processor.context mode).regs index =
        (run.processor.context run.entered).regs index) :
    (run.processor.context mode).regs index = run.file.store (physReg mode index) := by
  have range := index.isLt
  have notPc : index.val ≠ 15 := fun equal => notCopied (Or.inr (Fin.ext equal))
  have notShared : ¬ index.val < min (modeRegs run.processor.mode) (modeRegs mode) :=
    fun below => notCopied (Or.inl below)
  unfold physReg
  split_ifs with banks fiqs
  · exact simulates.banked mode index banks.1 banks.2
  · obtain ⟨rfl, fiq⟩ := fiqs
    exact simulates.fiqSaved (Ne.symm changed) index fiq
  · have inFiq : run.processor.mode = .fastint := by
      by_contra outside
      rw [min_modeRegs changed] at notShared
      split_ifs at notShared with crosses
      · exact fiqs ⟨crosses.resolve_left outside, by omega, by omega⟩
      · omega
    have fiq : FiqRegister index := by
      rw [min_modeRegs changed, if_pos (Or.inl inFiq)] at notShared
      exact ⟨by omega, by omega⟩
    rw [shared inFiq fiq]
    exact simulates.sharedSaved inFiq index fiq

/-- A register a switch copies is the same physical register in both modes. -/
theorem physReg_of_copied {old new : CpuMode} {index : Fin 16} (changed : new ≠ old)
    (copied : index.val < min (modeRegs old) (modeRegs new) ∨ index = 15) :
    physReg new index = physReg old index := by
  obtain below | rfl := copied
  · rw [min_modeRegs changed] at below
    unfold physReg
    split_ifs at below with crosses
    · rw [if_neg (by omega), if_neg (by omega), if_neg (by omega), if_neg (by omega)]
    · rw [not_or] at crosses
      rw [if_neg (by omega), if_neg (by simp [crosses.2]), if_neg (by omega),
        if_neg (by simp [crosses.1])]
  · simp [physReg]

/-- A faithful status register load keeps the simulation. -/
theorem BanksSimulate.loadcpsr {run : BankRun} (simulates : BanksSimulate run)
    {value mask : BitVec 32} (valid : NamesValidMode run (.loadcpsr value mask))
    (faithful : LeavesFiqFaithfully run (.loadcpsr value mask)) :
    BanksSimulate (bankStep run (.loadcpsr value mask)) where
  mode := by
    simp only [bankStep]
    rw [simulates.loadcpsr_mode, Ndse.loadcpsr_mode _ _ _ valid]
  cpsr := by
    simp only [bankStep, RegisterFile.loadcpsr]
    rw [loadcpsr_cpsr _ _ _ valid, simulates.cpsr]
  current := by
    intro index
    simp only [bankStep, RegisterFile.read, Processor.ctx]
    rw [simulates.loadcpsr_mode, Ndse.loadcpsr_mode _ _ _ valid, loadcpsr_regs _ _ _ _ _ valid]
    have kept := simulates.current index
    rw [RegisterFile.read, simulates.mode] at kept
    by_cases same : targetMode run.processor value mask = run.processor.mode
    · rw [same]
      simp only [Processor.ctx, ite_self]
      exact kept
    split_ifs with copied
    · rw [kept, physReg_of_copied same copied.2]
      rfl
    · refine simulates.saved (fun both => copied ⟨rfl, both⟩) same fun inFiq fiq => ?_
      exact faithful inFiq (inFiq ▸ same) index fiq
  banked := by
    intro mode index low high
    have kept := simulates.banked mode index low high
    simp only [bankStep]
    rw [loadcpsr_regs _ _ _ _ _ valid]
    split_ifs with copied
    · -- only a switch to the same bank copies the banked registers
      obtain ⟨rfl, below | rfl⟩ := copied
      · by_cases same : targetMode run.processor value mask = run.processor.mode
        · rw [same] at kept ⊢
          exact kept
        · have moved := physReg_of_copied same (Or.inl below)
          simp [physReg, low, high, same] at moved
      · simp at high
    · exact kept
  fiqSaved := by
    intro outside index fiq
    simp only [bankStep] at outside ⊢
    rw [Ndse.loadcpsr_mode _ _ _ valid] at outside
    rw [loadcpsr_regs _ _ _ _ _ valid, if_neg fun copied => outside copied.1.symm]
    by_cases inFiq : run.processor.mode = .fastint
    · have kept := simulates.current index
      rw [RegisterFile.read, simulates.mode, inFiq, Processor.ctx, inFiq] at kept
      rw [kept]
      simp [physReg, fiq.1, fiq.2, RegisterFile.loadcpsr, show ¬ 13 ≤ index.val by
        have := fiq.2; omega]
    · exact simulates.fiqSaved inFiq index fiq
  sharedSaved := by
    intro inside index fiq
    simp only [bankStep] at inside ⊢
    rw [Ndse.loadcpsr_mode _ _ _ valid] at inside
    rw [loadcpsr_regs _ _ _ _ _ valid]
    by_cases inFiq : run.processor.mode = .fastint
    · rw [if_pos inFiq, if_neg fun copied => simulates.outside (copied.1.trans inside)]
      exact simulates.sharedSaved inFiq index fiq
    · rw [if_neg inFiq, if_neg fun copied => inFiq (copied.1.trans inside)]
      have kept := simulates.current index
      rw [RegisterFile.read, simulates.mode] at kept
      refine kept.trans ?_
      simp [physReg, inFiq, RegisterFile.loadcpsr, show ¬ 13 ≤ index.val by
        have := fiq.2; omega]
  outside := by
    simp only [bankStep]
    split_ifs with inFiq
    · exact simulates.outside
    · exact inFiq

theorem BanksSimulate.step {run : BankRun} {action : BankAction}
    (simulates : BanksSimulate run) (valid : NamesValidMode run action)
    (faithful : LeavesFiqFaithfully run action) : BanksSimulate (bankStep run action) := by
  cases action with
  | write index value => exact simulates.write index value
  | loadcpsr value mask => exact simulates.loadcpsr valid faithful

/-- An unfaithful return from fast interrupt mode shows at once: a shared
register reads differently. -/
theorem BanksSimulate.detect {run : BankRun} {action : BankAction}
    (simulates : BanksSimulate run) (valid : NamesValidMode run action)
    (agree : RegistersAgree (bankStep run action)) : LeavesFiqFaithfully run action := by
  cases action with
  | write index value => trivial
  | loadcpsr value mask =>
      intro inFiq leaves index fiq
      have read := agree index
      simp only [bankStep, RegisterFile.read, Processor.ctx] at read
      rw [simulates.loadcpsr_mode, Ndse.loadcpsr_mode _ _ _ valid,
        loadcpsr_regs _ _ _ _ _ valid, if_neg] at read
      · rw [read, simulates.sharedSaved inFiq index fiq]
        simp [physReg, leaves, RegisterFile.loadcpsr, show ¬ 13 ≤ index.val by
          have := fiq.2; omega]
      · rintro ⟨-, below | rfl⟩
        · rw [inFiq] at below
          have := lt_of_lt_of_le below (min_le_left _ _)
          simp only [modeRegs] at this
          exact absurd fiq.1 (by omega)
        · exact absurd fiq.2 (by decide)

/-- Over every sequence of register writes and loads of valid modes from boot,
each register always reads as on the reference machine exactly when fast
interrupt mode is only ever left faithfully. -/
theorem registersAgree_iff (actions : List BankAction)
    (valid : LabelledRun.EveryStep bankStep NamesValidMode BankRun.boot actions) :
    LabelledRun.Always bankStep RegistersAgree BankRun.boot actions ↔
      LabelledRun.EveryStep bankStep LeavesFiqFaithfully BankRun.boot actions :=
  LabelledRun.always_iff_everyStep
    (fun (run : BankRun) (simulates : BanksSimulate run) => simulates.current)
    (fun _ _ simulates formed faithful => simulates.step formed faithful)
    (fun _ _ simulates formed agree => simulates.detect formed agree)
    banksSimulate_boot valid

/-- Enter fast interrupt mode from user mode and return to the bank it was
entered from. -/
theorem registersAgree_iff_fiqAndBack :
    let actions := [.loadcpsr 0x10 0x1F, .write 8 7, .loadcpsr 0x11 0x1F, .write 8 9,
      .loadcpsr 0x10 0x1F]
    LabelledRun.Always bankStep RegistersAgree BankRun.boot actions ↔
      LabelledRun.EveryStep bankStep LeavesFiqFaithfully BankRun.boot actions :=
  registersAgree_iff _ (by decide)

/-- User mode, fast interrupt mode, supervisor mode: `r8` is lost. -/
theorem registersAgree_fails_through_fiq :
    let actions := [.loadcpsr 0x10 0x1F, .write 8 7, .loadcpsr 0x11 0x1F,
      .loadcpsr 0x13 0x1F]
    LabelledRun.EveryStep bankStep NamesValidMode BankRun.boot actions ∧
      ¬ RegistersAgree (actions.foldl bankStep BankRun.boot) := by
  decide

end Ndse
