import Mathlib.Algebra.GroupWithZero.Nat
import Mathlib.Data.Fintype.Basic
import Mathlib.Logic.Function.Basic

/-!
# Processor contexts and the program status register

The emulator keeps six complete register contexts, one for each register bank,
together with the number of the current one.  `loadcpsr` writes the status
register and switches banks by copying the registers that two banks share.
The condition flags are not stored in `cpsr` but in a word per context that
has the layout `seto al; lahf` leaves in the host register `eax`.
-/

namespace Ndse

/-- The two processors of the machine. -/
inductive Cpu
  | arm9 | arm7
deriving DecidableEq, Repr

/-- `cpu_mode`: the register banks of the core.  User and system mode share
`user`. -/
inductive CpuMode
  | user | supervisor | abort | undefined | interrupt | fastint
deriving DecidableEq, Repr

/-- Register numbers are literals below 16. -/
instance neZero_registers : NeZero 16 := ⟨by decide⟩

/-- Interrupt numbers are literals below 32. -/
instance neZero_interrupts : NeZero 32 := ⟨by decide⟩

/-- Halves of a word and one-time slots are literals below 2. -/
instance neZero_halves : NeZero 2 := ⟨by decide⟩

/-- `emulation_context`. -/
@[ext]
structure EmulationContext where
  regs : Fin 16 → BitVec 32
  cpsr : BitVec 32
  spsr : BitVec 32
  x86Flags : BitVec 32
  bpre : BitVec 32
  controlRegister : BitVec 32
deriving DecidableEq

/-- The static storage of a context before the emulator runs. -/
def EmulationContext.zero : EmulationContext where
  regs := fun _ => 0
  cpsr := 0
  spsr := 0
  x86Flags := 0
  bpre := 0
  controlRegister := 0

/-- `processor<T>`: all contexts and the current mode. -/
@[ext]
structure Processor where
  context : CpuMode → EmulationContext
  mode : CpuMode

namespace Processor

/-- The static initial state. -/
def boot : Processor where
  context := fun _ => EmulationContext.zero
  mode := .user

/-- `processor<T>::ctx()`. -/
def ctx (processor : Processor) : EmulationContext :=
  processor.context processor.mode

/-- Assign to the current context. -/
def setCtx (processor : Processor) (context : EmulationContext) : Processor :=
  { processor with
    context := Function.update processor.context processor.mode context }

/-- Write one register of the current context. -/
def writeReg (processor : Processor) (index : Fin 16) (value : BitVec 32) : Processor :=
  processor.setCtx
    { processor.ctx with regs := Function.update processor.ctx.regs index value }

@[simp]
theorem setCtx_mode (processor : Processor) (context : EmulationContext) :
    (processor.setCtx context).mode = processor.mode :=
  rfl

@[simp]
theorem setCtx_ctx (processor : Processor) (context : EmulationContext) :
    (processor.setCtx context).ctx = context := by
  simp [setCtx, ctx]

theorem setCtx_context_of_ne (processor : Processor) (context : EmulationContext)
    {mode : CpuMode} (other : mode ≠ processor.mode) :
    (processor.setCtx context).context mode = processor.context mode := by
  simp [setCtx, other]

end Processor

/-! ### The condition flags -/

/-- The condition flags of the status register, rebuilt from the host word:
bit 15 is the sign, 14 the zero, 8 the carry and 0 the overflow flag. -/
def psrOfX86 (x86Flags : BitVec 32) : BitVec 32 :=
  let x86f := x86Flags &&& 0x0C101
  ((x86f <<< 16) ||| (x86f <<< 21) ||| (x86f <<< 28)) &&& 0x0F8000000

/-- The host word for the condition flags of a status register value. -/
def x86OfPsr (cpsr : BitVec 32) : BitVec 32 :=
  let flags := cpsr &&& 0xF8000000
  ((flags >>> 16) ||| (flags >>> 21) ||| (flags >>> 28)) &&& 0x0C101

/-- `HLE::storecpsr`: read the status register. -/
def storecpsr (processor : Processor) : BitVec 32 :=
  (processor.ctx.cpsr &&& 0x07FFFFFF) ||| psrOfX86 processor.ctx.x86Flags

/-! ### Writing the status register -/

/-- `mode_regs`: how many of the low registers a bank shares with the others. -/
def modeRegs : CpuMode → Nat
  | .user => 15
  | .supervisor => 13
  | .abort => 13
  | .undefined => 13
  | .interrupt => 13
  | .fastint => 8

/-- The fall-through `switch (cpsr & 0x1F)` of `loadcpsr`; every other value of
the mode field is invalid. -/
def cpumodeOf (cpsr : BitVec 32) : Option CpuMode :=
  let field := cpsr &&& 0x1F
  if field = 0x11 then some .fastint
  else if field = 0x12 then some .interrupt
  else if field = 0x1B then some .undefined
  else if field = 0x14 then some .abort
  else if field = 0x13 then some .supervisor
  else if field = 0x1F then some .user
  else if field = 0x10 then some .user
  else none

/-- The masked write both register fields go through. -/
def mergeMasked (old value mask : BitVec 32) : BitVec 32 :=
  (old &&& ~~~mask) ||| (value &&& mask)

/-- The bank switch of `loadcpsr`: copy the registers both banks share, the
program counter and the status register, then make the new bank current. -/
def switchBank (processor : Processor) (cpumode : CpuMode) : Processor :=
  if processor.mode = cpumode then processor
  else
    let oldMode := processor.context processor.mode
    let newMode := processor.context cpumode
    let m := min (modeRegs processor.mode) (modeRegs cpumode)
    { context := Function.update processor.context cpumode
        { newMode with
          regs := fun i => if i.val < m ∨ i = 15 then oldMode.regs i else newMode.regs i
          cpsr := oldMode.cpsr }
      mode := cpumode }

/-- What `loadcpsr` does before it looks at the mode field: the masked write of
`cpsr`, and the host flags when the mask touches the condition flags. -/
def loadcpsrFlags (processor : Processor) (value mask : BitVec 32) : Processor :=
  let context := processor.ctx
  let cpsr := mergeMasked context.cpsr value mask
  processor.setCtx
    { context with
      cpsr := cpsr
      x86Flags := if mask &&& 0xF8000000 ≠ 0 then x86OfPsr cpsr else context.x86Flags }

/-- `HLE::loadcpsr`.  The second component is the mode field when it is not one
of the valid modes: the code reports it, hits its debug break and goes on
without switching banks. -/
def loadcpsr (processor : Processor) (value mask : BitVec 32) :
    Processor × Option (BitVec 32) :=
  let updated := loadcpsrFlags processor value mask
  if mask &&& 0x1F ≠ 0 then
    match cpumodeOf updated.ctx.cpsr with
    | some cpumode => (switchBank updated cpumode, none)
    | none => (updated, some (updated.ctx.cpsr &&& 0x1F))
  else (updated, none)

@[simp]
theorem loadcpsrFlags_mode (processor : Processor) (value mask : BitVec 32) :
    (loadcpsrFlags processor value mask).mode = processor.mode :=
  rfl

@[simp]
theorem loadcpsrFlags_cpsr (processor : Processor) (value mask : BitVec 32) :
    (loadcpsrFlags processor value mask).ctx.cpsr =
      mergeMasked processor.ctx.cpsr value mask := by
  simp [loadcpsrFlags]

@[simp]
theorem loadcpsrFlags_regs (processor : Processor) (value mask : BitVec 32) :
    (loadcpsrFlags processor value mask).ctx.regs = processor.ctx.regs := by
  simp [loadcpsrFlags]

theorem loadcpsrFlags_x86Flags (processor : Processor) (value mask : BitVec 32) :
    (loadcpsrFlags processor value mask).ctx.x86Flags =
      if mask &&& 0xF8000000 ≠ 0 then
        x86OfPsr (mergeMasked processor.ctx.cpsr value mask)
      else processor.ctx.x86Flags := by
  simp [loadcpsrFlags]

theorem loadcpsrFlags_context_of_ne (processor : Processor) (value mask : BitVec 32)
    {mode : CpuMode} (other : mode ≠ processor.mode) :
    (loadcpsrFlags processor value mask).context mode = processor.context mode :=
  processor.setCtx_context_of_ne _ other

@[simp]
theorem switchBank_self (processor : Processor) :
    switchBank processor processor.mode = processor := by
  simp [switchBank]

@[simp]
theorem switchBank_mode (processor : Processor) (cpumode : CpuMode) :
    (switchBank processor cpumode).mode = cpumode := by
  unfold switchBank
  split
  · assumption
  · rfl

@[simp]
theorem switchBank_cpsr (processor : Processor) (cpumode : CpuMode) :
    (switchBank processor cpumode).ctx.cpsr = processor.ctx.cpsr := by
  unfold switchBank
  split
  · rfl
  · simp [Processor.ctx]

/-- The bank that becomes current keeps its own host flags. -/
theorem switchBank_x86Flags (processor : Processor) (cpumode : CpuMode) :
    (switchBank processor cpumode).ctx.x86Flags = (processor.context cpumode).x86Flags := by
  unfold switchBank
  split
  next same => rw [← same]; rfl
  next => simp [Processor.ctx]

theorem switchBank_regs (processor : Processor) (cpumode : CpuMode) (i : Fin 16) :
    (switchBank processor cpumode).ctx.regs i =
      if i.val < min (modeRegs processor.mode) (modeRegs cpumode) ∨ i = 15 then
        processor.ctx.regs i
      else (processor.context cpumode).regs i := by
  unfold switchBank
  split
  next same => subst same; simp [Processor.ctx]
  next => simp [Processor.ctx]

theorem switchBank_context_of_ne (processor : Processor) {mode cpumode : CpuMode}
    (other : mode ≠ cpumode) :
    (switchBank processor cpumode).context mode = processor.context mode := by
  unfold switchBank
  split
  · rfl
  · simp [other]

/-- A write whose mode field ends up valid switches to the bank it names.  When
the mask leaves the mode field alone, that bank is the current one. -/
theorem loadcpsr_of_cpumodeOf {processor : Processor} {value mask : BitVec 32}
    {cpumode : CpuMode}
    (valid : cpumodeOf (mergeMasked processor.ctx.cpsr value mask) = some cpumode)
    (kept : mask &&& 0x1F = 0 → cpumode = processor.mode) :
    loadcpsr processor value mask =
      (switchBank (loadcpsrFlags processor value mask) cpumode, none) := by
  unfold loadcpsr
  by_cases touched : mask &&& 0x1F = 0
  · have same : cpumode = (loadcpsrFlags processor value mask).mode := kept touched
    rw [if_neg (not_not.mpr touched), same, switchBank_self]
  · rw [if_pos touched]
    simp only [loadcpsrFlags_cpsr, valid]

end Ndse
