import Ndse.Library.LabelledRun
import Ndse.ProcessorBanking
import Ndse.ProcessorCpsr

/-!
# Transparency of interrupts

`switch_and_invoke_old` keeps a copy of the interrupted context, runs the
handler in the interrupt bank and switches back by the mode field of the copy.
The interrupted program does not notice, provided that this mode field is
valid; from the static initial state it is not until the first write of it.
-/

namespace Ndse

/-! ### Invoking a handler -/

/-- A processor during an interrupt; `trapped` records that `loadcpsr` has met
an invalid mode. -/
structure Invocation where
  processor : Processor
  inside : Bool
  trapped : Bool

/-- What a handler does: any change to the current context except for its status
register, and writes of the status register. -/
inductive HandlerAction
  | change (context : EmulationContext)
  | loadcpsr (value mask : BitVec 32)

namespace Invocation

def loadcpsr (state : Invocation) (value mask : BitVec 32) : Invocation :=
  let result := Ndse.loadcpsr state.processor value mask
  { state with
    processor := result.1
    trapped := state.trapped || result.2.isSome }

def handlerStep (state : Invocation) : HandlerAction → Invocation
  | .change context =>
      { state with
        processor :=
          state.processor.setCtx { context with cpsr := state.processor.ctx.cpsr } }
  | .loadcpsr value mask => state.loadcpsr value mask

/-- The first half of `switch_and_invoke_old`, and `invoke`, which sets the link
register to the return hook. -/
def enterHandler (state : Invocation) (addr : BitVec 32) : Invocation :=
  let entered := state.loadcpsr 0x12 0x1F
  { entered with
    processor := (entered.processor.writeReg 15 addr).writeReg 14 0xEFEF0000
    inside := true }

/-- The second half: switch back and restore the copy. -/
def leaveHandler (state : Invocation) (backup : EmulationContext) : Invocation :=
  let restored := { state with inside := false }.loadcpsr backup.cpsr 0x1F
  { restored with processor := restored.processor.setCtx backup }

/-- `interrupt::switch_and_invoke_old` around the actions of a handler. -/
def switchAndInvokeOld (state : Invocation) (addr : BitVec 32)
    (handler : List HandlerAction) : Invocation :=
  (handler.foldl handlerStep (state.enterHandler addr)).leaveHandler state.processor.ctx

/-- A load that touches the mode field names a valid mode. -/
def NamesValidMode (state : Invocation) : HandlerAction → Prop
  | .change _ => True
  | .loadcpsr value mask =>
      mask &&& 0x1F ≠ 0 →
        (cpumodeOf (mergeMasked state.processor.ctx.cpsr value mask)).isSome

/-- No trap, and the mode, the flag and the context are as before. -/
structure Transparent (before after : Invocation) : Prop where
  trapped : after.trapped = false
  mode : after.processor.mode = before.processor.mode
  inside : after.inside = before.inside
  context : after.processor.ctx = before.processor.ctx

end Invocation

/-! ### The mode field -/

/-- A valid mode field names the current bank. -/
def ModeNamed (run : BankRun) : Prop :=
  ∀ mode, cpumodeOf run.processor.ctx.cpsr = some mode → mode = run.processor.mode

theorem modeNamed_boot : ModeNamed BankRun.boot := by
  intro mode named
  revert named
  revert mode
  decide

theorem ModeNamed.step {run : BankRun} {action : BankAction} (named : ModeNamed run)
    (valid : NamesValidMode run action) : ModeNamed (bankStep run action) := by
  cases action with
  | write index value =>
      intro mode field
      simp only [bankStep, Processor.writeReg, Processor.setCtx_ctx, Processor.setCtx_mode]
        at field ⊢
      exact named mode field
  | loadcpsr value mask =>
      intro mode field
      simp only [bankStep] at field ⊢
      rw [loadcpsr_cpsr _ _ _ valid] at field
      rw [loadcpsr_mode _ _ _ valid, targetMode]
      split
      · rw [field, Option.getD_some]
      · next kept =>
        rw [cpumodeOf_congr (mergeMasked_mode_of_kept (not_not.mp kept))] at field
        exact named mode field

/-- In every state reached from boot. -/
theorem modeNamed_foldl {actions : List BankAction}
    (valid : LabelledRun.EveryStep bankStep NamesValidMode BankRun.boot actions) :
    ModeNamed (actions.foldl bankStep BankRun.boot) :=
  LabelledRun.invariant_foldl (fun _ _ named valid => named.step valid) modeNamed_boot valid

theorem mergeMasked_modeField (old value : BitVec 32) :
    mergeMasked old value 0x1F &&& 0x1F = value &&& 0x1F := by
  apply BitVec.eq_of_getLsbD_eq
  intro i hi
  rw [BitVec.getLsbD_and, BitVec.getLsbD_and, getLsbD_mergeMasked _ _ _ hi]
  cases bit : (0x1F : BitVec 32).getLsbD i
  · rw [Bool.and_false, Bool.and_false]
  · simp

/-! ### Leaving the handler -/

namespace Invocation

theorem trapped_loadcpsr (state : Invocation) {value mask : BitVec 32}
    (valid : mask &&& 0x1F ≠ 0 →
      (cpumodeOf (mergeMasked state.processor.ctx.cpsr value mask)).isSome) :
    (state.loadcpsr value mask).trapped = state.trapped := by
  have reports : (Ndse.loadcpsr state.processor value mask).2 = none := by
    rw [Ndse.loadcpsr]
    by_cases touched : mask &&& 0x1F = 0
    · rw [if_neg (not_not.mpr touched)]
    · obtain ⟨mode, named⟩ := Option.isSome_iff_exists.mp (valid touched)
      rw [if_pos touched]
      simp only [loadcpsrFlags_cpsr, named]
  simp [loadcpsr, reports]

theorem trapped_handlerStep (state : Invocation) (action : HandlerAction)
    (valid : state.NamesValidMode action) :
    (state.handlerStep action).trapped = state.trapped := by
  cases action with
  | change context => rfl
  | loadcpsr value mask => exact trapped_loadcpsr state valid

theorem enterHandler_trapped (state : Invocation) (addr : BitVec 32) :
    (state.enterHandler addr).trapped = state.trapped := by
  apply trapped_loadcpsr state
  intro _
  rw [cpumodeOf_congr (mergeMasked_modeField _ _)]
  decide

/-- With valid writes the handler does not trap. -/
theorem handler_trapped {state : Invocation} {handler : List HandlerAction}
    (untrapped : state.trapped = false)
    (valid : LabelledRun.EveryStep handlerStep NamesValidMode state handler) :
    (handler.foldl handlerStep state).trapped = false :=
  LabelledRun.invariant_foldl
    (fun (state : Invocation) action (kept : state.trapped = false) valid =>
      (trapped_handlerStep state action valid).trans kept) untrapped valid

/-- A copy with a valid mode field is restored in the bank it names. -/
theorem leaveHandler_valid (state : Invocation) {backup : EmulationContext} {mode : CpuMode}
    (named : cpumodeOf backup.cpsr = some mode) (untrapped : state.trapped = false) :
    (state.leaveHandler backup).trapped = false ∧
      (state.leaveHandler backup).processor.mode = mode := by
  have field : cpumodeOf (mergeMasked state.processor.ctx.cpsr backup.cpsr 0x1F) = some mode := by
    rw [cpumodeOf_congr (mergeMasked_modeField _ _), named]
  have isNamed := Option.isSome_iff_exists.mpr ⟨mode, field⟩
  constructor
  · exact (trapped_loadcpsr { state with inside := false } fun _ => isNamed).trans untrapped
  · have switched := loadcpsr_mode state.processor backup.cpsr 0x1F fun _ => isNamed
    rw [targetMode, if_pos (by decide), field, Option.getD_some] at switched
    exact switched

/-- A copy with an invalid mode field traps. -/
theorem leaveHandler_invalid (state : Invocation) {backup : EmulationContext}
    (invalid : cpumodeOf backup.cpsr = none) :
    (state.leaveHandler backup).trapped = true := by
  have field : cpumodeOf (mergeMasked state.processor.ctx.cpsr backup.cpsr 0x1F) = none := by
    rw [cpumodeOf_congr (mergeMasked_modeField _ _), invalid]
  have reports : (Ndse.loadcpsr state.processor backup.cpsr 0x1F).2.isSome := by
    rw [Ndse.loadcpsr, if_pos (by decide)]
    simp only [loadcpsrFlags_cpsr, field, Option.isSome_some]
  simp only [leaveHandler, loadcpsr, reports, Bool.or_true]

end Invocation

/-! ### Transparency -/

/-- The processor after a run from boot, outside of an interrupt. -/
def interrupted (actions : List BankAction) : Invocation where
  processor := (actions.foldl bankStep BankRun.boot).processor
  inside := false
  trapped := false

/-- In every state reached from boot, and for every handler, an interrupt is
transparent exactly when the mode field of the interrupted context is valid. -/
theorem transparent_iff (actions : List BankAction)
    (valid : LabelledRun.EveryStep bankStep NamesValidMode BankRun.boot actions)
    (addr : BitVec 32) (handler : List HandlerAction)
    (handlerValid : LabelledRun.EveryStep Invocation.handlerStep Invocation.NamesValidMode
      ((interrupted actions).enterHandler addr) handler) :
    (interrupted actions).Transparent ((interrupted actions).switchAndInvokeOld addr handler) ↔
      (cpumodeOf (interrupted actions).processor.ctx.cpsr).isSome := by
  have untrapped := Invocation.handler_trapped
    ((interrupted actions).enterHandler_trapped addr) handlerValid
  constructor
  · intro transparent
    by_contra unnamed
    have invalid : cpumodeOf (interrupted actions).processor.ctx.cpsr = none := by
      simpa using unnamed
    have trapped := Invocation.leaveHandler_invalid
      (handler.foldl Invocation.handlerStep ((interrupted actions).enterHandler addr)) invalid
    exact Bool.false_ne_true (transparent.trapped.symm.trans trapped)
  · intro isNamed
    obtain ⟨mode, named⟩ := Option.isSome_iff_exists.mp isNamed
    obtain ⟨clean, restored⟩ := Invocation.leaveHandler_valid
      (handler.foldl Invocation.handlerStep ((interrupted actions).enterHandler addr)) named
      untrapped
    exact ⟨clean, restored.trans (modeNamed_foldl valid mode named), rfl,
      Processor.setCtx_ctx _ _⟩

/-- In user mode, with a handler that ends in supervisor mode. -/
theorem transparent_iff_user :
    (interrupted [.loadcpsr 0x1F 0x1F, .write 8 7]).Transparent
        ((interrupted [.loadcpsr 0x1F 0x1F, .write 8 7]).switchAndInvokeOld 0x1000
          [.loadcpsr 0x13 0x1F]) ↔
      (cpumodeOf
        (interrupted [.loadcpsr 0x1F 0x1F, .write 8 7]).processor.ctx.cpsr).isSome :=
  transparent_iff _ (by decide) 0x1000 [.loadcpsr 0x13 0x1F] ⟨fun _ => by decide, trivial⟩

/-- An interrupt before the mode field is first written traps. -/
theorem transparent_fails_at_boot :
    ¬(interrupted []).Transparent ((interrupted []).switchAndInvokeOld 0x1000 []) := by
  intro transparent
  have trapped := transparent.trapped
  revert trapped
  decide

end Ndse
