import Ndse.CompilerTransfers
import Ndse.CompilerLogic

/-!
# Long multiplications

The results of the four long multiplications are right for all registers.  Their
flags are what the last host instruction leaves: of a multiplication nothing that
is defined, and of an accumulation the zero flag of the high word alone.
-/

namespace Ndse

open CarryArithmetic FlatCode

namespace Compiler

/-! ### Products of two words -/

/-- The four instructions. -/
def longInst (signed accumulate : Bool) : Inst :=
  if signed then if accumulate then .smlal else .smull
  else if accumulate then .umlal else .umull

/-- The product of two words in a double word. -/
def longProduct (signed : Bool) (a b : BitVec 32) : BitVec 64 :=
  if signed then a.signExtend 64 * b.signExtend 64 else a.setWidth 64 * b.setWidth 64

/-- The double word that the architecture computes. -/
def longResult (ctx : Context) (signed accumulate : Bool) (regs : Fin 16 → BitVec 32) :
    BitVec 64 :=
  longProduct signed (regs ctx.rm) (regs ctx.rs) +
    if accumulate then regs ctx.rn ++ regs ctx.rd else 0

/-- The low word in one register and the high word in another. -/
def longRegs (ctx : Context) (result : BitVec 64) (regs : Fin 16 → BitVec 32) :
    Fin 16 → BitVec 32 :=
  Function.update (Function.update regs ctx.rd (result.setWidth 32)) ctx.rn
    (result.extractLsb' 32 32)

/-- A long multiplication with registers for its result. -/
structure LongMultiply (ctx : Context) (signed accumulate : Bool) : Prop where
  instruction : ctx.instruction = longInst signed accumulate
  apart : ctx.rd ≠ ctx.rn

variable {World : Type}

/-- The registers hold the result, and so do the flags if they are stored. -/
structure MultipliesLong (ctx : Context) (signed accumulate stores : Bool)
    (before after : HostState World) : Prop extends
    RegsBecome before after
      (longRegs ctx (longResult ctx signed accumulate before.context.regs)
        before.context.regs) where
  flags : ctx.sBit = true → stores = true →
    (Nzcv.ofX86 after.context.x86Flags).n =
        (longResult ctx signed accumulate before.context.regs).msb ∧
      (Nzcv.ofX86 after.context.x86Flags).z =
        (longResult ctx signed accumulate before.context.regs == 0)

theorem append_halves (result : BitVec 64) :
    result.extractLsb' 32 32 ++ result.setWidth 32 = result := by
  rw [BitVec.setWidth_eq_extractLsb' (by decide)]
  exact BitVec.extractLsb'_append_extractLsb'

/-- A product added to two words is added word by word. -/
theorem add_words (product : BitVec 64) (high low : BitVec 32) :
    product + (high ++ low) =
      addCarry high (product.extractLsb' 32 32) (carryOut low (product.setWidth 32) false) ++
        addCarry low (product.setWidth 32) false := by
  rw [BitVec.add_comm, ← append_add_append, append_halves]

theorem longResult_false (ctx : Context) (signed : Bool) (regs : Fin 16 → BitVec 32) :
    longResult ctx signed false regs = longProduct signed (regs ctx.rm) (regs ctx.rs) :=
  BitVec.add_zero _

theorem longResult_true (ctx : Context) (signed : Bool) (regs : Fin 16 → BitVec 32) :
    longResult ctx signed true regs =
      let product := longProduct signed (regs ctx.rm) (regs ctx.rs)
      addCarry (regs ctx.rn) (product.extractLsb' 32 32)
          (carryOut (regs ctx.rd) (product.setWidth 32) false) ++
        addCarry (regs ctx.rd) (product.setWidth 32) false :=
  add_words _ _ _

variable (env : HostEnv World) {ctx : Context} {signed accumulate : Bool}
  {state : HostState World}

/-! ### The multiplication -/

/-- The host's multiplication. -/
def multiply (signed : Bool) (rs : Fin 16) : HostInstr :=
  if signed then .imul (.reg rs) else .mul (.reg rs)

theorem compileBody_long (long : LongMultiply ctx signed accumulate) (emitter : Emitter)
    (held : Bool) :
    compileBody ctx emitter held =
      flagging emitter ctx.sBit (mulLong ctx (multiply signed ctx.rs) accumulate) [] := by
  rw [compileBody, long.instruction]
  cases signed <;> cases accumulate <;> rfl

/-- The product is in two host registers. -/
structure Multiplied (before after : HostState World) (product : BitVec 64) : Prop extends
    KeepsContexts before after where
  eax : after.regs .eax = product.setWidth 32
  edx : after.regs .edx = product.extractLsb' 32 32

theorem multiplied (ctx : Context) (signed : Bool) (state : HostState World) :
    Multiplied state
      (applyAll env [.alu .xor edx edx, .mov eax (guest ctx.rm), multiply signed ctx.rs] state)
      (longProduct signed (state.context.regs ctx.rm) (state.context.regs ctx.rs)) := by
  cases signed <;> refine ⟨⟨?_, ?_⟩, ?_, ?_⟩ <;>
    simp [multiply, longProduct, HostInstr.apply, AluOp.writes]

/-! ### The result -/

theorem regsBecome_mov (index : Fin 16) (register : HostReg) (state : HostState World) :
    RegsBecome state ((HostInstr.mov (guest index) (.reg register)).apply env state)
      (Function.update state.context.regs index (state.regs register)) := by
  refine regsBecome_of_write ?_ ?_ <;> simp [HostInstr.apply]

theorem regsBecome_alu (op : AluOp) (writes : op.writes = true) (index : Fin 16)
    (register : HostReg) (state : HostState World) :
    RegsBecome state ((HostInstr.alu op (guest index) (.reg register)).apply env state)
      (Function.update state.context.regs index
        (aluResult op state.flags (state.context.regs index) (state.regs register))) := by
  refine regsBecome_of_write ?_ ?_ <;> simp [HostInstr.apply, writes]

/-- The low word and the carry into the high word. -/
theorem accumulate_low (ctx : Context) {middle : HostState World}
    (product : Multiplied state middle
      (longProduct signed (state.context.regs ctx.rm) (state.context.regs ctx.rs))) :
    aluResult .add middle.flags (middle.context.regs ctx.rd) (middle.regs .eax) =
      (longResult ctx signed true state.context.regs).setWidth 32 := by
  rw [aluResult, product.toKeepsContexts.context, product.eax, longResult_true,
    BitVec.setWidth_append_eq_right]

theorem accumulate_high (apart : ctx.rd ≠ ctx.rn) {middle : HostState World}
    (product : Multiplied state middle
      (longProduct signed (state.context.regs ctx.rm) (state.context.regs ctx.rs))) :
    let first := (HostInstr.alu .add (guest ctx.rd) eax).apply env middle
    aluResult .adc first.flags (first.context.regs ctx.rn) (first.regs .edx) =
      (longResult ctx signed true state.context.regs).extractLsb' 32 32 := by
  intro first
  have low := regsBecome_alu env .add rfl ctx.rd .eax middle
  have carry : first.flags.cf = carryOut (middle.context.regs ctx.rd) (middle.regs .eax) false :=
    rfl
  have kept : first.regs .edx = middle.regs .edx := rfl
  rw [aluResult, low.context, Function.update_of_ne apart.symm, carry, kept,
    product.toKeepsContexts.context, product.eax, product.edx, longResult_true,
    BitVec.extractLsb'_append_eq_left]

/-- The code of a multiplication, in its two parts. -/
theorem mulLong_regs (apart : ctx.rd ≠ ctx.rn) (signed accumulate : Bool)
    (state : HostState World) :
    RegsBecome state
      (applyAll env (mulLong ctx (multiply signed ctx.rs) accumulate) state)
      (longRegs ctx (longResult ctx signed accumulate state.context.regs) state.context.regs) := by
  have product := multiplied env ctx signed state
  rw [mulLong, applyAll_append]
  generalize applyAll env [.alu .xor edx edx, .mov eax (guest ctx.rm), multiply signed ctx.rs]
    state = middle at product ⊢
  have context := product.toKeepsContexts.context
  cases accumulate with
  | false =>
      have low := regsBecome_mov env ctx.rd .eax middle
      have high := regsBecome_mov env ctx.rn .edx
        ((HostInstr.mov (guest ctx.rd) eax).apply env middle)
      have both := product.toKeepsContexts.andThen (low.trans high)
      rw [low.context, context, product.eax] at both
      change RegsBecome state _ (Function.update _ ctx.rn (middle.regs .edx)) at both
      rw [product.edx] at both
      rwa [longResult_false]
  | true =>
      have low := regsBecome_alu env .add rfl ctx.rd .eax middle
      have high := regsBecome_alu env .adc rfl ctx.rn .edx
        ((HostInstr.alu .add (guest ctx.rd) eax).apply env middle)
      have both := product.toKeepsContexts.andThen (low.trans high)
      rwa [accumulate_high env apart product, low.context, accumulate_low ctx product,
        context] at both

/-- The flags behind an accumulation are those of the high word. -/
theorem mulLong_flags_accumulated (apart : ctx.rd ≠ ctx.rn) (signed : Bool)
    (state : HostState World) :
    let high := (longResult ctx signed true state.context.regs).extractLsb' 32 32
    let flags := (applyAll env (mulLong ctx (multiply signed ctx.rs) true) state).flags
    flags.nzcv.n = high.msb ∧ flags.nzcv.z = (high == 0) := by
  have product := multiplied env ctx signed state
  rw [mulLong, applyAll_append]
  generalize applyAll env [.alu .xor edx edx, .mov eax (guest ctx.rm), multiply signed ctx.rs]
    state = middle at product ⊢
  have high := accumulate_high env apart product
  exact ⟨congrArg BitVec.msb high, congrArg (· == 0) high⟩

/-- The flags behind a multiplication alone are not defined. -/
theorem mulLong_flags_alone (ctx : Context) (signed : Bool) (state : HostState World) :
    (applyAll env (mulLong ctx (multiply signed ctx.rs) false) state).flags.nzcv.n =
      (env.undefined (multiply signed ctx.rs) (state.context.regs ctx.rm)
        (state.context.regs ctx.rs)).sf := by
  cases signed <;>
    simp [mulLong, multiply, HostInstr.apply, AluOp.writes, HostFlags.nzcv]

/-! ### The instruction -/

theorem straight_mulLong (ctx : Context) (signed accumulate : Bool) :
    Straight (mulLong ctx (multiply signed ctx.rs) accumulate) := by
  cases signed <;> cases accumulate <;> simp [mulLong, multiply, HostInstr.straight]

/-- What an executed multiplication leaves. -/
structure Finished (env : HostEnv World) (ctx : Context) (signed accumulate stores : Bool)
    (before after : HostState World) : Prop extends
    RegsBecome before after
      (longRegs ctx (longResult ctx signed accumulate before.context.regs)
        before.context.regs) where
  alone : ctx.sBit = true → stores = true → accumulate = false →
    (Nzcv.ofX86 after.context.x86Flags).n =
      (env.undefined (multiply signed ctx.rs) (before.context.regs ctx.rm)
        (before.context.regs ctx.rs)).sf
  accumulated : ctx.sBit = true → stores = true → accumulate = true →
    let high := (longResult ctx signed true before.context.regs).extractLsb' 32 32
    (Nzcv.ofX86 after.context.x86Flags).n = high.msb ∧
      (Nzcv.ofX86 after.context.x86Flags).z = (high == 0)

theorem long_finishes (long : LongMultiply ctx signed accumulate) {emitter : Emitter}
    {flagsUpdated : Bool} (executed : Executed env ctx emitter flagsUpdated state) :
    ∃ after, Finishes (hostIsa env) (compileInstruction ctx emitter flagsUpdated).code state after ∧
      Finished env ctx signed accumulate (!emitter.lookaheadS) state after := by
  have kept := (keepsGuest_testCode env ctx emitter flagsUpdated state).toKeepsContexts
  let tested := applyAll env (testCode ctx emitter flagsUpdated) state
  have body (held : Bool) := compileBody_long long emitter held
  have run := finishes_executed env executed (by
    rw [body]
    exact straight_flagging (straight_mulLong ctx signed accumulate) straight_nil)
  rw [body] at run
  have flagged : RegsBecome tested (applyAll env (flagging emitter ctx.sBit
      (mulLong ctx (multiply signed ctx.rs) accumulate) []).code tested) _ :=
    regsBecome_flagging (mulLong_regs env long.apart signed accumulate tested) (keepsRegs_nil env)
  have regs := kept.andThen flagged
  have stored (sBit : ctx.sBit = true) (stores : (!emitter.lookaheadS) = true) :
      Nzcv.ofX86 (applyAll env (flagging emitter ctx.sBit
          (mulLong ctx (multiply signed ctx.rs) accumulate) []).code tested).context.x86Flags =
        (applyAll env (mulLong ctx (multiply signed ctx.rs) accumulate) tested).flags.nzcv := by
    rw [sBit, flagging_nzcv env (by simpa using stores), List.append_nil]
  have context : tested.context = state.context := kept.context
  rw [context] at regs
  refine ⟨_, run, regs, fun sBit stores alone => ?_, fun sBit stores accumulated => ?_⟩
  · rw [stored sBit stores, alone, mulLong_flags_alone, context]
  · have flags := mulLong_flags_accumulated env long.apart signed tested
    rw [context] at flags
    rw [stored sBit stores, accumulated]
    exact flags

/-! ### The flags of a double word -/

theorem msb_high (result : BitVec 64) : (result.extractLsb' 32 32).msb = result.msb := by
  have whole := congrArg BitVec.msb (append_halves result)
  rwa [BitVec.msb_append] at whole

/-- The high word is zero like the double word, but for small numbers. -/
theorem high_beq_zero_iff (result : BitVec 64) :
    (result.extractLsb' 32 32 == 0) = (result == 0) ↔ result = 0 ∨ 2 ^ 32 ≤ result.toNat := by
  have high : result.extractLsb' 32 32 = 0 ↔ result.toNat < 2 ^ 32 := by
    have bound := result.isLt
    rw [← BitVec.toNat_inj, BitVec.extractLsb'_toNat, Nat.shiftRight_eq_div_pow]
    change _ = 0 ↔ _
    omega
  have zero : result = 0 → result.toNat < 2 ^ 32 := by
    rintro rfl
    decide
  rw [Bool.eq_iff_iff, beq_iff_eq, beq_iff_eq, high]
  constructor
  · intro same
    exact (lt_or_ge result.toNat (2 ^ 32)).imp same.mp id
  · rintro (rfl | large)
    · exact ⟨fun _ => rfl, zero⟩
    · exact ⟨fun small => absurd small (not_lt.mpr large), zero⟩

/-! ### What the hardware leaves undefined -/

/-- The same surroundings with other values for what is undefined. -/
def leaving (undefined : HostInstr → BitVec 32 → BitVec 32 → HostFlags) : HostEnv World :=
  { env with undefined := undefined }

/-- The test of a condition has nothing that is undefined. -/
theorem executed_leaving (undefined : HostInstr → BitVec 32 → BitVec 32 → HostFlags)
    {emitter : Emitter} {flagsUpdated : Bool}
    (executed : Executed env ctx emitter flagsUpdated state) :
    Executed (leaving env undefined) ctx emitter flagsUpdated state := by
  intro tests
  have same : applyAll (leaving env undefined) (testCode ctx emitter flagsUpdated) state =
      applyAll env (testCode ctx emitter flagsUpdated) state := by
    rw [testCode, countCycle]
    cases flagsHeld emitter flagsUpdated <;> cases conditional ctx <;>
      cases emitter.lookaheadS <;> cases ctx.cond <;> rfl
  rw [same]
  exact executed tests

/-- The flags are not asked for or not stored, or they are those of an accumulation
to zero or to a number that does not fit in the low word. -/
def LongFlagsDefined (ctx : Context) (signed accumulate stores : Bool)
    (regs : Fin 16 → BitVec 32) : Prop :=
  ctx.sBit = true → stores = true → accumulate = true ∧
    (longResult ctx signed accumulate regs = 0 ∨
      2 ^ 32 ≤ (longResult ctx signed accumulate regs).toNat)

instance (ctx : Context) (signed accumulate stores : Bool) (regs : Fin 16 → BitVec 32) :
    Decidable (LongFlagsDefined ctx signed accumulate stores regs) :=
  inferInstanceAs (Decidable (_ → _))

theorem Finished.multipliesLong {env : HostEnv World} {stores : Bool}
    {before after : HostState World}
    (finished : Finished env ctx signed accumulate stores before after)
    (flags : LongFlagsDefined ctx signed accumulate stores before.context.regs) :
    MultipliesLong ctx signed accumulate stores before after where
  toRegsBecome := finished.toRegsBecome
  flags := by
    intro sBit stores
    obtain ⟨accumulated, large⟩ := flags sBit stores
    obtain ⟨n, z⟩ := finished.accumulated sBit stores accumulated
    subst accumulated
    rw [n, z, msb_high]
    exact ⟨rfl, (high_beq_zero_iff _).mpr large⟩

/-- Whatever the hardware leaves where it leaves something undefined, the result is
right, and the flags are exactly under this condition. -/
theorem longMultiply_iff (env : HostEnv World) {ctx : Context} {signed accumulate : Bool}
    (long : LongMultiply ctx signed accumulate) (emitter : Emitter) (flagsUpdated : Bool)
    (state : HostState World) (executed : Executed env ctx emitter flagsUpdated state) :
    (∀ undefined, ∃ after,
      Finishes (hostIsa (leaving env undefined))
          (compileInstruction ctx emitter flagsUpdated).code state after ∧
        MultipliesLong ctx signed accumulate (!emitter.lookaheadS) state after) ↔
      LongFlagsDefined ctx signed accumulate (!emitter.lookaheadS) state.context.regs := by
  constructor
  · intro right sBit stores
    -- An adversary leaves the opposite of the sign.
    let undefined (_ : HostInstr) (_ _ : BitVec 32) : HostFlags :=
      ⟨false, false, false, false,
        !(longResult ctx signed accumulate state.context.regs).msb, false⟩
    obtain ⟨after, run, multiplies⟩ := right undefined
    obtain ⟨other, run', finished⟩ := long_finishes (leaving env undefined) long
      (executed_leaving env undefined executed)
    rw [Finishes.unique (hostIsa (leaving env undefined)) run run'] at multiplies
    obtain ⟨n, z⟩ := multiplies.flags sBit stores
    cases accumulate with
    | false =>
        have opposite := finished.alone sBit stores rfl
        rw [n] at opposite
        exact absurd opposite (by simp [leaving, undefined])
    | true =>
        obtain ⟨-, high⟩ := finished.accumulated sBit stores rfl
        exact ⟨rfl, (high_beq_zero_iff _).mp (high.symm.trans z)⟩
  · intro defined undefined
    obtain ⟨after, run, finished⟩ := long_finishes (leaving env undefined) long
      (executed_leaving env undefined executed)
    exact ⟨after, run, finished.multipliesLong defined⟩

/-- `UMLALS r0, r1, r2, r3`. -/
def umlals : Context := (Disassembler.blank.decode 0xE0B10392 0).toContext

theorem longMultiply_umlals : LongMultiply umlals false true where
  instruction := by decide
  apart := by decide

theorem longMultiply_iff_umlals :
    (∀ undefined, ∃ after,
      Finishes (hostIsa (leaving HostEnv.idle undefined))
          (compileInstruction umlals ⟨2, 0, false⟩ false).code (uniform 0x12345) after ∧
        MultipliesLong umlals false true (!(⟨2, 0, false⟩ : Emitter).lookaheadS)
          (uniform 0x12345) after) ↔
      LongFlagsDefined umlals false true (!(⟨2, 0, false⟩ : Emitter).lookaheadS)
        (uniform 0x12345 : HostState Unit).context.regs :=
  longMultiply_iff .idle longMultiply_umlals ⟨2, 0, false⟩ false (uniform 0x12345)
    (executed_always .idle (by decide) _ _ _)

/-- All registers are zero but the low word of the sum. -/
def lowOne : HostState Unit :=
  let state : HostState Unit := uniform 0
  state.setContext (state.context.set (.reg 0) 1)

/-- The zero flag is stored for the sum one. -/
theorem longMultiply_low_zero :
    ¬∃ after,
      Finishes (hostIsa HostEnv.idle) (compileInstruction umlals ⟨2, 0, false⟩ false).code
          lowOne after ∧
        MultipliesLong umlals false true true lowOne after := by
  rintro ⟨after, run, multiplies⟩
  obtain ⟨other, run', finished⟩ := long_finishes HostEnv.idle longMultiply_umlals
    (executed_always .idle (by decide) ⟨2, 0, false⟩ false lowOne)
  rw [Finishes.unique (hostIsa HostEnv.idle) run run'] at multiplies
  obtain ⟨-, z⟩ := multiplies.flags (by decide) rfl
  obtain ⟨-, high⟩ := finished.accumulated (by decide) rfl rfl
  have same := high.symm.trans z
  revert same
  decide

end Compiler

end Ndse
