import Ndse.CompilerStack
import Ndse.DisassemblerConditions

/-!
# Translated pages

A page is translated instruction by instruction, and each instruction behind a test
of its condition.  The test is all that the condition of a word changes, and the
code of a page from any of its instructions on leaves the stack as it was.
-/

namespace Ndse

namespace Disassembler

/-- Words that agree in all but their conditions decode to the same instruction. -/
theorem decode_sameLow {d : Disassembler} {word other addr : BitVec 32}
    (conditional : (d.decode word addr).instruction.isConditional = true)
    (valid : other.extractLsb' 28 4 ≠ 0b1111#4) (low : other.setWidth 28 = word.setWidth 28) :
    d.decode other addr = (d.decode word addr).withCondition (other.extractLsb' 28 4) := by
  have read : conditioned (other.extractLsb' 28 4) word = other := by
    rw [conditioned, ← low]
    exact conditioned_self other
  have decoded := decode_conditioned conditional valid
  rwa [read] at decoded

end Disassembler

namespace Compiler

variable {ctx : Context} {emitter : Emitter} {World : Type} {env : HostEnv World}

/-! ### Conditions -/

/-- No instruction reads its condition behind the test. -/
theorem compileBody_condition (cond : Condition) (held : Bool) :
    compileBody { ctx with cond := cond } emitter held = compileBody ctx emitter held := by
  obtain ⟨instruction⟩ := ctx
  cases instruction <;> rfl

/-- Words that agree in all but their conditions are translated to one body, each
behind its own test. -/
theorem compileInstruction_sameLow (d : Disassembler) (word other addr : BitVec 32)
    (emitter : Emitter) (flagsUpdated : Bool)
    (conditional : (d.decode word addr).instruction.isConditional = true)
    (valid : other.extractLsb' 28 4 ≠ 0b1111#4) (low : other.setWidth 28 = word.setWidth 28)
    (tested : Compiler.conditional (d.decode other addr).toContext =
      Compiler.conditional (d.decode word addr).toContext) :
    ∃ body : Emitted, ∀ chosen ∈ [word, other],
      compileInstruction (d.decode chosen addr).toContext emitter flagsUpdated =
        ⟨preamble (d.decode chosen addr).toContext emitter flagsUpdated (bytes body.code) ++
          body.code, body.flagsUpdated⟩ := by
  refine ⟨compileBody (d.decode word addr).toContext emitter
    (flagsHeld emitter flagsUpdated || Compiler.conditional (d.decode word addr).toContext), ?_⟩
  rw [List.forall_mem_cons, List.forall_mem_singleton]
  refine ⟨rfl, ?_⟩
  have decoded := Disassembler.decode_sameLow conditional valid low
  have body (held : Bool) : compileBody (d.decode other addr).toContext emitter held =
      compileBody (d.decode word addr).toContext emitter held := by
    rw [decoded]
    exact compileBody_condition _ held
  rw [compileInstruction, body, tested]

/-- `moveq r0, r1` and `movne r0, r1`. -/
theorem compileInstruction_movEqNe : ∃ body : Emitted,
    ∀ chosen ∈ ([0x01A00001, 0x11A00001] : List (BitVec 32)),
      compileInstruction (Disassembler.blank.decode chosen 0).toContext ⟨2, 0, false⟩ false =
        ⟨preamble (Disassembler.blank.decode chosen 0).toContext ⟨2, 0, false⟩ false
          (bytes body.code) ++ body.code, body.flagsUpdated⟩ :=
  compileInstruction_sameLow Disassembler.blank 0x01A00001 0x11A00001 0 ⟨2, 0, false⟩ false
    (by decide) (by decide) (by decide) (by decide)

/-! ### The stack -/

theorem neutral_compileLoop (instBits : Nat) (page : List Context) (inst : Nat)
    (flagsUpdated : Bool) : Neutral env (compileLoop instBits inst flagsUpdated page) := by
  induction page generalizing inst flagsUpdated with
  | nil => exact neutral_of_quiet quiet_nil
  | cons ctx page ih => exact (neutral_compileInstruction flagsUpdated).append (ih _ _)

theorem neutral_epilogue : Neutral env epilogue := neutral_of_track rfl

/-- From any instruction of a page on, over its end to the next page. -/
theorem stackNeutral_page (instBits inst : Nat) (flagsUpdated : Bool) (page : List Context) :
    StackNeutral env (compileLoop instBits inst flagsUpdated page ++ epilogue) :=
  stackNeutral_of_neutral ((neutral_compileLoop instBits page inst flagsUpdated).append
    neutral_epilogue)

end Compiler

end Ndse
