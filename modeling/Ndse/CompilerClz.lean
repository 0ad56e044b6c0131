import Ndse.CompilerTransfers

/-!
# Counting leading zeros

The loop for `CLZ` counts the destination down from 32 while it shifts a mask to
the left, until the mask has no bit of the source left.  It reads the source
again in each round, behind the first write to the destination.
-/

namespace Ndse

open FlatCode

namespace Compiler

variable {World : Type} (env : HostEnv World)

/-! ### The test -/

theorem getLsbD_mask {bit : Nat} (inside : bit < 32) (round : Nat) :
    (BitVec.allOnes 32 <<< round).getLsbD bit = decide (round ≤ bit) := by
  rw [BitVec.getLsbD_shiftLeft, BitVec.getLsbD_allOnes, decide_eq_true inside,
    decide_eq_true (show bit - round < 32 by omega), Bool.true_and, Bool.and_true, ← decide_not]
  exact decide_eq_decide.mpr not_lt

/-- The mask of a round has no bit of a value exactly if the value is small. -/
theorem and_mask_eq_zero_iff (value : BitVec 32) (round : Nat) :
    value &&& BitVec.allOnes 32 <<< round = 0 ↔ value.toNat < 2 ^ round := by
  constructor
  · intro none
    apply Nat.lt_pow_two_of_testBit
    intro bit above
    by_cases inside : bit < 32
    · have zero : (value &&& BitVec.allOnes 32 <<< round).getLsbD bit = false := by
        rw [none]
        exact BitVec.getLsbD_zero
      rwa [BitVec.getLsbD_and, getLsbD_mask inside, decide_eq_true above, Bool.and_true] at zero
    · exact BitVec.getLsbD_of_ge value bit (not_lt.mp inside)
  · intro small
    apply BitVec.eq_of_getLsbD_eq
    intro bit inside
    rw [BitVec.getLsbD_and, getLsbD_mask inside]
    by_cases above : round ≤ bit
    · have zero : value.getLsbD bit = false :=
        Nat.testBit_lt_two_pow (small.trans_le (Nat.pow_le_pow_right (by decide) above))
      rw [zero]
      exact BitVec.getLsbD_zero.symm
    · rw [decide_eq_false above, Bool.and_false]
      exact BitVec.getLsbD_zero.symm

/-- The round in which a value is found is given by its leading zeros. -/
theorem rounds_of_clz (value : BitVec 32) :
    value &&& BitVec.allOnes 32 <<< (32 - value.clz.toNat) = 0 ∧
      ∀ round < 32 - value.clz.toNat, value &&& BitVec.allOnes 32 <<< round ≠ 0 := by
  refine ⟨(and_mask_eq_zero_iff _ _).mpr BitVec.toNat_lt_two_pow_sub_clz,
    fun round before none => ?_⟩
  have small := (and_mask_eq_zero_iff _ _).mp none
  have nonzero : value ≠ 0 := by
    intro zero
    rw [BitVec.clz_eq_iff_eq_zero.mpr zero] at before
    exact absurd before (Nat.not_lt_zero round)
  have large : 2 ^ (32 - 1 - value.clz.toNat) ≤ value.toNat :=
    BitVec.two_pow_sub_clz_le_toNat_of_ne_zero (by decide) nonzero
  have grows : 2 ^ round ≤ 2 ^ (32 - 1 - value.clz.toNat) :=
    Nat.pow_le_pow_right (by decide) (by omega)
  omega

/-! ### The loop -/

/-- The code in front of the loop, the test, and the rest of a round. -/
def clzStart (rd : Fin 16) : List HostInstr :=
  [.mov ecx (.imm32 0xFFFFFFFF), .mov (guest rd) (.imm32 32)]

def clzTest (rm : Fin 16) : List HostInstr := [.mov eax ecx, .alu .and eax (guest rm)]

def clzRound (rd : Fin 16) : List HostInstr := [.shlEcx, .dec (guest rd)]

/-- The loop as it is emitted. -/
def clzLoop (rd rm : Fin 16) : List HostInstr :=
  clzStart rd ++ (clzTest rm ++ .jcc .z 7 :: (clzRound rd ++ [.jmp (-14)]))

variable {rd rm : Fin 16} {before state : HostState World} {round : Nat}

/-- What the destination holds in a round. -/
def clzRegs (regs : Fin 16 → BitVec 32) (rd : Fin 16) (round : Nat) : Fin 16 → BitVec 32 :=
  Function.update regs rd (32 - BitVec.ofNat 32 round)

/-- The state at the head of the loop. -/
structure InRound (before state : HostState World) (rd : Fin 16) (round : Nat) : Prop extends
    RegsBecome before state (clzRegs before.context.regs rd round) where
  ecx : state.regs .ecx = BitVec.allOnes 32 <<< round

/-- Straight code within some code. -/
theorem reaches_of_straight {code : List HostInstr} (straight : Straight code)
    (front rest : List HostInstr) (state : HostState World) :
    Reaches (hostIsa env) (front ++ (code ++ rest)) (codeSize (hostIsa env) front, state)
      (codeSize (hostIsa env) front + codeSize (hostIsa env) code, applyAll env code state) := by
  have run := Reaches.append_left (hostIsa env) (finishes_of_straight env straight state) rest
  exact Reaches.append_right (hostIsa env) front run

theorem inRound_start (before : HostState World) :
    InRound before (applyAll env (clzStart rd) before) rd 0 := by
  refine ⟨regsBecome_of_write ?_ ?_, ?_⟩ <;>
    simp [clzStart, HostInstr.apply, EmulationContext.set]

/-- What the test leaves. -/
structure Tested (state after : HostState World) (rm : Fin 16) : Prop extends
    KeepsGuest state after where
  zf : after.flags.zf = (state.regs .ecx &&& state.context.regs rm == 0)

theorem tested_clzTest (state : HostState World) (rm : Fin 16) :
    Tested state (applyAll env (clzTest rm) state) rm := by
  refine ⟨⟨⟨?_, ?_⟩, ?_⟩, ?_⟩ <;>
    simp [clzTest, HostInstr.apply, AluOp.writes, aluFlags, aluResult, HostFlags.ofResult]

theorem inRound_clzRound {tested : HostState World} (round' : InRound before tested rd round) :
    InRound before (applyAll env (clzRound rd) tested) rd (round + 1) := by
  have count : clzRegs before.context.regs rd round rd - 1 = 32 - BitVec.ofNat 32 (round + 1) := by
    rw [clzRegs, Function.update_self, BitVec.ofNat_add]
    exact sub_sub _ _ _
  have written : RegsBecome tested (applyAll env (clzRound rd) tested)
      (Function.update tested.context.regs rd (tested.context.regs rd - 1)) := by
    refine regsBecome_of_write ?_ ?_ <;> simp [clzRound, HostInstr.apply]
  rw [round'.context, count, clzRegs, Function.update_idem] at written
  refine ⟨round'.toRegsBecome.trans written, ?_⟩
  have shifted : (applyAll env (clzRound rd) tested).regs .ecx = tested.regs .ecx <<< 1 := by
    simp [clzRound, HostInstr.apply, shiftResult]
  rw [shifted, round'.ecx, ← BitVec.shiftLeft_add]

/-! ### Runs of the loop -/

/-- The test runs from the head of the loop. -/
theorem reaches_test (state : HostState World) :
    Reaches (hostIsa env) (clzLoop rd rm) (12, state) (17, applyAll env (clzTest rm) state) :=
  reaches_of_straight env (by simp [clzTest, HostInstr.straight]) (clzStart rd)
    (.jcc .z 7 :: (clzRound rd ++ [.jmp (-14)])) state

/-- The test ends the loop or goes on with the rest of the round. -/
theorem reaches_jcc (rd rm : Fin 16) (state : HostState World) :
    Reaches (hostIsa env) (clzLoop rd rm) (17, state)
      (if state.flags.zf then 26 else 19, state) := by
  have found : fetch (hostIsa env) (clzLoop rd rm) 17 = some (.jcc .z 7) := rfl
  have executed : (hostIsa env).exec (.jcc .z 7) state =
      some (state, if state.flags.zf then 7 else 0) := rfl
  apply Relation.ReflTransGen.single
  rw [step, found]
  simp only [executed]
  cases state.flags.zf <;> rfl

theorem reaches_round (state : HostState World) :
    Reaches (hostIsa env) (clzLoop rd rm) (19, state) (12, applyAll env (clzRound rd) state) := by
  have code : clzLoop rd rm =
      (clzStart rd ++ clzTest rm ++ [.jcc .z 7]) ++ (clzRound rd ++ [.jmp (-14)]) := by
    simp [clzLoop]
  have straight : Straight (clzRound rd) := by simp [clzRound, HostInstr.straight]
  have run := reaches_of_straight env straight
    (clzStart rd ++ clzTest rm ++ [.jcc .z 7]) [.jmp (-14)] state
  rw [← code] at run
  exact run.tail rfl

theorem Tested.inRound {tested : HostState World} (test : Tested state tested rm)
    (round' : InRound before state rd round) : InRound before tested rd round where
  toRegsBecome := by
    have kept := round'.toRegsBecome.trans test.toKeepsContexts.regsBecome
    rwa [round'.context] at kept
  ecx := test.ecx.trans round'.ecx

/-- The rounds up to the first one whose mask has no bit of the source. -/
theorem reaches_rounds {count : Nat}
    (more : ∀ round < count,
      clzRegs before.context.regs rd round rm &&& BitVec.allOnes 32 <<< round ≠ 0) :
    ∃ state, Reaches (hostIsa env) (clzLoop rd rm) (0, before) (12, state) ∧
      InRound before state rd count := by
  induction count with
  | zero =>
      have straight : Straight (clzStart rd) := by simp [clzStart, HostInstr.straight]
      have run := reaches_of_straight env straight []
        (clzTest rm ++ .jcc .z 7 :: (clzRound rd ++ [.jmp (-14)])) before
      exact ⟨_, run, inRound_start env before⟩
  | succ count ih =>
      obtain ⟨state, run, round'⟩ := ih fun round inside => more round (Nat.lt_succ_of_lt inside)
      have test := tested_clzTest env state rm
      have goes : (applyAll env (clzTest rm) state).flags.zf = false := by
        rw [test.zf, round'.ecx, round'.context, BitVec.and_comm, beq_eq_false_iff_ne]
        exact more count (Nat.lt_succ_self count)
      have jump := reaches_jcc env rd rm (applyAll env (clzTest rm) state)
      rw [goes] at jump
      exact ⟨_, ((run.trans (reaches_test env state)).trans jump).trans (reaches_round env _),
        inRound_clzRound env (test.inRound round')⟩

/-- The loop ends in that round. -/
theorem finishes_clzLoop {count : Nat}
    (more : ∀ round < count,
      clzRegs before.context.regs rd round rm &&& BitVec.allOnes 32 <<< round ≠ 0)
    (last : clzRegs before.context.regs rd count rm &&& BitVec.allOnes 32 <<< count = 0) :
    ∃ after, Finishes (hostIsa env) (clzLoop rd rm) before after ∧
      RegsBecome before after (clzRegs before.context.regs rd count) := by
  obtain ⟨state, run, round'⟩ := reaches_rounds env more
  have test := tested_clzTest env state rm
  have ends : (applyAll env (clzTest rm) state).flags.zf = true := by
    rw [test.zf, round'.ecx, round'.context, BitVec.and_comm, last]
    rfl
  have jump := reaches_jcc env rd rm (applyAll env (clzTest rm) state)
  rw [ends] at jump
  exact ⟨_, (run.trans (reaches_test env state)).trans jump, (test.inRound round').toRegsBecome⟩

/-- What the loop leaves in the destination. -/
def clzResult (rd rm : Fin 16) (value : BitVec 32) : BitVec 32 :=
  if rd = rm then 27 else value.clz

theorem clzRegs_of_ne (regs : Fin 16 → BitVec 32) (apart : rd ≠ rm) (round : Nat) :
    clzRegs regs rd round rm = regs rm :=
  Function.update_of_ne apart.symm _ _

theorem clzRegs_self (regs : Fin 16 → BitVec 32) (round : Nat) :
    clzRegs regs rd round rd = 32 - BitVec.ofNat 32 round :=
  Function.update_self _ _ _

/-- The loop is total.  Where the destination is the source it reads its own
count, whatever the source was. -/
theorem clzLoop_total (rd rm : Fin 16) (before : HostState World) :
    ∃ after, Finishes (hostIsa env) (clzLoop rd rm) before after ∧
      RegsBecome before after (Function.update before.context.regs rd
        (clzResult rd rm (before.context.regs rm))) := by
  by_cases same : rd = rm
  · subst same
    have counts : ∀ round < 5,
        (32 - BitVec.ofNat 32 round) &&& BitVec.allOnes 32 <<< round ≠ 0 := by decide
    have more : ∀ round < 5,
        clzRegs before.context.regs rd round rd &&& BitVec.allOnes 32 <<< round ≠ 0 := by
      intro round inside
      rw [clzRegs_self]
      exact counts round inside
    have last : clzRegs before.context.regs rd 5 rd &&& BitVec.allOnes 32 <<< 5 = 0 := by
      rw [clzRegs_self]
      decide
    obtain ⟨after, run, become⟩ := finishes_clzLoop env more last
    refine ⟨after, run, ?_⟩
    rwa [clzResult, if_pos rfl]
  · obtain ⟨last, more⟩ := rounds_of_clz (before.context.regs rm)
    have more' : ∀ round < 32 - (before.context.regs rm).clz.toNat,
        clzRegs before.context.regs rd round rm &&& BitVec.allOnes 32 <<< round ≠ 0 := by
      intro round inside
      rw [clzRegs_of_ne _ same]
      exact more round inside
    have last' : clzRegs before.context.regs rd (32 - (before.context.regs rm).clz.toNat) rm &&&
        BitVec.allOnes 32 <<< (32 - (before.context.regs rm).clz.toNat) = 0 := by
      rw [clzRegs_of_ne _ same]
      exact last
    obtain ⟨after, run, become⟩ := finishes_clzLoop env more' last'
    have bound : (before.context.regs rm).clz.toNat ≤ 32 := BitVec.clz_le
    have count : 32 - BitVec.ofNat 32 (32 - (before.context.regs rm).clz.toNat) =
        (before.context.regs rm).clz := by
      apply BitVec.eq_of_toNat_eq
      rw [BitVec.toNat_sub, BitVec.toNat_ofNat]
      change (2 ^ 32 - _ + 32) % 2 ^ 32 = _
      omega
    rw [clzRegs, count] at become
    refine ⟨after, run, ?_⟩
    rwa [clzResult, if_neg same]

/-! ### The instruction -/

theorem clz_eq_27_iff (value : BitVec 32) :
    value.clz = 27 ↔ 16 ≤ value.toNat ∧ value.toNat < 32 := by
  have high := BitVec.toNat_lt_two_pow_sub_clz (x := value)
  have low (nonzero : value ≠ 0) : 2 ^ (32 - 1 - value.clz.toNat) ≤ value.toNat :=
    BitVec.two_pow_sub_clz_le_toNat_of_ne_zero (by decide) nonzero
  constructor
  · intro count
    have nonzero : value ≠ 0 := by
      intro zero
      rw [BitVec.clz_eq_iff_eq_zero.mpr zero] at count
      exact absurd count (by decide)
    rw [count] at high low
    exact ⟨low nonzero, high⟩
  · rintro ⟨least, most⟩
    have nonzero : value ≠ 0 := by
      rintro rfl
      exact absurd least (by decide)
    have atLeast : 4 < 32 - value.clz.toNat :=
      (Nat.pow_lt_pow_iff_right (a := 2) (by decide)).mp (least.trans_lt high)
    have atMost : 32 - 1 - value.clz.toNat < 5 :=
      (Nat.pow_lt_pow_iff_right (a := 2) (by decide)).mp ((low nonzero).trans_lt most)
    apply BitVec.eq_of_toNat_eq
    change value.clz.toNat = 27
    omega

variable {ctx : Context} {emitter : Emitter} {flagsUpdated : Bool}

theorem clz_finishes (clz : ctx.instruction = .clz) (rd : ctx.rd ≠ 15) (rm : ctx.rm ≠ 15)
    (executed : Executed env ctx emitter flagsUpdated state) :
    ∃ after, Finishes (hostIsa env) (compileInstruction ctx emitter flagsUpdated).code state after ∧
      RegsBecome state after (Function.update state.context.regs ctx.rd
        (clzResult ctx.rd ctx.rm (state.context.regs ctx.rm))) := by
  have code (held : Bool) : (compileBody ctx emitter held).code = clzLoop ctx.rd ctx.rm := by
    rw [compileBody, clz]
    change clzCode ctx = _
    rw [clzCode, breakIfPc, if_neg rm, breakIfPc, if_neg rd]
    rfl
  have kept := (keepsGuest_testCode env ctx emitter flagsUpdated state).toKeepsContexts
  obtain ⟨after, run, become⟩ := clzLoop_total env ctx.rd ctx.rm
    (applyAll env (testCode ctx emitter flagsUpdated) state)
  rw [kept.context] at become
  rw [← code] at run
  exact ⟨after, finishes_of_body env executed run, kept.andThen become⟩

/-- The count is right exactly if the destination is not the source, or the source
is a value with 27 leading zeros. -/
theorem clz_iff (env : HostEnv World) {ctx : Context} (clz : ctx.instruction = .clz)
    (rd : ctx.rd ≠ 15) (rm : ctx.rm ≠ 15) (emitter : Emitter) (flagsUpdated : Bool)
    (state : HostState World) (executed : Executed env ctx emitter flagsUpdated state) :
    (∃ after,
      Finishes (hostIsa env) (compileInstruction ctx emitter flagsUpdated).code state after ∧
        RegsBecome state after (Function.update state.context.regs ctx.rd
          (state.context.regs ctx.rm).clz)) ↔
      ctx.rd ≠ ctx.rm ∨
        16 ≤ (state.context.regs ctx.rm).toNat ∧ (state.context.regs ctx.rm).toNat < 32 := by
  obtain ⟨after, run, become⟩ := clz_finishes env clz rd rm executed
  constructor
  · rintro ⟨other, run', right⟩
    have regs := right.context
    rw [Finishes.unique (hostIsa env) run' run, become.context] at regs
    have value := congrFun regs ctx.rd
    rw [Function.update_self, Function.update_self, clzResult] at value
    by_cases same : ctx.rd = ctx.rm
    · rw [if_pos same] at value
      exact Or.inr ((clz_eq_27_iff _).mp value.symm)
    · exact Or.inl same
  · intro good
    have value : clzResult ctx.rd ctx.rm (state.context.regs ctx.rm) =
        (state.context.regs ctx.rm).clz := by
      rw [clzResult]
      split
      · next same => exact ((clz_eq_27_iff _).mpr (good.resolve_left (not_not.mpr same))).symm
      · rfl
    rw [value] at become
    exact ⟨after, run, become⟩

/-- `CLZ r1, r0`. -/
def clzOne : Context := (Disassembler.blank.decode 0xE16F1F10 0).toContext

/-- `CLZ r0, r0`. -/
def clzSame : Context := (Disassembler.blank.decode 0xE16F0F10 0).toContext

theorem clz_iff_one :
    (∃ after,
      Finishes (hostIsa HostEnv.idle) (compileInstruction clzOne ⟨2, 0, false⟩ false).code
          (uniform 0x1234) after ∧
        RegsBecome (uniform 0x1234 : HostState Unit) after (Function.update
          (uniform 0x1234 : HostState Unit).context.regs clzOne.rd
          ((uniform 0x1234 : HostState Unit).context.regs clzOne.rm).clz)) ↔
      clzOne.rd ≠ clzOne.rm ∨
        16 ≤ ((uniform 0x1234 : HostState Unit).context.regs clzOne.rm).toNat ∧
          ((uniform 0x1234 : HostState Unit).context.regs clzOne.rm).toNat < 32 :=
  clz_iff .idle (by decide) (by decide) (by decide) ⟨2, 0, false⟩ false (uniform 0x1234)
    (executed_always .idle (by decide) _ _ _)

/-- The loop counts 27 zeros in front of a bit that is the highest. -/
theorem clz_same_wrong :
    ¬∃ after,
      Finishes (hostIsa HostEnv.idle) (compileInstruction clzSame ⟨2, 0, false⟩ false).code
          (uniform 0x80000000) after ∧
        RegsBecome (uniform 0x80000000 : HostState Unit) after (Function.update
          (uniform 0x80000000 : HostState Unit).context.regs clzSame.rd
          ((uniform 0x80000000 : HostState Unit).context.regs clzSame.rm).clz) := by
  rintro ⟨after, run, right⟩
  obtain ⟨other, run', become⟩ := clz_finishes HostEnv.idle
    (show clzSame.instruction = .clz by decide) (by decide) (by decide)
    (executed_always .idle (by decide) ⟨2, 0, false⟩ false (uniform 0x80000000 : HostState Unit))
  have regs := right.context
  rw [Finishes.unique (hostIsa HostEnv.idle) run run', become.context] at regs
  have value := congrFun regs clzSame.rd
  rw [Function.update_self, Function.update_self] at value
  revert value
  decide

end Compiler

end Ndse
