import Ndse.CompilerConditions

/-!
# Flags of translated arithmetic instructions

The host flags hold a borrow where the architecture has a carry, so that the
flags of a subtraction are right only where the carry is complemented before
they are stored.  Under a condition the borrow is taken from the host as the
test leaves it.  For each arithmetic instruction one lemma says which flags its
code leaves behind.
-/

namespace Ndse

open CarryArithmetic FlatCode

/-- The condition flags among the host flags. -/
def HostFlags.nzcv (flags : HostFlags) : Nzcv := ⟨flags.sf, flags.zf, flags.cf, flags.of⟩

theorem nzcv_add (flags junk : HostFlags) (a b : BitVec 32) :
    (aluFlags .add flags junk a b).nzcv = .ofAddition a b false := rfl

theorem nzcv_adc (flags junk : HostFlags) (a b : BitVec 32) :
    (aluFlags .adc flags junk a b).nzcv = .ofAddition a b flags.cf := rfl

theorem nzcv_sbb (flags junk : HostFlags) (a b : BitVec 32) :
    (aluFlags .sbb flags junk a b).nzcv =
      (Nzcv.ofAddition a (~~~b) (!flags.cf)).complementCarry := by
  simp [aluFlags, HostFlags.ofResult, HostFlags.nzcv, Nzcv.ofAddition, Nzcv.complementCarry,
    aluResult, subBorrow_eq_addCarry, borrowOut_eq_not_carryOut, subOverflow_eq_addOverflow]

theorem nzcv_sub (flags junk : HostFlags) (a b : BitVec 32) :
    (aluFlags .sub flags junk a b).nzcv =
      (Nzcv.ofAddition a (~~~b) true).complementCarry := by
  simp [aluFlags, HostFlags.ofResult, HostFlags.nzcv, Nzcv.ofAddition, Nzcv.complementCarry,
    aluResult, subBorrow_eq_addCarry, borrowOut_eq_not_carryOut, subOverflow_eq_addOverflow]

theorem nzcv_cmp (flags junk : HostFlags) (a b : BitVec 32) :
    (aluFlags .cmp flags junk a b).nzcv =
      (Nzcv.ofAddition a (~~~b) true).complementCarry :=
  nzcv_sub flags junk a b

theorem getLsbD_packFlags_high (eax : BitVec 32) (flags : HostFlags) {bit : Nat}
    (low : 8 ≤ bit) (high : bit < 16) :
    (packFlags eax flags).getLsbD bit = flags.toByte.getLsbD (bit - 8) := by
  have inside : bit < 32 := by omega
  rw [packFlags, ByteMemory.getLsbD_setField, if_pos (by omega), decide_eq_true inside,
    Bool.true_and]

theorem getLsbD_packFlags_low (eax : BitVec 32) (flags : HostFlags) {bit : Nat}
    (low : bit < 8) :
    (packFlags eax flags).getLsbD bit = ((BitVec.ofBool flags.of).setWidth 8).getLsbD bit := by
  have inside : bit < 32 := by omega
  rw [packFlags, ByteMemory.getLsbD_setField, if_neg (by omega), ByteMemory.getLsbD_setField,
    if_pos (by omega), Nat.sub_zero, decide_eq_true inside, Bool.true_and, Bool.true_and]

theorem getLsbD_toByte (flags : HostFlags) :
    flags.toByte.getLsbD 0 = flags.cf ∧ flags.toByte.getLsbD 2 = flags.pf ∧
      flags.toByte.getLsbD 4 = flags.af ∧ flags.toByte.getLsbD 6 = flags.zf ∧
      flags.toByte.getLsbD 7 = flags.sf := by
  simp only [HostFlags.toByte, BitVec.getLsbD_ofBoolListLE]
  exact ⟨rfl, rfl, rfl, rfl, rfl⟩

theorem packFlags_nzcv (eax : BitVec 32) (flags : HostFlags) :
    Nzcv.ofX86 (packFlags eax flags) = flags.nzcv := by
  obtain ⟨cf, -, -, zf, sf⟩ := getLsbD_toByte flags
  simp (disch := decide) only [Nzcv.ofX86, getLsbD_packFlags_high, getLsbD_packFlags_low,
    Nat.reduceSub, cf, zf, sf, HostFlags.nzcv]
  cases flags.of <;> rfl

namespace Compiler

variable {World : Type} (env : HostEnv World) {ctx : Context} {emitter : Emitter}
  {state : HostState World}

/-- What `store_flags` stores. -/
theorem storeFlags_nzcv (stores : emitter.lookaheadS = false) :
    Nzcv.ofX86 (applyAll env (storeFlags emitter) state).context.x86Flags = state.flags.nzcv := by
  rw [← packFlags_nzcv (state.regs .eax)]
  simp [storeFlags, stores, HostInstr.apply, packFlags]

/-- The flags stored behind some code are those the code leaves. -/
theorem flagging_nzcv (stores : emitter.lookaheadS = false) (code final : List HostInstr) :
    Nzcv.ofX86 (applyAll env (flagging emitter true code final).code state).context.x86Flags =
      (applyAll env (code ++ final) state).flags.nzcv := by
  rw [flagging, if_pos rfl, applyAll_append, storeFlags_nzcv env stores]

/-- The carry is complemented at the end. -/
theorem cmc_nzcv (code : List HostInstr) :
    (applyAll env (code ++ [.cmc]) state).flags.nzcv =
      (applyAll env code state).flags.nzcv.complementCarry := by
  simp [HostInstr.apply, HostFlags.nzcv, Nzcv.complementCarry]

variable {env}

/-! ### Additions and subtractions of registers -/

theorem logicalR_nzcv {op : AluOp} {carry : Bool}
    (sum : ∀ junk a b, (aluFlags op state.flags junk a b).nzcv = .ofAddition a b carry)
    (writes : op.writes = true) :
    (applyAll env (logicalR ctx op) state).flags.nzcv =
      .ofAddition (state.context.regs ctx.rn) (state.regs .eax) carry := by
  rw [logicalR]
  split
  · simp [HostInstr.apply, writes, sum]
  · simp [HostInstr.apply, writes, sum, Nzcv.ofAddition_comm (state.regs .eax)]

/-- A subtraction leaves the borrow. -/
theorem minusR_nzcv {op : AluOp} {register : HostReg} {carry : Bool}
    (difference : ∀ junk a b, (aluFlags op state.flags junk a b).nzcv =
      (Nzcv.ofAddition a (~~~b) carry).complementCarry)
    (writes : op.writes = true) (free : register ≠ .edx) :
    (applyAll env
        (if ctx.rn = ctx.rd then [.alu op (guest ctx.rn) (.reg register)]
        else [.mov edx (guest ctx.rn), .alu op edx (.reg register), .mov (guest ctx.rd) edx])
        state).flags.nzcv =
      (Nzcv.ofAddition (state.context.regs ctx.rn) (~~~state.regs register)
        carry).complementCarry := by
  split
  · simp [HostInstr.apply, writes, difference]
  · simp [HostInstr.apply, writes, difference, free]

/-! ### Constants -/

theorem addSubI_nzcv_same {op : AluOp} {offset : BitVec 32}
    {flagsOf : BitVec 32 → BitVec 32 → Nzcv}
    (alu : ∀ junk a b, (aluFlags op state.flags junk a b).nzcv = flagsOf a b)
    (writes : op.writes = true) (rd : ctx.rd ≠ 15) (same : ctx.rn = ctx.rd) :
    (applyAll env (addSubI ctx emitter op offset) state).flags.nzcv =
      flagsOf (state.context.regs ctx.rn) ctx.imm := by
  rw [addSubI, breakIfPc, breakIfPc, if_neg rd, if_pos same, if_neg (same ▸ rd)]
  simp [HostInstr.apply, writes, alu]

/-- Adding zero emits no addition. -/
theorem addSubI_nzcv_zero {op : AluOp} (rn : ctx.rn ≠ 15) (rd : ctx.rd ≠ 15)
    (different : ctx.rn ≠ ctx.rd) :
    (applyAll env (addSubI ctx emitter op 0) state).flags = state.flags := by
  rw [addSubI, breakIfPc, if_neg rd, if_neg different, loadEcxRegOrPc, if_pos rn, addEcx,
    if_neg (not_not.mpr rfl)]
  simp [HostInstr.apply]

/-- Different registers go through an addition in `ecx`. -/
theorem addSubI_nzcv_sum {op : AluOp} {offset : BitVec 32} (rn : ctx.rn ≠ 15) (rd : ctx.rd ≠ 15)
    (different : ctx.rn ≠ ctx.rd) (nonzero : offset ≠ 0) :
    (applyAll env (addSubI ctx emitter op offset) state).flags.nzcv =
      .ofAddition (state.context.regs ctx.rn) offset false := by
  rw [addSubI, breakIfPc, if_neg rd, if_neg different, loadEcxRegOrPc, if_pos rn, addEcx,
    if_pos nonzero]
  simp [HostInstr.apply, AluOp.writes, nzcv_add]

theorem adcICode_nzcv_same (rd : ctx.rd ≠ 15) (same : ctx.rn = ctx.rd) :
    (applyAll env (adcICode ctx emitter) state).flags.nzcv =
      .ofAddition (state.context.regs ctx.rn) ctx.imm (state.context.x86Flags.getLsbD 8) := by
  rw [adcICode, breakIfPc, breakIfPc, if_neg rd, if_pos same, if_neg (same ▸ rd)]
  have loaded := keepsGuest_loadFlags env state
  simp [HostInstr.apply, AluOp.writes, nzcv_adc, loadFlags_flags, loadedFlags, loaded.context]

/-- The carry is added on its own. -/
theorem adcICode_nzcv_different (rn : ctx.rn ≠ 15) (rd : ctx.rd ≠ 15)
    (different : ctx.rn ≠ ctx.rd) :
    (applyAll env (adcICode ctx emitter) state).flags.nzcv =
      .ofAddition (state.context.regs ctx.rn + ctx.imm) 0
        (state.context.x86Flags.getLsbD 8) := by
  rw [adcICode, breakIfPc, if_neg rd, if_neg different, List.nil_append, applyAll_append,
    applyAll_append]
  have sum := keepsContexts_loadEcxRegOrPc env emitter state rn ctx.imm
  have loaded := keepsGuest_loadFlags env
    (applyAll env (loadEcxRegOrPc emitter ctx.rn ctx.imm) state)
  simp [HostInstr.apply, AluOp.writes, nzcv_adc, loadFlags_flags, loadedFlags, loaded.ecx,
    loadEcxRegOrPc_ecx env emitter state rn, sum.context]

/-- A negation leaves the borrow. -/
theorem rsbI_nzcv_zero (stores : emitter.lookaheadS = false) (sBit : ctx.sBit = true)
    (rn : ctx.rn ≠ 15) (rd : ctx.rd ≠ 15) (zero : ctx.imm = 0) :
    Nzcv.ofX86 (applyAll env (rsbI ctx emitter).code state).context.x86Flags =
      (Nzcv.ofAddition 0 (~~~state.context.regs ctx.rn) true).complementCarry := by
  rw [rsbI, if_pos zero, sBit, flagging_nzcv env stores, breakIfPc, breakIfPc, if_neg rn,
    if_neg rd]
  by_cases same : ctx.rn = ctx.rd
  · simp [same, HostInstr.apply, nzcv_sub]
  · simp [same, HostInstr.apply, nzcv_sub]

/-- A subtraction from another constant stores no flags. -/
theorem rsbI_keeps_flags (rn : ctx.rn ≠ 15) (rd : ctx.rd ≠ 15) (nonzero : ctx.imm ≠ 0) :
    (applyAll env (rsbI ctx emitter).code state).context.x86Flags = state.context.x86Flags := by
  rw [rsbI, if_neg nonzero, breakIfPc, breakIfPc, if_neg rn, if_neg rd]
  by_cases same : ctx.rn = ctx.rd
  · simp [same, plain, HostInstr.apply, AluOp.writes]
  · simp [same, plain]

/-! ### With the carry -/

theorem adcR_nzcv :
    (applyAll env (.push eax :: loadFlags ++ .pop eax :: logicalR ctx .adc) state).flags.nzcv =
      .ofAddition (state.context.regs ctx.rn) (state.regs .eax)
        (state.context.x86Flags.getLsbD 8) := by
  have loaded := carryLoaded_stack env state
  rw [adcR_split, applyAll_append, ← loaded.operand, ← loaded.carry, ← loaded.context]
  exact logicalR_nzcv (nzcv_adc _) rfl

theorem sbcI_nzcv (held : Bool) :
    (applyAll env
        (loadFlagsUnless held ++
          [.mov eax (guest ctx.rn), .cmc, .alu .sbb eax (.imm32 ctx.imm), .mov (guest ctx.rd) eax])
        state).flags.nzcv =
      (Nzcv.ofAddition (state.context.regs ctx.rn) (~~~ctx.imm)
        (carryTaken held state)).complementCarry := by
  have kept := keepsGuest_loadFlagsUnless env held state
  rw [applyAll_append]
  simp [HostInstr.apply, AluOp.writes, nzcv_sbb, loadFlagsUnless_cf, kept.context]

theorem sbcR_nzcv (held : Bool) :
    (applyAll env
        (.mov ecx eax :: loadFlagsUnless held ++ .cmc ::
          if ctx.rn = ctx.rd then [.alu .sbb (guest ctx.rn) ecx]
          else [.mov edx (guest ctx.rn), .alu .sbb edx ecx, .mov (guest ctx.rd) edx])
        state).flags.nzcv =
      (Nzcv.ofAddition (state.context.regs ctx.rn) (~~~state.regs .eax)
        (carryTaken held state)).complementCarry := by
  cases held with
  | false =>
      have loaded := carryLoaded_ecx env state
      rw [sbcR_split, applyAll_append, minusR_nzcv (nzcv_sbb _) rfl (by decide),
        loaded.operand, loaded.carry, loaded.context, Bool.not_not]
      rfl
  | true =>
      rw [List.cons_append, loadFlagsUnless, if_pos rfl, List.nil_append, applyAll_cons,
        applyAll_cons, minusR_nzcv (nzcv_sbb _) rfl (by decide)]
      simp [HostInstr.apply, carryTaken]

/-- The sum of the register and the borrow may wrap before it is subtracted. -/
theorem rscR_nzcv (held : Bool) (rm : ctx.rm ≠ 15) (decoded : ctx.shift.Decoded ctx.imm.toNat) :
    (applyAll env
        (loadFlagsUnless held ++ [.cmc, .mov ecx (guest ctx.rn), .alu .adc ecx (.imm8 0)] ++
          loadShifterImm ctx emitter ++ [.alu .sub eax ecx, .mov (guest ctx.rd) eax])
        state).flags.nzcv =
      (Nzcv.ofAddition
        (ctx.operand true state.context.regs (state.context.x86Flags.getLsbD 8))
        (~~~addCarry (state.context.regs ctx.rn) 0 (!carryTaken held state))
        true).complementCarry := by
  have sum := borrowed_ecx env ctx held state
  have kept := keepsContexts_borrowed env ctx held state
  rw [applyAll_append, applyAll_append]
  generalize applyAll env
    (loadFlagsUnless held ++ [.cmc, .mov ecx (guest ctx.rn), .alu .adc ecx (.imm8 0)]) state =
      borrowed at sum kept
  have shifter := keepsGuest_loadShifterImm env ctx emitter borrowed rm
  have value := loadShifterImm_eax env ctx emitter borrowed rm decoded
  simp [HostInstr.apply, AluOp.writes, nzcv_sub, value, shifter.ecx, sum, kept.context]

/-! ### Flags behind the instructions -/

/-- An instruction that stores its flags, without the program counter and with
an operand as the disassembler decodes it. -/
structure SetsFlags (ctx : Context) (op : DataOp) (shifted : Bool) : Prop where
  instruction : ctx.instruction.dataOp = some (op, shifted)
  sBit : op.writes = true → ctx.sBit = true
  rd : op.writes = true → ctx.rd ≠ 15
  rn : op.reads = true → ctx.rn ≠ 15
  rm : shifted = true → ctx.rm ≠ 15
  shift : shifted = true → ctx.shift.Decoded ctx.imm.toNat

/-- Its code runs through when it is executed. -/
theorem SetsFlags.finishes (env : HostEnv World) {op : DataOp} {shifted : Bool}
    (accepted : SetsFlags ctx op shifted) {flagsUpdated : Bool}
    (executed : Executed env ctx emitter flagsUpdated state) :
    Finishes (hostIsa env) (compileInstruction ctx emitter flagsUpdated).code state
      (applyAll env
        (compileBody ctx emitter (flagsHeld emitter flagsUpdated || conditional ctx)).code
        (applyAll env (testCode ctx emitter flagsUpdated) state)) :=
  finishes_executed env executed
    (straight_body accepted.instruction accepted.rd accepted.rn accepted.rm)

/-- An arithmetic instruction that stores its flags. -/
structure SetsArithmetic (ctx : Context) (op : DataOp) (shifted : Bool) : Prop extends
    SetsFlags ctx op shifted where
  arithmetic : (op.addends 0 0 false).isSome = true

/-- The flags the code of an instruction stores are those of the architecture. -/
def StoresFlags (before after : HostState World) (ctx : Context) (op : DataOp)
    (shifted : Bool) : Prop :=
  ctx.dataFlags op shifted before.context.regs (before.context.x86Flags.getLsbD 8) =
    some (.ofX86 after.context.x86Flags)

/-- The flags the code of an arithmetic instruction leaves in the stored word.
`held` says that the flags are not loaded again. -/
def flagsStored (ctx : Context) (held : Bool) (state : HostState World) : Nzcv :=
  let rn := state.context.regs ctx.rn
  let carry := state.context.x86Flags.getLsbD 8
  let operand := ctx.operand true state.context.regs carry
  match ctx.instruction with
  | .addI =>
      if ctx.rn = ctx.rd ∨ ctx.imm ≠ 0 then .ofAddition rn ctx.imm false else state.flags.nzcv
  | .subI =>
      if ctx.rn = ctx.rd then (Nzcv.ofAddition rn (~~~ctx.imm) true).complementCarry
      else if ctx.imm ≠ 0 then .ofAddition rn (-ctx.imm) false
      else state.flags.nzcv
  | .adcI =>
      if ctx.rn = ctx.rd then .ofAddition rn ctx.imm carry
      else .ofAddition (rn + ctx.imm) 0 carry
  | .sbcI => .ofAddition rn (~~~ctx.imm) (carryTaken held state)
  | .rsbI =>
      if ctx.imm = 0 then (Nzcv.ofAddition 0 (~~~rn) true).complementCarry
      else .ofX86 state.context.x86Flags
  | .cmpI => .ofAddition rn (~~~ctx.imm) true
  | .cmnI => .ofAddition rn ctx.imm false
  | .subR => (Nzcv.ofAddition rn (~~~operand) true).complementCarry
  | .rsbR => (Nzcv.ofAddition operand (~~~rn) true).complementCarry
  | .adcR => .ofAddition rn operand carry
  | .sbcR =>
      -- the shifter leaves the highest bit of `esi` in the carry
      .ofAddition rn (~~~operand) (if held then (state.regs .esi).msb else carry)
  | .rscR => .ofAddition operand (~~~addCarry rn 0 (!carryTaken held state)) true
  | .cmpR => .ofAddition rn (~~~operand) true
  | _ => .ofAddition rn operand false

theorem body_flagsStored {op : DataOp} {shifted : Bool} (accepted : SetsArithmetic ctx op shifted)
    (emitter : Emitter) (stores : emitter.lookaheadS = false) (held : Bool)
    (state : HostState World) :
    Nzcv.ofX86 (applyAll env (compileBody ctx emitter held).code state).context.x86Flags =
      flagsStored ctx held state := by
  have known := accepted.instruction
  have arithmetic := accepted.arithmetic
  have sBit := accepted.sBit
  have rn := accepted.rn
  have rd := accepted.rd
  have shifter (form : shifted = true) :=
    keepsGuest_loadShifterImm env ctx emitter state (accepted.rm form)
  have value (form : shifted = true) :=
    loadShifterImm_eax env ctx emitter state (accepted.rm form) (accepted.shift form)
  cases kind : ctx.instruction <;> simp only [kind, Inst.dataOp, Option.some.injEq,
    Prod.mk.injEq, reduceCtorEq] at known
  all_goals
    obtain ⟨rfl, rfl⟩ := known
    simp only [DataOp.reads, DataOp.writes, forall_const, Bool.false_eq_true, false_imp_iff,
      DataOp.addends, Option.isSome_none] at rn rd sBit shifter value arithmetic
  all_goals simp only [compileBody, kind, sBit, flagsStored]
  case addI =>
      rw [flagging_nzcv env stores, List.append_nil]
      by_cases same : ctx.rn = ctx.rd
      · rw [addSubI_nzcv_same (nzcv_add _) rfl rd same, if_pos (.inl same)]
      · by_cases zero : ctx.imm = 0
        · rw [zero, addSubI_nzcv_zero rn rd same, if_neg (by simp [same])]
        · rw [addSubI_nzcv_sum rn rd same zero, if_pos (.inr zero)]
  case subI =>
      rw [flagging_nzcv env stores, List.append_nil]
      by_cases same : ctx.rn = ctx.rd
      · rw [addSubI_nzcv_same (nzcv_sub _) rfl rd same, if_pos same]
      · by_cases zero : ctx.imm = 0
        · rw [if_neg same, if_neg (not_not.mpr zero), zero, neg_zero,
            addSubI_nzcv_zero rn rd same]
        · rw [if_neg same, if_pos zero, addSubI_nzcv_sum rn rd same (by simpa using zero)]
  case adcI =>
      rw [flagging_nzcv env stores, List.append_nil]
      by_cases same : ctx.rn = ctx.rd
      · rw [adcICode_nzcv_same rd same, if_pos same]
      · rw [adcICode_nzcv_different rn rd same, if_neg same]
  case sbcI =>
      rw [flagging_nzcv env stores, cmc_nzcv, sbcI_nzcv, Nzcv.complementCarry_complementCarry]
  case rsbI =>
      by_cases zero : ctx.imm = 0
      · rw [rsbI_nzcv_zero stores sBit rn rd zero, if_pos zero]
      · rw [rsbI_keeps_flags rn rd zero, if_neg zero]
  case cmpI =>
      rw [flagging_nzcv env stores, cmc_nzcv, breakIfPc, if_neg rn]
      simp [HostInstr.apply, AluOp.writes, nzcv_cmp]
  case cmnI =>
      rw [flagging_nzcv env stores, breakIfPc, if_neg rn, Nzcv.ofAddition_comm]
      simp [HostInstr.apply, AluOp.writes, nzcv_add]
  case addR =>
      rw [flagging_nzcv env stores, List.append_nil, applyAll_append,
        logicalR_nzcv (nzcv_add _) rfl, value, shifter.context]
  case subR =>
      rw [flagging_nzcv env stores, List.append_nil, applyAll_append,
        minusR_nzcv (nzcv_sub _) rfl (by decide), value, shifter.context]
  case rsbR =>
      rw [flagging_nzcv env stores, List.append_nil, applyAll_append]
      simp [HostInstr.apply, AluOp.writes, nzcv_sub, value, shifter.context]
  case adcR =>
      rw [flagging_nzcv env stores, List.append_nil, List.append_assoc, applyAll_append, adcR_nzcv,
        value, shifter.context]
  case sbcR =>
      have carry := loadShifterImm_cf env ctx emitter state (accepted.rm rfl)
      rw [flagging_nzcv env stores, cmc_nzcv, List.append_assoc, applyAll_append, sbcR_nzcv, value,
        carryTaken, carry, shifter.context, Nzcv.complementCarry_complementCarry]
  case rscR =>
      rw [flagging_nzcv env stores, cmc_nzcv, rscR_nzcv held (accepted.rm rfl) (accepted.shift rfl),
        Nzcv.complementCarry_complementCarry]
  case cmpR =>
      rw [flagging_nzcv env stores, cmc_nzcv, breakIfPc, if_neg rn, List.nil_append,
        applyAll_append]
      simp [HostInstr.apply, AluOp.writes, nzcv_cmp, value, shifter.context]
  case cmnR =>
      rw [flagging_nzcv env stores, breakIfPc, if_neg rn, List.nil_append, List.append_nil,
        applyAll_append, Nzcv.ofAddition_comm]
      simp [HostInstr.apply, AluOp.writes, nzcv_add, value, shifter.context]

/-! ### Right flags -/

/-- A difference whose flags do not show a borrow of one more. -/
def HidesBorrow (difference : BitVec 32) : Prop :=
  difference ≠ 0 ∧ difference ≠ 1 ∧ difference ≠ BitVec.intMin 32

instance (difference : BitVec 32) : Decidable (HidesBorrow difference) :=
  inferInstanceAs (Decidable (_ ∧ _))

/-- The states in which the code of an arithmetic instruction stores the right
flags. -/
def arithmeticRight (ctx : Context) (held : Bool) (state : HostState World) : Prop :=
  let rn := state.context.regs ctx.rn
  let incoming := Nzcv.ofX86 state.context.x86Flags
  let operand := ctx.operand true state.context.regs incoming.c
  let host := state.flags.nzcv
  match ctx.instruction with
  | .addI => ctx.rn = ctx.rd ∨ ctx.imm ≠ 0 ∨ host = ⟨rn.msb, rn == 0, false, false⟩
  | .subI =>
      ctx.rn ≠ ctx.rd ∧ ctx.imm ≠ BitVec.intMin 32 ∧
        (ctx.imm ≠ 0 ∨ host = ⟨rn.msb, rn == 0, true, false⟩)
  | .adcI =>
      ctx.rn = ctx.rd ∨ carryOut rn ctx.imm false = false ∧ addOverflow rn ctx.imm false = false
  | .sbcI => held = true → host.c = incoming.c ∨ HidesBorrow (rn - ctx.imm)
  | .sbcR => held = true → (state.regs .esi).msb = incoming.c ∨ HidesBorrow (rn - operand)
  | .rscR =>
      let carry := if held then host.c else incoming.c
      (carry = false → rn ≠ BitVec.allOnes 32 ∧ rn ≠ BitVec.intMax 32) ∧
        (carry = incoming.c ∨ HidesBorrow (operand - rn))
  | .rsbI =>
      -- no flags are stored
      ctx.imm ≠ 0 ∧ incoming = .ofAddition (~~~rn) ctx.imm true
  | .subR | .rsbR => False
  | _ => True

theorem flagsStored_eq_iff {op : DataOp} {shifted : Bool} (accepted : SetsArithmetic ctx op shifted)
    (held : Bool) (state : HostState World) :
    ctx.dataFlags op shifted state.context.regs (state.context.x86Flags.getLsbD 8) =
        some (flagsStored ctx held state) ↔
      arithmeticRight ctx held state := by
  have known := accepted.instruction
  have arithmetic := accepted.arithmetic
  cases kind : ctx.instruction <;> simp only [kind, Inst.dataOp, Option.some.injEq,
    Prod.mk.injEq, reduceCtorEq] at known
  all_goals
    obtain ⟨rfl, rfl⟩ := known
    simp only [DataOp.addends, Option.isSome_none, Bool.false_eq_true] at arithmetic
  all_goals
    simp only [Context.dataFlags, DataOp.addends, Option.map_some, Option.some.injEq, flagsStored,
      arithmeticRight, kind, Context.operand_immediate]
  case addI =>
      by_cases added : ctx.rn = ctx.rd ∨ ctx.imm ≠ 0
      · rw [if_pos added, ← or_assoc]
        exact iff_of_true rfl (.inl added)
      · obtain ⟨different, zero⟩ := not_or.mp added
        rw [if_neg added, not_not.mp zero, Nzcv.ofAddition_zero, eq_comm]
        simp [different]
  case subI =>
      by_cases same : ctx.rn = ctx.rd
      · simp [same, (Nzcv.complementCarry_ne _).symm]
      · by_cases zero : ctx.imm = 0
        · have inside : (0 : BitVec 32) ≠ BitVec.intMin 32 := by decide
          rw [if_neg same, if_neg (not_not.mpr zero), zero, BitVec.ofNat_eq_ofNat, BitVec.not_zero,
            Nzcv.ofAddition_allOnes, eq_comm]
          exact ⟨fun host => ⟨same, inside, .inr host⟩, fun right =>
            right.2.2.resolve_left (not_not.mpr rfl)⟩
        · rw [if_neg same, if_pos zero, eq_comm, Nzcv.ofAddition_neg_iff _ zero]
          exact ⟨fun inside => ⟨same, inside, .inl zero⟩, fun right => right.2.1⟩
  case adcI =>
      by_cases same : ctx.rn = ctx.rd
      · simp [same]
      · rw [if_neg same, eq_comm, Nzcv.ofAddition_zero_iff]
        simp [same]
  case sbcI =>
      rw [eq_comm, Nzcv.ofAddition_not_iff]
      cases held <;> simp [carryTaken, HidesBorrow, HostFlags.nzcv, Nzcv.ofX86]
  case sbcR =>
      rw [eq_comm, Nzcv.ofAddition_not_iff]
      cases held <;> simp [HidesBorrow, Nzcv.ofX86]
  case rscR =>
      rw [eq_comm, Nzcv.ofAddition_borrow_iff]
      cases held <;> simp [carryTaken, HidesBorrow, HostFlags.nzcv, Nzcv.ofX86]
  case rsbI =>
      by_cases zero : ctx.imm = 0
      · rw [if_pos zero, zero, Nzcv.ofAddition_comm]
        simp [(Nzcv.complementCarry_ne _).symm]
      · rw [if_neg zero, eq_comm]
        exact ⟨fun host => ⟨zero, host⟩, fun right => right.2⟩
  case subR => simp [(Nzcv.complementCarry_ne _).symm]
  case rsbR =>
      rw [Nzcv.ofAddition_comm]
      simp [(Nzcv.complementCarry_ne _).symm]

/-- The flags of an executed arithmetic instruction are right exactly in the
states above, with the host flags as its test leaves them. -/
theorem arithmeticFlags_iff (env : HostEnv World) (ctx : Context) (instBits inst : Nat)
    {op : DataOp} {shifted : Bool} (accepted : SetsArithmetic ctx op shifted)
    (state : HostState World) (executed : Executed env ctx ⟨instBits, inst, false⟩ false state) :
    (∃ after,
      Finishes (hostIsa env) (compileInstruction ctx ⟨instBits, inst, false⟩ false).code
          state after ∧
        StoresFlags state after ctx op shifted) ↔
      arithmeticRight ctx (conditional ctx)
        (behindTest ctx ⟨instBits, inst, false⟩ false state) := by
  let emitter : Emitter := ⟨instBits, inst, false⟩
  let tested := applyAll env (testCode ctx emitter false) state
  have run : Finishes (hostIsa env) (compileInstruction ctx emitter false).code state
      (applyAll env (compileBody ctx emitter (conditional ctx)).code tested) :=
    accepted.finishes env executed
  have context : tested.context = state.context :=
    (keepsGuest_testCode env ctx emitter false state).context
  have right : arithmeticRight ctx (conditional ctx) tested ↔
      arithmeticRight ctx (conditional ctx) (behindTest ctx emitter false state) := by
    have flags : tested.flags = flagsBehindTest ctx emitter false state :=
      testCode_flags env rfl state
    have esi : tested.regs .esi = state.regs .esi := testCode_esi env state
    simp only [arithmeticRight, context, flags, esi, behindTest_context, behindTest_flags,
      behindTest_regs]
  rw [← right, ← flagsStored_eq_iff accepted, ← body_flagsStored accepted emitter rfl, context]
  constructor
  · rintro ⟨after, other, stored⟩
    rwa [StoresFlags, ← run.unique (hostIsa env) other] at stored
  · intro stored
    exact ⟨_, run, stored⟩

/-- `op r0, r1, #1` with the flags, under a condition. -/
def flagsOne (cond : Condition) (instruction : Inst) : Context :=
  { constantOne instruction with cond := cond, sBit := true }

theorem flagsOne_setsFlags (cond : Condition) {instruction : Inst} {op : DataOp}
    (known : instruction.dataOp = some (op, false)) :
    SetsFlags (flagsOne cond instruction) op false := by
  refine ⟨?_, fun _ => rfl, ?_, ?_, ?_, ?_⟩ <;> simp [flagsOne, constantOne, known]

/-- The guest registers hold one value, and the stored flags are in this word. -/
def uniformFlags [Inhabited World] (value word : BitVec 32) : HostState World :=
  (uniform value).setContext ((uniform value : HostState World).context.set .x86Flags word)

/-- `sbcnes r0, r1, #1` on the stored carry. -/
theorem arithmeticFlags_iff_sbc :
    ∃ after,
      Finishes (hostIsa .idle) (compileInstruction (flagsOne .ne .sbcI) ⟨2, 0, false⟩ false).code
          (uniformFlags 1 0x100 : HostState Unit) after ∧
        StoresFlags (uniformFlags 1 0x100) after (flagsOne .ne .sbcI) .sbc false :=
  (arithmeticFlags_iff .idle (flagsOne .ne .sbcI) 2 0 ⟨flagsOne_setsFlags .ne rfl, rfl⟩
    (uniformFlags 1 0x100) (by decide)).mpr fun _ => .inl (by decide)

/-- `adcs r0, r1, #1` with `0xFFFFFFFF` in `r1` and no carry: the carry of the
first of two additions is lost.  `sbchis r0, r1, #1` with 1 in `r1` and a carry:
the carry is complemented once too often. -/
theorem arithmeticFlags_fail_adc :
    SetsArithmetic (flagsOne .al .adcI) .adc false ∧
      SetsArithmetic (flagsOne .hi .sbcI) .sbc false ∧
      (¬∃ after, Finishes (hostIsa .idle)
          (compileInstruction (flagsOne .al .adcI) ⟨2, 0, false⟩ false).code
          (uniform 0xFFFFFFFF : HostState Unit) after ∧
        StoresFlags (uniform 0xFFFFFFFF) after (flagsOne .al .adcI) .adc false) ∧
      ¬∃ after, Finishes (hostIsa .idle)
          (compileInstruction (flagsOne .hi .sbcI) ⟨2, 0, false⟩ false).code
          (uniformFlags 1 0x100 : HostState Unit) after ∧
        StoresFlags (uniformFlags 1 0x100) after (flagsOne .hi .sbcI) .sbc false := by
  have adc : SetsArithmetic (flagsOne .al .adcI) .adc false := ⟨flagsOne_setsFlags .al rfl, rfl⟩
  have sbc : SetsArithmetic (flagsOne .hi .sbcI) .sbc false := ⟨flagsOne_setsFlags .hi rfl, rfl⟩
  refine ⟨adc, sbc, ?_, ?_⟩
  · rintro ⟨after, run, stored⟩
    have executed : Executed .idle (flagsOne .al .adcI) ⟨2, 0, false⟩ false
        (uniform 0xFFFFFFFF : HostState Unit) := by decide
    rw [run.unique _ (adc.finishes .idle executed), StoresFlags] at stored
    revert stored
    decide
  · rintro ⟨after, run, stored⟩
    have executed : Executed .idle (flagsOne .hi .sbcI) ⟨2, 0, false⟩ false
        (uniformFlags 1 0x100 : HostState Unit) := by decide
    rw [run.unique _ (sbc.finishes .idle executed), StoresFlags] at stored
    revert stored
    decide

end Compiler

end Ndse
