import Ndse.Compiler
import Ndse.DisassemblerPaths

/-!
# What earlier words leave in the code

One decoder serves a whole page, and `decode` clears the flags and the shift of
its context only.  Every path writes its instruction's operands, so that the
code of a word is its own, but for `TEQ` and `MSR` with an immediate: these read
the register of a word decoded earlier.
-/

namespace Ndse

/-- A choice of fields of a context. -/
structure Fields where
  imm : Bool
  rd : Bool
  rn : Bool
  rm : Bool
  rs : Bool
  addressingMode : Bool
  extendMode : Bool
  coproc : Bool

namespace Inst

/-- The fields that every path to an instruction writes, besides the condition,
the shift and the flags. -/
def written : Inst → Fields
  | ud | debug | unknown => ⟨false, false, false, false, false, false, false, false⟩
  | strI | ldrI | strIW | ldrIW | strbI | ldrbI | strbIW | ldrbIW
  | strIP | ldrIP | strIPW | ldrIPW | strbIP | ldrbIP | strbIPW | ldrbIPW
  | andI | eorI | subI | rsbI | addI | adcI | sbcI | rscI
  | tstI | teqI | cmpI | cmnI | orrI | movI | bicI | mvnI
  | msrCpsrI | msrSpsrI | pldI | pldR => ⟨true, true, true, false, false, false, false, false⟩
  | strR | ldrR | strRW | ldrRW | strbR | ldrbR | strbRW | ldrbRW
  | strRP | ldrRP | strRPW | ldrRPW | strbRP | ldrbRP | strbRPW | ldrbRPW
  | andR | eorR | subR | rsbR | addR | adcR | sbcR | rscR
  | tstR | teqR | cmpR | cmnR | orrR | movR | bicR | mvnR
  | msrCpsrR | msrSpsrR | mrsCpsr | mrsSpsr =>
      ⟨true, true, true, true, false, false, false, false⟩
  | andRR | eorRR | subRR | rsbRR | addRR | adcRR | sbcRR | rscRR
  | tstRR | teqRR | cmpRR | cmnRR | orrRR | movRR | bicRR | mvnRR
  | clz | bx | blx => ⟨false, true, true, true, true, false, false, false⟩
  | swi | b | bl => ⟨true, false, false, false, false, false, false, false⟩
  | mrc | mcr => ⟨false, true, true, true, false, false, false, true⟩
  | stm | ldm | stmW | ldmW => ⟨true, false, true, false, false, true, false, false⟩
  | strxI | ldrxI | strxIW | ldrxIW | strxIP | ldrxIP | strxIPW | ldrxIPW
  | strxR | ldrxR | strxRW | ldrxRW | strxRP | ldrxRP | strxRPW | ldrxRPW
  | swp | swpb | ldrdR | ldrdRW | ldrdRI | ldrdRIW | ldrdRP | ldrdRPW | ldrdRIP | ldrdRIPW =>
      ⟨true, true, true, true, false, false, true, false⟩
  | mulR | mlaR | umull | umlal | smull | smlal =>
      ⟨true, true, true, true, true, false, true, false⟩
  | bkpt | bpre | blxI => ⟨true, true, true, true, true, true, true, true⟩

/-- The code of these three reads `rm`, which their path does not write. -/
def readsStale : Inst → Bool
  | teqI | msrCpsrI | msrSpsrI => true
  | _ => false

end Inst

namespace Context

/-- A context without what its instruction has not written. -/
def own (ctx : Context) : Context :=
  let fields := ctx.instruction.written
  { ctx with
    imm := if fields.imm then ctx.imm else 0
    rd := if fields.rd then ctx.rd else 0
    rn := if fields.rn then ctx.rn else 0
    rm := if fields.rm then ctx.rm else 0
    rs := if fields.rs then ctx.rs else 0
    addressingMode := if fields.addressingMode then ctx.addressingMode else .da
    extendMode := if fields.extendMode then ctx.extendMode else .invalid
    cpNum := if fields.coproc then ctx.cpNum else 0
    cpOp1 := if fields.coproc then ctx.cpOp1 else 0
    cpOp2 := if fields.coproc then ctx.cpOp2 else 0 }

end Context

namespace Disassembler

/-- The same word with what another decoder has left in the other fields. -/
def withLeft (d : Disassembler) (left : Context) : Disassembler :=
  { d with
    instruction := left.instruction
    addressingMode := left.addressingMode
    extendMode := left.extendMode
    imm := left.imm
    rd := left.rd
    rn := left.rn
    rm := left.rm
    rs := left.rs
    cpNum := left.cpNum
    cpOp1 := left.cpOp1
    cpOp2 := left.cpOp2 }

variable (d : Disassembler) (left : Context)

theorem own_ite {condition : Prop} [Decidable condition] {one two one' two' : Disassembler}
    (yes : one.own = one'.own) (no : two.own = two'.own) :
    (if condition then one else two).own = (if condition then one' else two').own := by
  split
  · exact yes
  · exact no

theorem over_field (start len : Nat) : (d.withLeft left).field start len = d.field start len := rfl

theorem decodeInstructionNV_withLeft :
    (d.withLeft left).decodeInstructionNV.own = d.decodeInstructionNV.own :=
  own_ite (own_ite (own_ite rfl rfl) rfl) rfl

theorem decode001DataImm_withLeft :
    (d.withLeft left).decode001DataImm.own = d.decode001DataImm.own := by
  obtain ⟨⟨⟩⟩ := d
  simp only [decode001DataImm, decodeImmShifter, flagS, instConsuming, bit, field, decodeReg,
    withLeft]
  split
  case h_9 | h_11 => exact own_ite rfl rfl
  case h_10 | h_12 => exact own_ite rfl (own_ite rfl rfl)
  all_goals rfl

theorem decode010LoadstoreImm_withLeft :
    (d.withLeft left).decode010LoadstoreImm.own = d.decode010LoadstoreImm.own := by
  simp only [decode010LoadstoreImm, pbwl, decodeAddressingmode2, flagU, withLeft]
  split <;> rfl

theorem decodeRegisters_withLeft :
    (d.withLeft left).decodeRegisters = d.decodeRegisters.withLeft
      { left with
        rn := d.decodeRegisters.rn, rd := d.decodeRegisters.rd, rm := d.decodeRegisters.rm } :=
  rfl

theorem decodeShift_withLeft :
    (d.withLeft left).decodeShift =
      d.decodeShift.withLeft { left with imm := d.decodeShift.imm } := by
  by_cases zero : (d.field 7 5).setWidth 32 = 0#32 ∧ Shift.ofCode (d.field 5 2) ≠ .lsl
  · by_cases ror : Shift.ofCode (d.field 5 2) = .ror <;>
      simp only [field] at zero ror <;> simp [decodeShift, field, withLeft, zero, ror]
  · simp only [field] at zero
    simp only [decodeShift, field, withLeft, zero, if_false, BitVec.ofNat_eq_ofNat]

theorem decode100Loadstoremultiple_withLeft :
    (d.withLeft left).decode100Loadstoremultiple.own = d.decode100Loadstoremultiple.own := by
  simp only [decode100Loadstoremultiple, flagS, field, decodeReg, withLeft]
  split <;> rfl

theorem decode101Branch_withLeft : (d.withLeft left).decode101Branch.own = d.decode101Branch.own :=
  own_ite rfl rfl

theorem decode111_withLeft : (d.withLeft left).decode111.own = d.decode111.own :=
  own_ite rfl (own_ite (own_ite rfl rfl) rfl)

theorem decodeShift_registers :
    d.decodeShift.rn = d.rn ∧ d.decodeShift.rd = d.rd ∧ d.decodeShift.rm = d.rm := by
  rw [decodeShift]
  split
  · split <;> exact ⟨rfl, rfl, rfl⟩
  · exact ⟨rfl, rfl, rfl⟩

/-- A left over context with the registers and the immediate of a decoder. -/
def operandsOf (left : Context) (d : Disassembler) : Context :=
  { left with rn := d.rn, rd := d.rd, rm := d.rm, imm := d.imm }

theorem decodeShift_decodeRegisters_withLeft :
    (d.withLeft left).decodeRegisters.decodeShift =
      d.decodeRegisters.decodeShift.withLeft (operandsOf left d.decodeRegisters.decodeShift) := by
  have kept := d.decodeRegisters.decodeShift_registers
  rw [decodeRegisters_withLeft, decodeShift_withLeft, operandsOf, kept.1, kept.2.1, kept.2.2]

theorem decode011LoadstoreReg_withLeft :
    (d.withLeft left).decode011LoadstoreReg.own = d.decode011LoadstoreReg.own := by
  have start : (d.withLeft left).flagU.decodeRegisters.decodeShift =
      d.flagU.decodeRegisters.decodeShift.withLeft
        (operandsOf left d.flagU.decodeRegisters.decodeShift) :=
    decodeShift_decodeRegisters_withLeft d.flagU left
  simp only [decode011LoadstoreReg, start]
  generalize d.flagU.decodeRegisters.decodeShift = decoded
  refine own_ite rfl ?_
  simp only [pbwl, withLeft]
  split <;> rfl

/-- A left over context that agrees on the registers. -/
structure SameRegisters (left : Context) (d : Disassembler) : Prop where
  rn : left.rn = d.rn
  rd : left.rd = d.rd
  rm : left.rm = d.rm

theorem decodeMisc_withLeft {d : Disassembler} {left : Context} (same : SameRegisters left d)
    (rs : left.rs = d.rs) (imm : (d.field 4 3).toNat = 0 → left.imm = d.imm) :
    (d.withLeft left).decodeMisc.own = d.decodeMisc.own := by
  obtain ⟨rn, rd, rm⟩ := same
  obtain ⟨⟨⟩⟩ := d
  simp only [field] at imm rn rd rm rs
  simp only [decodeMisc, field, bit, withLeft, rn, rd, rm, rs]
  refine own_ite rfl ?_
  split
  · next code =>
    rw [imm code]
    refine own_ite rfl ?_
    split <;> exact own_ite rfl rfl
  · refine own_ite rfl ?_
    split
    · exact own_ite rfl rfl
    · rfl
    · rfl
  · exact own_ite rfl (own_ite rfl rfl)
  · exact own_ite rfl (own_ite rfl rfl)
  · rfl

theorem decode00000Mula_withLeft {d : Disassembler} {left : Context} (rm : left.rm = d.rm)
    (imm : left.imm = d.imm) (extendMode : left.extendMode = d.extendMode) :
    (d.withLeft left).decode00000Mula.own = d.decode00000Mula.own := by
  obtain ⟨⟨⟩⟩ := d
  simp only at rm imm extendMode
  simp only [decode00000Mula, flagS, field, bit, decodeReg, withLeft, rm, imm, extendMode]
  refine own_ite rfl ?_
  split
  · exact own_ite rfl rfl
  · exact own_ite rfl rfl
  · rfl
  · rfl

theorem decode00001Mulal_withLeft {d : Disassembler} {left : Context} (same : SameRegisters left d)
    (imm : left.imm = d.imm) (extendMode : left.extendMode = d.extendMode) :
    (d.withLeft left).decode00001Mulal.own = d.decode00001Mulal.own := by
  obtain ⟨rn, rd, rm⟩ := same
  obtain ⟨⟨⟩⟩ := d
  simp only at rn rd rm imm extendMode
  simp only [decode00001Mulal, flagS, field, bit, decodeReg, withLeft, rn, rd, rm, imm, extendMode]
  split <;> rfl

theorem decode000Mulswap_withLeft {d : Disassembler} {left : Context} (same : SameRegisters left d)
    (imm : left.imm = d.imm) (extendMode : left.extendMode = d.extendMode) :
    (d.withLeft left).decode000Mulswap.own = d.decode000Mulswap.own := by
  simp only [decode000Mulswap, over_field]
  split
  · exact decode00000Mula_withLeft same.rm imm extendMode
  · exact decode00001Mulal_withLeft same imm extendMode
  · obtain ⟨rn, rd, rm⟩ := same
    simp only [decode00010Swap, over_field]
    split
    · simp only [withLeft, inst, rn, rd, rm, imm, extendMode]
      rfl
    · simp only [withLeft, inst, rn, rd, rm, imm, extendMode]
      rfl
    · rfl
  · rfl

theorem instStrx_withLeft {d : Disassembler} {left : Context} (same : SameRegisters left d)
    (imm : left.imm = d.imm) (extendMode : left.extendMode = d.extendMode) :
    (d.withLeft left).instStrx.own = d.instStrx.own := by
  obtain ⟨rn, rd, rm⟩ := same
  obtain ⟨⟨⟩⟩ := d
  simp only at rn rd rm imm extendMode
  simp only [instStrx, pbwl, withLeft, rn, rd, rm, imm, extendMode]
  split <;> rfl

theorem instLdrd_withLeft {d : Disassembler} {left : Context} (same : SameRegisters left d)
    (imm : left.imm = d.imm) (extendMode : left.extendMode = d.extendMode) :
    (d.withLeft left).instLdrd.own = d.instLdrd.own := by
  obtain ⟨rn, rd, rm⟩ := same
  obtain ⟨⟨⟩⟩ := d
  simp only at rn rd rm imm extendMode
  simp only [instLdrd, withLeft, rn, rd, rm, imm, extendMode]
  split <;> rfl

theorem decode000MulExtraloadstore_withLeft {d : Disassembler} {left : Context}
    (same : SameRegisters left d) :
    (d.withLeft left).decode000MulExtraloadstore.own = d.decode000MulExtraloadstore.own := by
  let extra : Context :=
    { left with imm := d.decodeExtra.imm, extendMode := d.decodeExtra.extendMode }
  have start : (d.withLeft left).decodeExtra = d.decodeExtra.withLeft extra := by
    simp only [extra, decodeExtra, flagU, withLeft, field, bit, same.rm]
    rfl
  have kept : SameRegisters extra d.decodeExtra := ⟨same.rn, same.rd, same.rm⟩
  have mode : (d.decodeExtra.withLeft extra).extendMode = d.decodeExtra.extendMode := rfl
  have load : (d.decodeExtra.withLeft extra).bit 20 = d.decodeExtra.bit 20 := rfl
  have strx := instStrx_withLeft kept rfl rfl
  simp only [decode000MulExtraloadstore, start, mode, load]
  split
  · exact decode000Mulswap_withLeft kept rfl rfl
  · exact own_ite strx (instLdrd_withLeft kept rfl rfl)
  · exact strx

/-- The data processing of two kinds of shifts. -/
theorem inst_withLeft {d : Disassembler} {left : Context} (same : SameRegisters left d)
    {code : Inst}
    (written : code.written = ⟨true, true, true, true, false, false, false, false⟩ ∧
        left.imm = d.imm ∨
      code.written = ⟨false, true, true, true, true, false, false, false⟩ ∧ left.rs = d.rs) :
    ((d.withLeft left).inst code).own = (d.inst code).own := by
  obtain ⟨fields, value⟩ | ⟨fields, value⟩ := written <;>
    simp [Context.own, inst, withLeft, fields, same.rn, same.rd, same.rm, value]

theorem decode000Regs_withLeft {d : Disassembler} {left : Context} (same : SameRegisters left d)
    (four : d.bit 4 = true) : (d.withLeft left).decode000Regs.own = d.decode000Regs.own := by
  have start : ((d.withLeft left).flagS 20).decodeShiftReg = (d.flagS 20).decodeShiftReg.withLeft
      { left with rs := (d.flagS 20).decodeShiftReg.rs } := rfl
  have sbit : (d.withLeft left).bit 20 = d.bit 20 := rfl
  have lowest : (d.flagS 20).decodeShiftReg.bit 4 = true := four
  have kept : SameRegisters { left with rs := (d.flagS 20).decodeShiftReg.rs }
      (d.flagS 20).decodeShiftReg := ⟨same.rn, same.rd, same.rm⟩
  simp only [decode000Regs, start, sbit, over_field]
  generalize (d.flagS 20).decodeShiftReg = shifted at *
  have misc : (shifted.withLeft { left with rs := shifted.rs }).decodeMisc.own =
      shifted.decodeMisc.own := by
    refine decodeMisc_withLeft kept rfl ?_
    intro zero
    have bit : shifted.bit 4 = (shifted.field 4 3).getLsbD 0 := by
      simp [Disassembler.bit, field]
    rw [bit, BitVec.getLsbD, zero] at lowest
    simp at lowest
  have leaf {code : Inst}
      (written : code.written = ⟨false, true, true, true, true, false, false, false⟩) :
      ((shifted.withLeft { left with rs := shifted.rs }).inst code).own = (shifted.inst code).own :=
    inst_withLeft kept (.inr ⟨written, rfl⟩)
  refine own_ite (decode000MulExtraloadstore_withLeft same) ?_
  split
  case h_9 | h_10 | h_11 | h_12 =>
    refine own_ite ?_ misc
    apply leaf
    rfl
  case h_6 => exact @leaf .adcRR rfl
  case h_7 => exact @leaf .sbcRR rfl
  all_goals
    apply leaf
    rfl

theorem decode000Imms_withLeft {d : Disassembler} {left : Context} (same : SameRegisters left d) :
    (d.withLeft left).decode000Imms.own = d.decode000Imms.own := by
  have start : ((d.withLeft left).flagS 20).decodeShift = (d.flagS 20).decodeShift.withLeft
      { left with imm := (d.flagS 20).decodeShift.imm } := decodeShift_withLeft (d.flagS 20) left
  have sbit : (d.withLeft left).bit 20 = d.bit 20 := rfl
  have registers := (d.flagS 20).decodeShift_registers
  have kept : SameRegisters { left with imm := (d.flagS 20).decodeShift.imm }
      (d.flagS 20).decodeShift :=
    ⟨same.rn.trans registers.1.symm, same.rd.trans registers.2.1.symm,
      same.rm.trans registers.2.2.symm⟩
  simp only [decode000Imms, start, sbit, over_field]
  generalize (d.flagS 20).decodeShift = shifted at *
  have misc : (shifted.withLeft { left with imm := shifted.imm }).decodeMisc2.own =
      shifted.decodeMisc2.own :=
    @decodeMisc_withLeft { shifted with rs := shifted.decodeReg 8 }
      { left with imm := shifted.imm, rs := shifted.decodeReg 8 } ⟨kept.rn, kept.rd, kept.rm⟩ rfl
      (fun _ => rfl)
  have leaf {code : Inst}
      (written : code.written = ⟨true, true, true, true, false, false, false, false⟩) :
      ((shifted.withLeft { left with imm := shifted.imm }).inst code).own =
        (shifted.inst code).own :=
    inst_withLeft kept (.inl ⟨written, rfl⟩)
  split
  case h_9 | h_10 | h_11 | h_12 =>
    refine own_ite ?_ misc
    apply leaf
    rfl
  case h_6 => exact @leaf .adcR rfl
  case h_7 => exact @leaf .sbcR rfl
  all_goals
    apply leaf
    rfl

theorem decode000DataReg_withLeft :
    (d.withLeft left).decode000DataReg.own = d.decode000DataReg.own := by
  have same : SameRegisters
      { left with
        rn := d.decodeRegisters.rn, rd := d.decodeRegisters.rd, rm := d.decodeRegisters.rm }
      d.decodeRegisters := ⟨rfl, rfl, rfl⟩
  have four : (d.decodeRegisters.withLeft
      { left with
        rn := d.decodeRegisters.rn, rd := d.decodeRegisters.rd, rm := d.decodeRegisters.rm }).bit
      4 = d.decodeRegisters.bit 4 := rfl
  simp only [decode000DataReg, decodeRegisters_withLeft, four]
  by_cases register : d.decodeRegisters.bit 4 = true
  · rw [if_pos register, if_pos register]
    exact decode000Regs_withLeft same register
  · rw [if_neg register, if_neg register]
    exact decode000Imms_withLeft same

theorem decodeGroup_withLeft (group : BitVec 3) :
    ((d.withLeft left).decodeGroup group).own = (d.decodeGroup group).own := by
  simp only [decodeGroup]
  split
  · exact decode000DataReg_withLeft d left
  · exact decode001DataImm_withLeft d left
  · exact decode010LoadstoreImm_withLeft d left
  · exact decode011LoadstoreReg_withLeft d left
  · exact decode100Loadstoremultiple_withLeft d left
  · exact decode101Branch_withLeft d left
  · rfl
  · exact decode111_withLeft d left

/-- What a decoder held before shows only in what an instruction has not written. -/
theorem decode_own (one other : Disassembler) (op addr : BitVec 32) :
    (one.decode op addr).own = (other.decode op addr).own := by
  let started : Disassembler :=
    { other with
      op := op, sBit := false, uBit := false, sConsuming := false, addr := addr, shift := .lsl }
  have left : one.decode op addr =
      (started.decodeCondition.withLeft one.toContext).decodeInstruction := rfl
  have right : other.decode op addr = started.decodeCondition.decodeInstruction := rfl
  rw [left, right]
  exact own_ite (decodeInstructionNV_withLeft _ _) (decodeGroup_withLeft _ _ _)

/-! ### Instructions that read more -/

/-- The words whose code reads the register that another word has left: `TEQ`
and the two forms of `MSR` with an immediate, as the decoder knows them. -/
def ReadsLeftover (word : BitVec 32) : Prop :=
  word.extractLsb' 28 4 ≠ 0b1111#4 ∧ word.extractLsb' 25 3 = 0b001#3 ∧
    (word.extractLsb' 21 4 = 0b1001#4 ∧
        (word.getLsbD 20 = true ∨ word.extractLsb' 12 4 = 0b1111#4) ∨
      word.extractLsb' 21 4 = 0b1011#4 ∧ word.getLsbD 20 = false ∧
        word.extractLsb' 12 4 = 0b0000#4)

theorem readsStale_ite {condition : Prop} [Decidable condition] {one two : Disassembler}
    (yes : one.instruction.readsStale = false) (no : two.instruction.readsStale = false) :
    (if condition then one else two).instruction.readsStale = false :=
  of_ite (fun d => d.instruction.readsStale) yes no

theorem path_of_readsStale {kind : Inst} (reads : kind.readsStale = true) :
    kind.path = some .dataImm := by
  simp only [Inst.readsStale] at reads
  split at reads
  · rfl
  · rfl
  · rfl
  · cases reads

theorem readsStale_decode001DataImm (d : Disassembler) :
    d.decode001DataImm.instruction.readsStale = true ↔
      d.field 21 4 = 0b1001#4 ∧ (d.bit 20 = true ∨ d.field 12 4 = 0b1111#4) ∨
        d.field 21 4 = 0b1011#4 ∧ d.bit 20 = false ∧ d.field 12 4 = 0b0000#4 := by
  by_cases teq : d.field 21 4 = 0b1001#4
  · rw [decode001DataImm_teq teq, teq]
    cases d.bit 20 <;> by_cases ones : d.field 12 4 = 0b1111#4 <;> simp [ones, Inst.readsStale]
  by_cases cmn : d.field 21 4 = 0b1011#4
  · rw [decode001DataImm_cmn cmn, cmn]
    cases d.bit 20 <;> by_cases zeros : d.field 12 4 = 0b0000#4 <;> simp [zeros, Inst.readsStale]
  have others : d.decode001DataImm.instruction.readsStale = false := by
    simp only [decode001DataImm]
    split
    case h_9 | h_11 => exact readsStale_ite rfl rfl
    case h_10 code => exact absurd (BitVec.eq_of_toNat_eq code) teq
    case h_12 code => exact absurd (BitVec.eq_of_toNat_eq code) cmn
    all_goals rfl
  simp [others, teq, cmn]

theorem decode001DataImm_rm (d : Disassembler) : d.decode001DataImm.rm = d.rm := by
  obtain ⟨⟨⟩⟩ := d
  simp only [decode001DataImm, decodeImmShifter, flagS, instConsuming, instUd, instUnknown, inst,
    bit, field, decodeReg]
  split
  case h_9 | h_11 => exact of_ite (·.rm) rfl rfl
  case h_10 | h_12 => exact of_ite (·.rm) rfl (of_ite (·.rm) rfl rfl)
  all_goals rfl

theorem readsStale_decode (d : Disassembler) (word addr : BitVec 32) :
    (d.decode word addr).instruction.readsStale = true ↔ ReadsLeftover word := by
  have row := readsStale_decode001DataImm
    (started d (.ofCode (word.extractLsb' 28 4)) word addr)
  constructor
  · intro reads
    have written := path_of_readsStale reads
    obtain ⟨valid, group⟩ := group_of_path written rfl
    rw [decode_group d valid addr, group] at reads
    exact ⟨valid, group, row.mp reads⟩
  · rintro ⟨valid, group, fields⟩
    rw [decode_group d valid addr, group]
    exact row.mpr fields

/-- These words leave that register as they find it. -/
theorem decode_rm (d : Disassembler) {word : BitVec 32} (reads : ReadsLeftover word)
    (addr : BitVec 32) : (d.decode word addr).rm = d.rm := by
  obtain ⟨valid, group, -⟩ := reads
  rw [decode_group d valid addr, group]
  exact decode001DataImm_rm _

/-- What decoding some words leaves in a decoder. -/
def decodeWords (d : Disassembler) (words : List (BitVec 32)) : Disassembler :=
  words.foldl (fun d op => d.decode op 0) d

end Disassembler

namespace Compiler

/-- Code is made from what the instruction has written. -/
theorem compileInstruction_own (ctx : Context) (reads : ctx.instruction.readsStale = false)
    (emitter : Emitter) (flagsUpdated : Bool) :
    compileInstruction ctx.own emitter flagsUpdated =
      compileInstruction ctx emitter flagsUpdated := by
  obtain ⟨instruction, cond, shift, addressingMode, extendMode, sBit, uBit, imm, rd, rn, rm, rs,
    cpNum, cpOp1, cpOp2⟩ := ctx
  cases instruction
  case teqI => simp [Inst.readsStale] at reads
  case msrCpsrI => simp [Inst.readsStale] at reads
  case msrSpsrI => simp [Inst.readsStale] at reads
  all_goals rfl

theorem instruction_of_own {one other : Context} (same : one.own = other.own) :
    one.instruction = other.instruction := by
  injection same

theorem cond_of_own {one other : Context} (same : one.own = other.own) :
    one.cond = other.cond := by
  injection same

theorem length_preamble {one other : Context} (cond : one.cond = other.cond) (emitter : Emitter)
    (flagsUpdated : Bool) (skipped skipped' : Nat) :
    (preamble one emitter flagsUpdated skipped).length =
      (preamble other emitter flagsUpdated skipped').length := by
  have tested : conditional one = conditional other := by rw [conditional, conditional, cond]
  rw [preamble, preamble, tested, cond]
  cases conditional other
  · rfl
  · simp only [if_true, List.length_cons, List.length_append]

theorem msrCode_rm {one other : Context} {spsr : Bool} {load : Operand → HostInstr}
    (rn : one.rn = other.rn) (equal : msrCode one spsr load = msrCode other spsr load)
    (pc : one.rm = 15) : other.rm = 15 := by
  by_contra plain
  have lengths := congrArg List.length equal
  simp only [msrCode, breakIfPc, pc, plain, rn, if_true, if_false, List.length_append] at lengths
  simp at lengths

theorem compileBody_rm {one other : Context} {emitter : Emitter} {held : Bool}
    (stale : one.instruction.readsStale = true) (same : one.own = other.own)
    (equal : (compileBody one emitter held).code = (compileBody other emitter held).code)
    (pc : one.rm = 15) : other.rm = 15 := by
  have instruction : one.instruction = other.instruction := instruction_of_own same
  have imm := congrArg Context.imm same
  have rn := congrArg Context.rn same
  simp only [Context.own] at imm rn
  cases kind : one.instruction <;> simp only [kind, Inst.readsStale, Bool.false_eq_true] at stale
  case teqI =>
    have kind' := instruction.symm.trans kind
    simp only [kind, kind', Inst.written, if_true] at imm rn
    simp only [compileBody, kind, kind', flagging, if_true, imm, rn, List.append_assoc] at equal
    have rest : one.rm = other.rm := by simpa using List.append_cancel_left equal
    rw [← rest, pc]
  case msrCpsrI =>
    have kind' := instruction.symm.trans kind
    simp only [kind, kind', Inst.written, if_true] at imm rn
    simp only [compileBody, kind, kind', plain, imm] at equal
    exact msrCode_rm rn equal pc
  case msrSpsrI =>
    have kind' := instruction.symm.trans kind
    simp only [kind, kind', Inst.written, if_true] at imm rn
    simp only [compileBody, kind, kind', plain, imm] at equal
    exact msrCode_rm rn equal pc

theorem compileInstruction_rm {one other : Context} {emitter : Emitter} {flagsUpdated : Bool}
    (stale : one.instruction.readsStale = true) (same : one.own = other.own)
    (equal : (compileInstruction one emitter flagsUpdated).code =
      (compileInstruction other emitter flagsUpdated).code)
    (pc : one.rm = 15) : other.rm = 15 := by
  have cond := cond_of_own same
  have bodies := List.append_inj_right equal (length_preamble cond ..)
  have held : conditional one = conditional other := by rw [conditional, conditional, cond]
  rw [held] at bodies
  exact compileBody_rm stale same bodies pc

end Compiler

open Disassembler Compiler

/-- The code of a word is the same after any other words exactly if it is none
of those that read a register left over. -/
theorem code_after_words_iff (word : BitVec 32) (emitter : Emitter) (flagsUpdated : Bool) :
    (∀ (start : Disassembler) (words words' : List (BitVec 32)),
        (compileInstruction ((start.decodeWords words).decode word 0).toContext emitter
            flagsUpdated).code =
          (compileInstruction ((start.decodeWords words').decode word 0).toContext emitter
            flagsUpdated).code) ↔
      ¬ReadsLeftover word := by
  constructor
  · intro equal reads
    have pc : ((blank.decodeWords [0xE1A0000F#32]).decode word 0).rm = 15 :=
      decode_rm _ reads 0
    have zero : ((blank.decodeWords [0xE1A00000#32]).decode word 0).rm = 0 :=
      decode_rm _ reads 0
    have stale := (readsStale_decode (blank.decodeWords [0xE1A0000F#32]) word 0).2 reads
    have same := compileInstruction_rm stale (decode_own _ _ word 0)
      (equal blank [0xE1A0000F#32] [0xE1A00000#32]) pc
    rw [zero] at same
    contradiction
  · intro own start words words'
    have one := mt (readsStale_decode (start.decodeWords words) word 0).1 own
    have other := mt (readsStale_decode (start.decodeWords words') word 0).1 own
    rw [Bool.not_eq_true] at one other
    rw [← compileInstruction_own _ one, ← compileInstruction_own _ other, decode_own]

/-- `TEQ r0, #1` after `MOV r0, pc` and after `MOV r0, r0`. -/
theorem teq_code_after_words :
    (compileInstruction ((blank.decodeWords [0xE1A0000F#32]).decode 0xE3300001#32 0).toContext
        ⟨2, 0, false⟩ false).code ≠
      (compileInstruction ((blank.decodeWords [0xE1A00000#32]).decode 0xE3300001#32 0).toContext
        ⟨2, 0, false⟩ false).code := by
  intro equal
  have stale : ((blank.decodeWords [0xE1A0000F#32]).decode 0xE3300001#32
      0).instruction.readsStale = true := by decide
  have same := compileInstruction_rm stale (decode_own _ _ 0xE3300001#32 0) equal (by decide)
  exact absurd same (by decide)

end Ndse
