import Ndse.DisassemblerArm
import Ndse.ArmEncoding
import Ndse.Library.BitFields

/-!
# Decoding undoes the encoding

Each group of the decoder is described on any word by the fields it tests; the
words of the encoding then have these fields.
-/

namespace Ndse

open BitVec (ofBool)
open BitFields ArmInstruction

namespace Disassembler

/-! ### Masks and shifts of the source -/

section Masks

variable (op : BitVec 32)

theorem pbwl_eq : (op >>> 20) &&& 0x17 =
    (ofBool (op.getLsbD 24) ++ 0#1 ++ ofBool (op.getLsbD 22) ++ ofBool (op.getLsbD 21) ++
      ofBool (op.getLsbD 20)).setWidth 32 := by
  apply BitVec.eq_of_getLsbD_eq
  intro index inside
  match index with
  | 0 | 1 | 2 | 3 | 4 =>
      rw [BitVec.getLsbD_and, BitVec.getLsbD_ushiftRight, BitVec.getLsbD_setWidth]
      simp (disch := decide) only [getLsbD_append_high, getLsbD_append_low, Nat.reduceSub,
        BitVec.getLsbD_ofBool]
      simp
  | rest + 5 =>
      have small : 23 < 2 ^ (rest + 5) :=
        lt_of_lt_of_le (by decide : 23 < 2 ^ 5) (Nat.pow_le_pow_right (by decide) (by omega))
      have beyond : (0x17 : BitVec 32).getLsbD (rest + 5) = false := by
        rw [BitVec.ofNat_eq_ofNat, BitVec.getLsbD_ofNat, Nat.testBit_lt_two_pow small,
          Bool.and_false]
      rw [BitVec.getLsbD_and, beyond, Bool.and_false, BitVec.getLsbD_setWidth,
        BitVec.getLsbD_of_ge _ _ (by omega), Bool.and_false]

theorem immShifter_eq :
    (op &&& 0xFF).rotateRight ((op >>> 7) &&& 0x1E).toNat =
      rotated (op.extractLsb' 8 4) (op.extractLsb' 0 8) := by
  have low : op &&& (0xFF : BitVec 32) = (op.extractLsb' 0 8).setWidth 32 := and_ones op 8
  have mask : (op >>> 7) &&& (0x1E : BitVec 32) =
      ((op >>> 7).extractLsb' 1 4).setWidth 32 <<< 1 := and_mask (op >>> 7) 1 4
  have twice : ((op >>> 7) &&& (0x1E : BitVec 32)).toNat = 2 * (op.extractLsb' 8 4).toNat := by
    rw [mask]
    simp only [BitVec.toNat_shiftLeft, BitVec.toNat_setWidth, BitVec.extractLsb'_toNat,
      BitVec.toNat_ushiftRight, Nat.shiftRight_eq_div_pow, Nat.shiftLeft_eq]
    omega
  rw [rotated, low, twice]

theorem extraImm_eq :
    ((op &&& 0xF00) >>> 4) ||| BitVec.ofNat 32 (op.extractLsb' 0 4).toFin.val =
      (op.extractLsb' 8 4 ++ op.extractLsb' 0 4).setWidth 32 := by
  have mask : op &&& (0xF00 : BitVec 32) = (op.extractLsb' 8 4).setWidth 32 <<< 8 :=
    and_mask op 8 4
  have low : BitVec.ofNat 32 (op.extractLsb' 0 4).toFin.val =
      (op.extractLsb' 0 4).setWidth 32 := by
    simp only [BitVec.val_toFin, BitVec.ofNat_toNat]
  rw [mask, low]
  apply BitVec.eq_of_getLsbD_eq
  intro index inside
  simp only [BitVec.getLsbD_or, BitVec.getLsbD_ushiftRight, BitVec.getLsbD_setWidth,
    BitVec.getLsbD_shiftLeft, BitVec.getLsbD_append, BitVec.getLsbD_extractLsb']
  by_cases inLow : index < 4
  · simp [inLow, inside, show 4 + index < 8 by omega]
  · have shifted : 4 + index - 8 = index - 4 := by omega
    by_cases inHigh : index < 8
    · simp [inLow, inside, show ¬ 4 + index < 8 by omega, show 4 + index < 32 by omega, shifted,
        show index - 4 < 32 by omega]
    · simp [inLow, show ¬ index - 4 < 4 by omega, shifted]

theorem simm24_eq :
    ((op &&& 0x00FFFFFF) <<< 8).sshiftRight 6 = (op.extractLsb' 0 24 ++ 0#2).signExtend 32 := by
  have mask : op &&& (0x00FFFFFF : BitVec 32) = (op.extractLsb' 0 24).setWidth 32 :=
    and_ones op 24
  rw [mask]
  apply BitVec.eq_of_getLsbD_eq
  intro index inside
  simp only [BitVec.getLsbD_sshiftRight, BitVec.getLsbD_signExtend, BitVec.msb_eq_getLsbD_last,
    BitVec.getLsbD_append, BitVec.getLsbD_shiftLeft, BitVec.getLsbD_setWidth,
    BitVec.getLsbD_extractLsb']
  by_cases inZeros : index < 2
  · simp [inZeros, show index < 26 by omega, show 6 + index < 8 by omega, inside,
      show 6 + index < 32 by omega, not_le.mpr inside]
  · by_cases inOffset : index < 26
    · have shifted : 6 + index - 8 = index - 2 := by omega
      simp [inZeros, inOffset, inside, show ¬ 6 + index < 8 by omega,
        show 6 + index < 32 by omega, show index - 2 < 24 by omega,
        show index - 2 < 32 by omega, not_le.mpr inside, shifted]
    · simp [inOffset, inside, show ¬ 6 + index < 32 by omega, not_le.mpr inside]

end Masks

/-! ### The groups -/

/-- The state in which a group is decoded. -/
def started (prior : Disassembler) (cond : Condition) (op addr : BitVec 32) : Disassembler :=
  { prior with
    op := op, sBit := false, uBit := false, sConsuming := false, addr := addr, shift := .lsl
    cond := cond }

theorem ofCode_condition (cond : Condition) : Condition.ofCode cond.code = cond := by
  cases cond <;> rfl

/-- The word of an instruction is decoded in its group. -/
theorem decode_encode (prior : Disassembler) {cond : Condition} (valid : cond ≠ .nv)
    (form : ArmInstruction) (addr : BitVec 32) :
    prior.decode (form.encode cond) addr =
      (prior.started cond (form.encode cond) addr).decodeGroup form.group := by
  have begun : prior.decode (form.encode cond) addr =
      (prior.started cond (form.encode cond) addr).decodeInstruction := by
    simp only [decode, decodeCondition, field, condition_encode, ofCode_condition, started]
  have group : (prior.started cond (form.encode cond) addr).field 25 3 = form.group :=
    group_encode cond form
  rw [begun, decodeInstruction, if_neg (by exact valid), group]

/-! ### Data processing -/

theorem decodeImmShifter_eq (d : Disassembler) :
    d.decodeImmShifter = { d with imm := rotated (d.field 8 4) (d.field 0 8) } := by
  rw [decodeImmShifter, field, field, ← immShifter_eq]

theorem ofCode_extra (kind : ExtraKind) : ExtendMode.ofCode kind.code = kind.extendMode := by
  cases kind <;> rfl

theorem ofCode_kind (kind : ShiftKind) : Shift.ofCode kind.code = kind.shift := by
  cases kind <;> rfl

theorem decodeShift_eq (d : Disassembler) (kind : ShiftKind) (code : d.field 5 2 = kind.code) :
    d.decodeShift =
      { d with
        shift := (kind.meaning (d.field 7 5)).1
        imm := (kind.meaning (d.field 7 5)).2 } := by
  rw [decodeShift, code, ofCode_kind]
  have zero : (d.field 7 5).setWidth 32 = 0#32 ↔ d.field 7 5 = 0#5 := by
    rw [← BitVec.toNat_inj, ← BitVec.toNat_inj, BitVec.toNat_setWidth]
    have := (d.field 7 5).isLt
    simp only [BitVec.toNat_ofNat]
    omega
  cases kind <;> by_cases none : d.field 7 5 = 0#5 <;>
    simp [ShiftKind.shift, ShiftKind.meaning, zero, none]

section DataProcessing

variable (d : Disassembler) {op : DataOp} {s : Bool}

theorem decode001DataImm_data (code : d.field 21 4 = op.code) (sBit : d.bit 20 = s)
    (test : op.writes = false → s = true) :
    d.decode001DataImm.toContext =
      { d.toContext with
        instruction := op.instI, rn := d.decodeReg 16, rd := d.decodeReg 12
        imm := rotated (d.field 8 4) (d.field 0 8), sBit := d.sBit || s } := by
  simp only [field] at code
  simp only [bit] at sBit
  cases op <;> simp only [DataOp.code, DataOp.writes] at code test <;>
    simp only [decode001DataImm, decodeImmShifter_eq, field, bit, decodeReg, inst,
      instConsuming, flagS, code, sBit, DataOp.instI, test, BitVec.ofNat_eq_ofNat,
      BitVec.toNat_ofNat, Nat.reducePow, Nat.reduceMod, if_true]

theorem decode000Imms_data {kind : ShiftKind} (code : d.field 21 4 = op.code)
    (sBit : d.bit 20 = s) (test : op.writes = false → s = true)
    (shift : d.field 5 2 = kind.code) :
    d.decode000Imms.toContext =
      { d.toContext with
        instruction := op.instR, shift := (kind.meaning (d.field 7 5)).1
        imm := (kind.meaning (d.field 7 5)).2, sBit := d.sBit || s } := by
  have shifted := decodeShift_eq (d.flagS 20) kind shift
  simp only [field] at code
  simp only [bit] at sBit
  rw [decode000Imms, shifted]
  cases op <;> simp only [DataOp.code, DataOp.writes] at code test <;>
    simp only [field, bit, inst, instConsuming, flagS, code, sBit, DataOp.instR, test,
      BitVec.ofNat_eq_ofNat, BitVec.toNat_ofNat, Nat.reducePow, Nat.reduceMod, if_true]

theorem decode000Regs_data {kind : ShiftKind} (plain : d.bit 7 = false)
    (code : d.field 21 4 = op.code) (sBit : d.bit 20 = s) (test : op.writes = false → s = true)
    (shift : d.field 5 2 = kind.code) :
    d.decode000Regs.toContext =
      { d.toContext with
        instruction := op.instRR, shift := kind.shift, rs := d.decodeReg 8
        sBit := d.sBit || s } := by
  simp only [field] at code shift
  simp only [bit] at sBit plain
  cases op <;> simp only [DataOp.code, DataOp.writes] at code test <;>
    simp only [decode000Regs, decodeShiftReg, field, bit, inst, instConsuming, flagS, plain, code,
      sBit, shift, ofCode_kind, decodeReg, DataOp.instRR, test, BitVec.ofNat_eq_ofNat,
      BitVec.toNat_ofNat, Nat.reducePow, Nat.reduceMod, if_true, Bool.false_eq_true, if_false]

/-- The status register writes with an immediate: the field of ones is checked
for ones in one of them and for zeros in the other. -/
theorem decode001DataImm_msr {spsr : Bool} (high : d.field 23 2 = 0b10)
    (b22 : d.bit 22 = spsr) (b21 : d.bit 21 = true) (sBit : d.bit 20 = false)
    (ones : d.field 12 4 = 0xF) :
    d.decode001DataImm.toContext =
      { d.toContext with
        instruction := if spsr then .unknown else .msrCpsrI, rn := d.decodeReg 16
        rd := d.decodeReg 12, imm := rotated (d.field 8 4) (d.field 0 8) } := by
  simp only [field] at high ones
  simp only [bit] at b22 b21 sBit
  have code := extractLsb'_four d.op 21
  rw [high, extractLsb'_two, b22, b21] at code
  cases spsr <;>
    simp [-BitVec.getLsbD_eq_getElem, decode001DataImm, decodeImmShifter_eq, field, bit, flagS,
      code, sBit, decodeReg, ones, inst, instUnknown]

end DataProcessing

/-! ### The miscellaneous instructions -/

section Misc

variable (d : Disassembler)

theorem field_two (start : Nat) :
    d.field start 2 = ofBool (d.bit (start + 1)) ++ ofBool (d.bit start) :=
  extractLsb'_two d.op start

/-- The state in which `decode_000_imms` comes to the miscellaneous ones. -/
def miscImms : Disassembler :=
  { d with shift := .lsl, imm := (d.field 7 5).setWidth 32, rs := d.decodeReg 8 }

/-- The state in which `decode_000_regs` comes to the miscellaneous ones. -/
def miscRegs : Disassembler := { d with shift := .ofCode (d.field 5 2), rs := d.decodeReg 8 }

/-- The comparisons without their `S` bit. -/
theorem decode000Imms_misc (high : d.field 23 2 = 0b10) (sBit : d.bit 20 = false)
    (unshifted : d.field 5 2 = 0) :
    d.decode000Imms = d.miscImms.decodeMisc := by
  have shifted := decodeShift_eq (d.flagS 20) .lsl unshifted
  simp only [field] at high
  simp only [bit] at sBit
  have code := extractLsb'_four d.op 21
  rw [high, extractLsb'_two] at code
  rw [decode000Imms, shifted]
  cases b22 : d.op.getLsbD 22 <;> cases b21 : d.op.getLsbD 21 <;>
    simp only [b22, b21] at code <;>
    simp [-BitVec.getLsbD_eq_getElem, miscImms, field, bit, flagS, code, sBit, decodeMisc2,
      decodeReg, ShiftKind.meaning]

theorem decode000Regs_misc (plain : d.bit 7 = false) (high : d.field 23 2 = 0b10)
    (sBit : d.bit 20 = false) :
    d.decode000Regs = d.miscRegs.decodeMisc := by
  simp only [field] at high
  simp only [bit] at sBit plain
  have code := extractLsb'_four d.op 21
  rw [high, extractLsb'_two] at code
  cases b22 : d.op.getLsbD 22 <;> cases b21 : d.op.getLsbD 21 <;>
    simp only [b22, b21] at code <;>
    simp [-BitVec.getLsbD_eq_getElem, miscRegs, decode000Regs, field, bit, flagS, code, sBit,
      plain, decodeShiftReg, decodeReg]

theorem decodeMisc_mrs {spsr : Bool} (plain : d.bit 7 = false) (row : d.field 4 3 = 0)
    (b22 : d.bit 22 = spsr) (b21 : d.bit 21 = false) (zeros : d.rs = 0) (ones : d.rn = 0xF) :
    d.decodeMisc = d.inst (if spsr then .mrsSpsr else .mrsCpsr) := by
  have subOp := field_two d 21
  rw [b22, b21] at subOp
  cases spsr <;> simp [decodeMisc, plain, row, zeros, ones, subOp]

theorem decodeMisc_msr {spsr : Bool} (plain : d.bit 7 = false) (row : d.field 4 3 = 0)
    (b22 : d.bit 22 = spsr) (b21 : d.bit 21 = true) (zeros : d.rs = 0) (ones : d.rd = 0xF) :
    d.decodeMisc = d.inst (if spsr then .msrSpsrR else .msrCpsrR) := by
  have subOp := field_two d 21
  rw [b22, b21] at subOp
  cases spsr <;> simp [decodeMisc, plain, row, zeros, ones, subOp]

theorem decodeMisc_bx (plain : d.bit 7 = false) (row : d.field 4 3 = 1)
    (subOp : d.field 21 2 = 1) (rn : d.rn = 0xF) (rd : d.rd = 0xF) (rs : d.rs = 0xF) :
    d.decodeMisc = d.inst .bx := by
  simp [decodeMisc, plain, row, subOp, rn, rd, rs]

theorem decodeMisc_blx (plain : d.bit 7 = false) (row : d.field 4 3 = 3)
    (subOp : d.field 21 2 = 1) (rn : d.rn = 0xF) (rd : d.rd = 0xF) (rs : d.rs = 0xF) :
    d.decodeMisc = d.inst .blx := by
  simp [decodeMisc, plain, row, subOp, rn, rd, rs]

theorem decodeMisc_clz (plain : d.bit 7 = false) (row : d.field 4 3 = 1)
    (subOp : d.field 21 2 = 3) (rn : d.rn = 0xF) (rs : d.rs = 0xF) :
    d.decodeMisc = d.inst .clz := by
  simp [decodeMisc, plain, row, subOp, rn, rs]

end Misc

/-! ### Multiplies and swaps -/

section Multiplies

variable (d : Disassembler) {s : Bool}

theorem decode000Mulswap_mul {accumulate : Bool} (high : d.field 23 2 = 0)
    (b22 : d.bit 22 = false) (b21 : d.bit 21 = accumulate) (b20 : d.bit 20 = s)
    (zeros : accumulate = false → d.decodeReg 12 = 0) :
    d.decode000Mulswap.toContext =
      { d.toContext with
        instruction := if accumulate then .mlaR else .mulR, rs := d.decodeReg 8
        rn := d.decodeReg 12, rd := d.decodeReg 16, sBit := d.sBit || s } := by
  simp only [bit] at b22 b21 b20
  simp only [field] at high
  have row := extractLsb'_two d.op 20
  rw [b21, b20] at row
  cases accumulate
  · have zero := zeros rfl
    cases s <;>
      simp_all [-BitVec.getLsbD_eq_getElem, decode000Mulswap, decode00000Mula, field, bit, flagS,
        inst, decodeReg]
  · cases s <;>
      simp_all [-BitVec.getLsbD_eq_getElem, decode000Mulswap, decode00000Mula, field, bit, flagS,
        inst, decodeReg]

theorem decode000Mulswap_mulLong {signed accumulate : Bool} (high : d.field 23 2 = 1)
    (b22 : d.bit 22 = signed) (b21 : d.bit 21 = accumulate) (b20 : d.bit 20 = s) :
    d.decode000Mulswap.toContext =
      { d.toContext with
        instruction := mulLongInst signed accumulate, rs := d.decodeReg 8
        sBit := d.sBit || s } := by
  simp only [bit] at b22 b21 b20
  simp only [field] at high
  have row := extractLsb'_two d.op 21
  rw [b22, b21] at row
  cases signed <;> cases accumulate <;>
    simp [-BitVec.getLsbD_eq_getElem, decode000Mulswap, decode00001Mulal, field, bit, flagS,
      inst, decodeReg, high, row, b20, mulLongInst]

theorem decode000Mulswap_swp {byte : Bool} (high : d.field 23 2 = 2) (b22 : d.bit 22 = byte)
    (b21 : d.bit 21 = false) (b20 : d.bit 20 = false) :
    d.decode000Mulswap = d.inst (if byte then .swpb else .swp) := by
  have row : d.field 20 3 = ofBool (d.bit 22) ++ d.field 20 2 := extractLsb'_three d.op 20
  rw [field_two, b22, b21, b20] at row
  cases byte <;> simp [decode000Mulswap, decode00010Swap, high, row]

end Multiplies

/-! ### Transfers -/

section Transfers

variable (d : Disassembler) {p byte w load : Bool}

theorem pbwl_bits (b24 : d.bit 24 = p) (b22 : d.bit 22 = byte) (b21 : d.bit 21 = w)
    (b20 : d.bit 20 = load) :
    d.pbwl = (ofBool p ++ 0#1 ++ ofBool byte ++ ofBool w ++ ofBool load).setWidth 32 := by
  simp only [bit] at b24 b22 b21 b20
  rw [pbwl, pbwl_eq, b24, b22, b21, b20]

/-- The small transfers; bit 22 is set for an immediate offset. -/
theorem instStrx_eq (b24 : d.bit 24 = p) (b22 : d.bit 22 = byte) (b21 : d.bit 21 = w)
    (b20 : d.bit 20 = load) :
    d.instStrx.toContext =
      { d.toContext with
        instruction := strxInst byte p w load
        imm := if byte then d.imm else 0, shift := if byte then d.shift else .lsl } := by
  rw [instStrx, pbwl_bits _ b24 b22 b21 b20]
  cases p <;> cases byte <;> cases w <;> cases load <;> rfl

theorem decode010LoadstoreImm_eq (b24 : d.bit 24 = p) (b22 : d.bit 22 = byte)
    (b21 : d.bit 21 = w) (b20 : d.bit 20 = load) :
    d.decode010LoadstoreImm.toContext =
      { d.decodeAddressingmode2.toContext with instruction := transferInstI p byte w load } := by
  have switch : d.decodeAddressingmode2.pbwl =
      (ofBool p ++ 0#1 ++ ofBool byte ++ ofBool w ++ ofBool load).setWidth 32 :=
    pbwl_bits _ b24 b22 b21 b20
  rw [decode010LoadstoreImm, switch]
  cases p <;> cases byte <;> cases w <;> cases load <;> rfl

theorem decode011LoadstoreReg_eq {kind : ShiftKind} (plain : d.bit 4 = false)
    (shift : d.field 5 2 = kind.code) (b24 : d.bit 24 = p) (b22 : d.bit 22 = byte)
    (b21 : d.bit 21 = w) (b20 : d.bit 20 = load) :
    d.decode011LoadstoreReg.toContext =
      { d.flagU.decodeRegisters.toContext with
        instruction := transferInstR p byte w load, shift := (kind.meaning (d.field 7 5)).1
        imm := (kind.meaning (d.field 7 5)).2 } := by
  have shifted := decodeShift_eq d.flagU.decodeRegisters kind shift
  have switch : d.flagU.decodeRegisters.decodeShift.pbwl =
      (ofBool p ++ 0#1 ++ ofBool byte ++ ofBool w ++ ofBool load).setWidth 32 := by
    rw [shifted]
    exact pbwl_bits _ b24 b22 b21 b20
  rw [decode011LoadstoreReg, if_neg (by simp [plain])]
  dsimp only
  rw [switch, shifted]
  cases p <;> cases byte <;> cases w <;> cases load <;> rfl

theorem decode100Loadstoremultiple_eq {s : Bool} (b22 : d.bit 22 = s) (b21 : d.bit 21 = w)
    (b20 : d.bit 20 = load) :
    d.decode100Loadstoremultiple.toContext =
      { d.toContext with
        instruction := multipleInst load w, rn := d.decodeReg 16
        imm := d.op &&& 0xFFFF, sBit := d.sBit || s
        addressingMode := .ofCode (d.field 23 2) } := by
  have row := field_two d 20
  rw [b21, b20] at row
  simp only [field] at row
  simp only [bit] at b22
  cases load <;> cases w <;>
    simp [-BitVec.getLsbD_eq_getElem, decode100Loadstoremultiple, flagS, field, bit, inst, row,
      b22, decodeReg, multipleInst]

end Transfers

/-! ### The ways through the first group -/

section DataRegister

variable (d : Disassembler)

theorem decode000DataReg_imms (b4 : d.bit 4 = false) :
    d.decode000DataReg = d.decodeRegisters.decode000Imms :=
  if_neg (by rw [show d.decodeRegisters.bit 4 = false from b4]; exact Bool.false_ne_true)

theorem decode000DataReg_regs (b4 : d.bit 4 = true) :
    d.decode000DataReg = d.decodeRegisters.decode000Regs :=
  if_pos b4

theorem decode000DataReg_extra (b4 : d.bit 4 = true) (b7 : d.bit 7 = true) :
    d.decode000DataReg = d.decodeRegisters.decode000MulExtraloadstore :=
  (decode000DataReg_regs d b4).trans (if_pos b7)

theorem decodeExtra_eq (rm : d.rm = d.decodeReg 0) :
    d.decodeExtra =
      { d.flagU with
        imm := if d.bit 23 then (d.field 8 4 ++ d.field 0 4).setWidth 32
          else -(d.field 8 4 ++ d.field 0 4).setWidth 32
        extendMode := .ofCode (d.field 5 2) } := by
  rw [decodeExtra, rm, decodeReg, field, field, extraImm_eq]
  rfl

theorem decode000MulExtraloadstore_mulswap (mode : d.field 5 2 = 0) :
    d.decode000MulExtraloadstore = d.decodeExtra.decode000Mulswap := by
  rw [decode000MulExtraloadstore]
  have extend : d.decodeExtra.extendMode = .invalid := by
    rw [decodeExtra, mode]
    rfl
  rw [extend]

theorem decode000MulExtraloadstore_strx {kind : ExtraKind} (mode : d.field 5 2 = kind.code)
    (b20 : d.bit 20 = kind.load) :
    d.decode000MulExtraloadstore = d.decodeExtra.instStrx := by
  rw [decode000MulExtraloadstore]
  have extend : d.decodeExtra.extendMode = kind.extendMode := by
    rw [decodeExtra, mode]
    cases kind <;> rfl
  have load : d.decodeExtra.bit 20 = kind.load := b20
  rw [extend]
  cases kind with
  | ldrsb => exact if_pos load
  | strh | ldrh | ldrsh => rfl

end DataRegister

/-! ### The words of the encoding -/

section Words

variable {prior : Disassembler} {cond : Condition} {addr word : BitVec 32}

theorem shown_dataImmediate {head : DataHead} {rotate : BitVec 4} {imm8 : BitVec 8}
    (placed : (dataImmediate head rotate imm8).Placed word) :
    ((dataImmediate head rotate imm8).fields addr).Shown cond
      (prior.started cond word addr).decode001DataImm.toContext := by
  obtain ⟨code, sBit, rn, rd, amount, value⟩ := placed
  rw [decode001DataImm_data (prior.started cond word addr) code sBit head.test_sets]
  constructor <;> simp [fields, started, decodeReg, field, rn, rd, amount, value]

theorem shown_dataShift {head : DataHead} {amount : BitVec 5} {kind : ShiftKind} {rm : BitVec 4}
    (placed : (dataShift head amount kind rm).Placed word) :
    ((dataShift head amount kind rm).fields addr).Shown cond
      (prior.started cond word addr).decode000DataReg.toContext := by
  obtain ⟨code, sBit, rn, rd, by_, shift, b4, reg⟩ := placed
  rw [decode000DataReg_imms (prior.started cond word addr) b4,
    decode000Imms_data (prior.started cond word addr).decodeRegisters code sBit head.test_sets
      shift]
  constructor <;>
    simp [fields, started, decodeRegisters, decodeReg, field, rn, rd, by_, reg]

theorem shown_dataRegisterShift {head : DataHead} {rs : BitVec 4} {kind : ShiftKind}
    {rm : BitVec 4} (placed : (dataRegisterShift head rs kind rm).Placed word) :
    ((dataRegisterShift head rs kind rm).fields addr).Shown cond
      (prior.started cond word addr).decode000DataReg.toContext := by
  obtain ⟨code, sBit, rn, rd, by_, b7, shift, b4, reg⟩ := placed
  rw [decode000DataReg_regs (prior.started cond word addr) b4,
    decode000Regs_data (prior.started cond word addr).decodeRegisters b7 code sBit
      head.test_sets shift]
  constructor <;>
    simp [fields, started, decodeRegisters, decodeReg, field, rn, rd, by_, reg]

theorem shown_mrs {spsr : Bool} {rd : BitVec 4} (placed : (mrs spsr rd).Placed word) :
    ((mrs spsr rd).fields addr).Shown cond
      (prior.started cond word addr).decode000DataReg.toContext := by
  obtain ⟨high, b22, b21, b20, ones, reg, zeros, b7, unshifted, b4, row⟩ := placed
  rw [decode000DataReg_imms (prior.started cond word addr) b4,
    decode000Imms_misc (prior.started cond word addr).decodeRegisters high b20 unshifted,
    decodeMisc_mrs (prior.started cond word addr).decodeRegisters.miscImms b7 row b22 b21
      (congrArg BitVec.toFin zeros) (congrArg BitVec.toFin ones)]
  constructor <;> simp [fields, inst, started, miscImms, decodeRegisters, decodeReg, field, reg]

theorem shown_msrRegister {spsr : Bool} {mask rm : BitVec 4}
    (placed : (msrRegister spsr mask rm).Placed word) :
    ((msrRegister spsr mask rm).fields addr).Shown cond
      (prior.started cond word addr).decode000DataReg.toContext := by
  obtain ⟨high, b22, b21, b20, rn, ones, zeros, b7, unshifted, b4, row, reg⟩ := placed
  rw [decode000DataReg_imms (prior.started cond word addr) b4,
    decode000Imms_misc (prior.started cond word addr).decodeRegisters high b20 unshifted,
    decodeMisc_msr (prior.started cond word addr).decodeRegisters.miscImms b7 row b22 b21
      (congrArg BitVec.toFin zeros) (congrArg BitVec.toFin ones)]
  constructor <;> simp [fields, inst, started, miscImms, decodeRegisters, decodeReg, field, rn, reg]

theorem shown_bx {rm : BitVec 4} (placed : (bx rm).Placed word) :
    ((bx rm).fields addr).Shown cond
      (prior.started cond word addr).decode000DataReg.toContext := by
  obtain ⟨high, b22, b21, b20, rn, rd, rs, b7, b4, row, reg⟩ := placed
  have subOp : (prior.started cond word addr).field 21 2 = 1 := by
    rw [field_two, show (prior.started cond word addr).bit (21 + 1) = false from b22,
      show (prior.started cond word addr).bit 21 = true from b21]
    rfl
  rw [decode000DataReg_regs (prior.started cond word addr) b4,
    decode000Regs_misc (prior.started cond word addr).decodeRegisters b7 high b20,
    decodeMisc_bx (prior.started cond word addr).decodeRegisters.miscRegs b7 row subOp
      (congrArg BitVec.toFin rn) (congrArg BitVec.toFin rd)
      (congrArg BitVec.toFin rs)]
  constructor <;> simp [fields, inst, started, miscRegs, decodeRegisters, decodeReg, field, reg]

theorem shown_blx {rm : BitVec 4} (placed : (blx rm).Placed word) :
    ((blx rm).fields addr).Shown cond
      (prior.started cond word addr).decode000DataReg.toContext := by
  obtain ⟨high, b22, b21, b20, rn, rd, rs, b7, b4, row, reg⟩ := placed
  have subOp : (prior.started cond word addr).field 21 2 = 1 := by
    rw [field_two, show (prior.started cond word addr).bit (21 + 1) = false from b22,
      show (prior.started cond word addr).bit 21 = true from b21]
    rfl
  rw [decode000DataReg_regs (prior.started cond word addr) b4,
    decode000Regs_misc (prior.started cond word addr).decodeRegisters b7 high b20,
    decodeMisc_blx (prior.started cond word addr).decodeRegisters.miscRegs b7 row subOp
      (congrArg BitVec.toFin rn) (congrArg BitVec.toFin rd)
      (congrArg BitVec.toFin rs)]
  constructor <;> simp [fields, inst, started, miscRegs, decodeRegisters, decodeReg, field, reg]

theorem shown_clz {rd rm : BitVec 4} (placed : (clz rd rm).Placed word) :
    ((clz rd rm).fields addr).Shown cond
      (prior.started cond word addr).decode000DataReg.toContext := by
  obtain ⟨high, b22, b21, b20, rn, dest, rs, b7, b4, row, reg⟩ := placed
  have subOp : (prior.started cond word addr).field 21 2 = 3 := by
    rw [field_two, show (prior.started cond word addr).bit (21 + 1) = true from b22,
      show (prior.started cond word addr).bit 21 = true from b21]
    rfl
  rw [decode000DataReg_regs (prior.started cond word addr) b4,
    decode000Regs_misc (prior.started cond word addr).decodeRegisters b7 high b20,
    decodeMisc_clz (prior.started cond word addr).decodeRegisters.miscRegs b7 row subOp
      (congrArg BitVec.toFin rn) (congrArg BitVec.toFin rs)]
  constructor <;>
    simp [fields, inst, started, miscRegs, decodeRegisters, decodeReg, field, dest, reg]

theorem shown_mul {s : Bool} {rd rs rm : BitVec 4} (placed : (mul s rd rs rm).Placed word) :
    ((mul s rd rs rm).fields addr).Shown cond
      (prior.started cond word addr).decode000DataReg.toContext := by
  obtain ⟨high, b22, b21, b20, dest, zeros, factor, b7, mode, b4, reg⟩ := placed
  rw [decode000DataReg_extra (prior.started cond word addr) b4 b7,
    decode000MulExtraloadstore_mulswap (prior.started cond word addr).decodeRegisters mode,
    decode000Mulswap_mul (prior.started cond word addr).decodeRegisters.decodeExtra high b22 b21 b20
      fun _ => congrArg BitVec.toFin zeros]
  constructor <;>
    simp [fields, started, decodeExtra, flagU, decodeRegisters, decodeReg, field, dest, factor, reg]

theorem shown_mla {s : Bool} {rd rn rs rm : BitVec 4}
    (placed : (mla s rd rn rs rm).Placed word) :
    ((mla s rd rn rs rm).fields addr).Shown cond
      (prior.started cond word addr).decode000DataReg.toContext := by
  obtain ⟨high, b22, b21, b20, dest, addend, factor, b7, mode, b4, reg⟩ := placed
  rw [decode000DataReg_extra (prior.started cond word addr) b4 b7,
    decode000MulExtraloadstore_mulswap (prior.started cond word addr).decodeRegisters mode,
    decode000Mulswap_mul (prior.started cond word addr).decodeRegisters.decodeExtra high b22 b21 b20
      fun no => absurd no (by decide)]
  constructor <;>
    simp [fields, started, decodeExtra, flagU, decodeRegisters, decodeReg, field, dest, addend,
      factor, reg]

theorem shown_mulLong {signed accumulate s : Bool} {rdHi rdLo rs rm : BitVec 4}
    (placed : (mulLong signed accumulate s rdHi rdLo rs rm).Placed word) :
    ((mulLong signed accumulate s rdHi rdLo rs rm).fields addr).Shown cond
      (prior.started cond word addr).decode000DataReg.toContext := by
  obtain ⟨high, b22, b21, b20, hi, lo, factor, b7, mode, b4, reg⟩ := placed
  rw [decode000DataReg_extra (prior.started cond word addr) b4 b7,
    decode000MulExtraloadstore_mulswap (prior.started cond word addr).decodeRegisters mode,
    decode000Mulswap_mulLong (prior.started cond word addr).decodeRegisters.decodeExtra high
      b22 b21 b20]
  constructor <;>
    simp [fields, started, decodeExtra, flagU, decodeRegisters, decodeReg, field, hi, lo, factor,
      reg]

theorem shown_swp {byte : Bool} {rn rd rm : BitVec 4} (placed : (swp byte rn rd rm).Placed word) :
    ((swp byte rn rd rm).fields addr).Shown cond
      (prior.started cond word addr).decode000DataReg.toContext := by
  obtain ⟨high, b22, b21, b20, base, dest, b7, mode, b4, reg⟩ := placed
  rw [decode000DataReg_extra (prior.started cond word addr) b4 b7,
    decode000MulExtraloadstore_mulswap (prior.started cond word addr).decodeRegisters mode,
    decode000Mulswap_swp (prior.started cond word addr).decodeRegisters.decodeExtra high
      b22 b21 b20]
  constructor <;>
    simp [fields, inst, started, decodeExtra, flagU, decodeRegisters, decodeReg, field, base, dest,
      reg]

theorem shown_extraImmediate {kind : ExtraKind} {head : TransferHead} {high low : BitVec 4}
    (placed : (extraImmediate kind head high low).Placed word) :
    ((extraImmediate kind head high low).fields addr).Shown cond
      (prior.started cond word addr).decode000DataReg.toContext := by
  obtain ⟨b24, b23, b22, b21, b20, rn, rd, hi, b7, mode, b4, lo⟩ := placed
  rw [decode000DataReg_extra (prior.started cond word addr) b4 b7,
    decode000MulExtraloadstore_strx (prior.started cond word addr).decodeRegisters mode b20,
    instStrx_eq (prior.started cond word addr).decodeRegisters.decodeExtra b24 b22 b21 b20]
  rw [decodeExtra_eq (prior.started cond word addr).decodeRegisters rfl]
  constructor <;>
    simp [-BitVec.getLsbD_eq_getElem, fields, started, flagU, decodeRegisters, decodeReg, field,
      bit, rn, rd, hi, lo, mode, b23, ofCode_extra, TransferHead.signed]

theorem shown_extraRegister {kind : ExtraKind} {head : TransferHead} {rm : BitVec 4}
    (placed : (extraRegister kind head rm).Placed word) :
    ((extraRegister kind head rm).fields addr).Shown cond
      (prior.started cond word addr).decode000DataReg.toContext := by
  obtain ⟨b24, b23, b22, b21, b20, rn, rd, b7, mode, b4, reg⟩ := placed
  rw [decode000DataReg_extra (prior.started cond word addr) b4 b7,
    decode000MulExtraloadstore_strx (prior.started cond word addr).decodeRegisters mode b20,
    instStrx_eq (prior.started cond word addr).decodeRegisters.decodeExtra b24 b22 b21 b20]
  rw [decodeExtra_eq (prior.started cond word addr).decodeRegisters rfl]
  constructor <;>
    simp [-BitVec.getLsbD_eq_getElem, fields, started, flagU, decodeRegisters, decodeReg, field,
      bit, rn, rd, reg, mode, b23, ofCode_extra]

theorem shown_transferImmediate {load byte : Bool} {head : TransferHead} {offset : BitVec 12}
    (placed : (transferImmediate load byte head offset).Placed word) :
    ((transferImmediate load byte head offset).fields addr).Shown cond
      (prior.started cond word addr).decode010LoadstoreImm.toContext := by
  obtain ⟨b24, b23, b22, b21, b20, rn, rd, imm⟩ := placed
  rw [decode010LoadstoreImm_eq (prior.started cond word addr) b24 b22 b21 b20]
  have low : word &&& 0xFFF#32 = (word.extractLsb' 0 12).setWidth 32 :=
    and_ones word 12
  constructor <;>
    simp [-BitVec.getLsbD_eq_getElem, fields, started, decodeAddressingmode2, flagU, decodeReg,
      field, bit, rn, rd, b23, low, imm, TransferHead.signed]

theorem shown_transferRegister {load byte : Bool} {head : TransferHead} {amount : BitVec 5}
    {kind : ShiftKind} {rm : BitVec 4}
    (placed : (transferRegister load byte head amount kind rm).Placed word) :
    ((transferRegister load byte head amount kind rm).fields addr).Shown cond
      (prior.started cond word addr).decode011LoadstoreReg.toContext := by
  obtain ⟨b24, b23, b22, b21, b20, rn, rd, by_, shift, b4, reg⟩ := placed
  rw [decode011LoadstoreReg_eq (prior.started cond word addr) b4 shift b24 b22 b21 b20]
  constructor <;>
    simp [-BitVec.getLsbD_eq_getElem, fields, started, flagU, decodeRegisters, decodeReg, field,
      bit, rn, rd, b23, by_, reg]

theorem shown_multiple {load w s : Bool} {mode : AddressingMode} {rn : BitVec 4}
    {registers : BitVec 16} (placed : (multiple load w s mode rn registers).Placed word) :
    ((multiple load w s mode rn registers).fields addr).Shown cond
      (prior.started cond word addr).decode100Loadstoremultiple.toContext := by
  obtain ⟨pu, b22, b21, b20, base, list⟩ := placed
  rw [decode100Loadstoremultiple_eq (prior.started cond word addr) b22 b21 b20]
  have low : word &&& 0xFFFF#32 = (word.extractLsb' 0 16).setWidth 32 :=
    and_ones word 16
  have kept : AddressingMode.ofCode mode.code = mode := by cases mode <;> rfl
  constructor <;> simp [fields, started, decodeReg, field, pu, kept, base, low, list]

theorem shown_branch {link : Bool} {offset : BitVec 24}
    (placed : (branch link offset).Placed word) :
    ((branch link offset).fields addr).Shown cond
      (prior.started cond word addr).decode101Branch.toContext := by
  obtain ⟨b24, imm⟩ := placed
  have target : (prior.started cond word addr).decodeSimm24 =
      { prior.started cond word addr with
        imm := addr + 8 + (offset ++ 0#2).signExtend 32 } := by
    rw [decodeSimm24]
    simp only [started, simm24_eq, imm]
    rw [add_assoc, add_comm]
  rw [decode101Branch, target]
  constructor <;> cases link <;>
    simp [-BitVec.getLsbD_eq_getElem, fields, started, bit, b24, inst]

theorem shown_swi {comment : BitVec 24} (placed : (swi comment).Placed word) :
    ((swi comment).fields addr).Shown cond
      (prior.started cond word addr).decode111.toContext := by
  obtain ⟨b24, imm⟩ := placed
  have low : word &&& 0xFFFFFF#32 = (word.extractLsb' 0 24).setWidth 32 :=
    and_ones word 24
  have software : (prior.started cond word addr).bit 24 = true := b24
  rw [decode111, if_pos software]
  constructor <;> simp [fields, started, decodeSwi, inst, low, imm]

theorem shown_coproc {load : Bool} {op1 : BitVec 3} {rn rd cpNum : BitVec 4} {op2 : BitVec 3}
    {rm : BitVec 4} (placed : (coproc load op1 rn rd cpNum op2 rm).Placed word) :
    ((coproc load op1 rn rd cpNum op2 rm).fields addr).Shown cond
      (prior.started cond word addr).decode111.toContext := by
  obtain ⟨b24, first, b20, base, dest, number, second, b4, reg⟩ := placed
  have transfer : (prior.started cond word addr).bit 24 = false := b24
  rw [decode111, if_neg (by simp [transfer])]
  constructor <;> cases load <;>
    simp [-BitVec.getLsbD_eq_getElem, fields, started, decodeCoproc, inst, decodeReg, field, bit,
      b4, b20, first, base, dest, number, second, reg]

/-- The write of `CPSR` is shown, the one of `SPSR` is not recognised. -/
theorem shown_msrImmediate_iff {spsr : Bool} {mask rotate : BitVec 4} {imm8 : BitVec 8}
    (placed : (msrImmediate spsr mask rotate imm8).Placed word) :
    ((msrImmediate spsr mask rotate imm8).fields addr).Shown cond
      (prior.started cond word addr).decode001DataImm.toContext ↔ spsr = false := by
  obtain ⟨high, b22, b21, b20, rn, ones, amount, value⟩ := placed
  rw [decode001DataImm_msr (prior.started cond word addr) high b22 b21 b20 ones]
  cases spsr with
  | false =>
      refine iff_of_true ?_ rfl
      constructor <;> simp [fields, started, decodeReg, field, rn, amount, value]
  | true => exact iff_of_false (fun shown => (nomatch shown.instruction)) (by decide)

end Words

/-! ### All instructions -/

end Disassembler

namespace ArmInstruction

/-- A context shows an instruction, which is one the decoder knows. -/
def DecodedBy (form : ArmInstruction) (cond : Condition) (addr : BitVec 32) (ctx : Context) :
    Prop :=
  (form.fields addr).Shown cond ctx ∧ ctx.instruction ≠ .ud ∧ ctx.instruction ≠ .unknown

/-- `MSR SPSR_<fields>, #<immediate>`. -/
def WritesSpsrImmediate : ArmInstruction → Bool
  | msrImmediate spsr .. => spsr
  | _ => false

theorem instruction_known (form : ArmInstruction) (addr : BitVec 32) :
    (form.fields addr).instruction ≠ .ud ∧ (form.fields addr).instruction ≠ .unknown := by
  cases form with
  | dataImmediate head | dataShift head | dataRegisterShift head =>
      obtain ⟨op, s, rn, rd, test⟩ := head
      cases op <;> exact ⟨nofun, nofun⟩
  | mrs spsr | msrRegister spsr | msrImmediate spsr | swp spsr | branch spsr | coproc spsr =>
      cases spsr <;> exact ⟨nofun, nofun⟩
  | mul | mla | bx | blx | clz | swi => exact ⟨nofun, nofun⟩
  | mulLong signed accumulate =>
      cases signed <;> cases accumulate <;> exact ⟨nofun, nofun⟩
  | extraImmediate kind head | extraRegister kind head =>
      obtain ⟨p, u, w, rn, rd⟩ := head
      cases kind <;> cases p <;> cases w <;> exact ⟨nofun, nofun⟩
  | transferImmediate load byte head | transferRegister load byte head =>
      obtain ⟨p, u, w, rn, rd⟩ := head
      cases load <;> cases byte <;> cases p <;> cases w <;> exact ⟨nofun, nofun⟩
  | multiple load w => cases load <;> cases w <;> exact ⟨nofun, nofun⟩

end ArmInstruction

namespace Disassembler

theorem shown_encode_iff (prior : Disassembler) {cond : Condition} (valid : cond ≠ .nv)
    (form : ArmInstruction) (addr : BitVec 32) :
    (form.fields addr).Shown cond (prior.decode (form.encode cond) addr).toContext ↔
      form.WritesSpsrImmediate = false := by
  rw [decode_encode prior valid]
  have placed := placed_encode cond form
  cases form with
  | msrImmediate => exact shown_msrImmediate_iff placed
  | dataImmediate => exact iff_of_true (shown_dataImmediate placed) rfl
  | dataShift => exact iff_of_true (shown_dataShift placed) rfl
  | dataRegisterShift => exact iff_of_true (shown_dataRegisterShift placed) rfl
  | mrs => exact iff_of_true (shown_mrs placed) rfl
  | msrRegister => exact iff_of_true (shown_msrRegister placed) rfl
  | mul => exact iff_of_true (shown_mul placed) rfl
  | mla => exact iff_of_true (shown_mla placed) rfl
  | mulLong => exact iff_of_true (shown_mulLong placed) rfl
  | swp => exact iff_of_true (shown_swp placed) rfl
  | bx => exact iff_of_true (shown_bx placed) rfl
  | blx => exact iff_of_true (shown_blx placed) rfl
  | clz => exact iff_of_true (shown_clz placed) rfl
  | extraImmediate => exact iff_of_true (shown_extraImmediate placed) rfl
  | extraRegister => exact iff_of_true (shown_extraRegister placed) rfl
  | transferImmediate => exact iff_of_true (shown_transferImmediate placed) rfl
  | transferRegister => exact iff_of_true (shown_transferRegister placed) rfl
  | multiple => exact iff_of_true (shown_multiple placed) rfl
  | branch => exact iff_of_true (shown_branch placed) rfl
  | swi => exact iff_of_true (shown_swi placed) rfl
  | coproc => exact iff_of_true (shown_coproc placed) rfl

/-- Decoding undoes the encoding except for the write of `SPSR` with an
immediate. -/
theorem decodedBy_encode_iff (prior : Disassembler) {cond : Condition} (valid : cond ≠ .nv)
    (form : ArmInstruction) (addr : BitVec 32) :
    form.DecodedBy cond addr (prior.decode (form.encode cond) addr).toContext ↔
      form.WritesSpsrImmediate = false := by
  rw [← shown_encode_iff prior valid form addr]
  constructor
  · exact fun decoded => decoded.1
  · intro shown
    refine ⟨shown, ?_, ?_⟩
    · rw [shown.instruction]
      exact (form.instruction_known addr).1
    · rw [shown.instruction]
      exact (form.instruction_known addr).2

/-- A decoder that has decoded nothing yet. -/
def blank : Disassembler where
  instruction := .ud
  cond := .eq
  shift := .lsl
  addressingMode := .da
  extendMode := .invalid
  sBit := false
  uBit := false
  imm := 0
  rd := 0
  rn := 0
  rm := 0
  rs := 0
  cpNum := 0
  cpOp1 := 0
  cpOp2 := 0
  op := 0
  addr := 0
  sConsuming := false

theorem decodedBy_encode_return :
    (bx 14).DecodedBy .al 0 (blank.decode ((bx 14).encode .al) 0).toContext ↔
      (bx 14).WritesSpsrImmediate = false :=
  decodedBy_encode_iff blank (by decide) (bx 14) 0

/-- `MSR SPSR_f, #0` is not recognised. -/
theorem not_decodedBy_spsrFlags :
    ¬ (msrImmediate true 8 0 0).DecodedBy .al 0
      (blank.decode ((msrImmediate true 8 0 0).encode .al) 0).toContext := by
  rintro ⟨_, _, known⟩
  exact known (by decide)

end Disassembler

end Ndse
