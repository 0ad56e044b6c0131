import Ndse.DisassemblerPaths

/-!
# Words with another condition

The decoder reads the condition of a word and the rest of it apart from each
other: with another condition a word is the same instruction, but for the
software breakpoint, which is undefined under a condition.
-/

namespace Ndse

open BitFields

namespace Inst

/-- The instructions with a condition: not the codes for words without an
instruction, those of THUMB, and the hint that takes the place of a condition. -/
def isConditional (kind : Inst) : Bool :=
  kind ∉ [ud, debug, unknown, bkpt, bpre, blxI, pldI, pldR]

end Inst

/-- A word with another condition. -/
def conditioned (code : BitVec 4) (word : BitVec 32) : BitVec 32 := code ++ word.setWidth 28

section Words

variable (code : BitVec 4) (word : BitVec 32)

theorem getLsbD_conditioned {index : Nat} (below : index < 28) :
    (conditioned code word).getLsbD index = word.getLsbD index := by
  rw [conditioned, getLsbD_append_low below, BitVec.getLsbD_setWidth, decide_eq_true below,
    Bool.true_and]

theorem extractLsb'_conditioned {start len : Nat} (inside : start + len ≤ 28) :
    (conditioned code word).extractLsb' start len = word.extractLsb' start len := by
  apply BitVec.eq_of_getLsbD_eq
  intro index below
  rw [BitVec.getLsbD_extractLsb', BitVec.getLsbD_extractLsb',
    getLsbD_conditioned code word (by omega)]

theorem shift_mask_conditioned {mask : BitVec 32} {shift : Nat}
    (small : mask.toNat < 2 ^ (28 - shift)) (within : shift ≤ 28) :
    (conditioned code word >>> shift) &&& mask = (word >>> shift) &&& mask := by
  apply BitVec.eq_of_getLsbD_eq
  intro index _
  rw [BitVec.getLsbD_and, BitVec.getLsbD_and, BitVec.getLsbD_ushiftRight,
    BitVec.getLsbD_ushiftRight]
  by_cases below : shift + index < 28
  · rw [getLsbD_conditioned code word below]
  · have beyond : mask.getLsbD index = false := by
      have large : mask.toNat < 2 ^ index :=
        small.trans_le (Nat.pow_le_pow_right (by decide) (by omega))
      rw [BitVec.getLsbD, Nat.testBit_lt_two_pow large]
    rw [beyond, Bool.and_false, Bool.and_false]

theorem mask_conditioned {mask : BitVec 32} (small : mask.toNat < 2 ^ 28) :
    conditioned code word &&& mask = word &&& mask :=
  @shift_mask_conditioned code word mask 0 small (by decide)

theorem condition_conditioned : (conditioned code word).extractLsb' 28 4 = code :=
  BitVec.extractLsb'_append_eq_left

theorem conditioned_self : conditioned (word.extractLsb' 28 4) word = word := by
  have low : word.setWidth 28 = word.extractLsb' 0 28 := BitVec.setWidth_eq_extractLsb' (by decide)
  have whole : word.extractLsb' 28 4 ++ word.extractLsb' 0 28 = word.extractLsb' 0 32 :=
    BitVec.extractLsb'_append_extractLsb'_eq_extractLsb' rfl
  rw [conditioned, low, whole]
  exact BitVec.extractLsb'_eq_self

end Words

namespace Disassembler

/-- The decoder in the middle of the word with another condition. -/
def withCondition (d : Disassembler) (code : BitVec 4) : Disassembler :=
  { d with cond := .ofCode code, op := conditioned code d.op }

section Functions

variable {code : BitVec 4}

theorem ite_withCondition {condition : Prop} [Decidable condition]
    {one two one' two' : Disassembler} (yes : one = one'.withCondition code)
    (no : two = two'.withCondition code) :
    (if condition then one else two) = (if condition then one' else two').withCondition code := by
  split
  · exact yes
  · exact no

variable (d : Disassembler) (code : BitVec 4)

theorem flagS_withCondition {n : Nat} (below : n < 28) :
    (d.withCondition code).flagS n = (d.flagS n).withCondition code := by
  simp only [flagS, bit, withCondition, getLsbD_conditioned _ _ below]

theorem decodeRegisters_withCondition :
    (d.withCondition code).decodeRegisters = d.decodeRegisters.withCondition code := by
  simp (disch := decide) only [decodeRegisters, decodeReg, field, withCondition,
    extractLsb'_conditioned]

theorem decodeShift_withCondition :
    (d.withCondition code).decodeShift = d.decodeShift.withCondition code := by
  simp (disch := decide) only [decodeShift, field, withCondition, extractLsb'_conditioned]
  exact ite_withCondition (ite_withCondition rfl rfl) rfl

theorem decodeShiftReg_withCondition :
    (d.withCondition code).decodeShiftReg = d.decodeShiftReg.withCondition code := by
  simp (disch := decide) only [decodeShiftReg, decodeReg, field, withCondition,
    extractLsb'_conditioned]

theorem decodeExtra_withCondition :
    (d.withCondition code).decodeExtra = d.decodeExtra.withCondition code := by
  simp (disch := decide) only [decodeExtra, flagU, bit, field, withCondition,
    getLsbD_conditioned, extractLsb'_conditioned, mask_conditioned]
  rfl

theorem decode00000Mula_withCondition :
    (d.withCondition code).decode00000Mula = d.decode00000Mula.withCondition code := by
  simp (disch := decide) only [decode00000Mula, flagS, bit, decodeReg, field, withCondition,
    getLsbD_conditioned, extractLsb'_conditioned]
  refine ite_withCondition rfl ?_
  split
  · exact ite_withCondition rfl rfl
  · exact ite_withCondition rfl rfl
  · rfl
  · rfl

theorem decode00001Mulal_withCondition :
    (d.withCondition code).decode00001Mulal = d.decode00001Mulal.withCondition code := by
  simp (disch := decide) only [decode00001Mulal, flagS, bit, decodeReg, field, withCondition,
    getLsbD_conditioned, extractLsb'_conditioned]
  split <;> rfl

theorem decode00010Swap_withCondition :
    (d.withCondition code).decode00010Swap = d.decode00010Swap.withCondition code := by
  simp (disch := decide) only [decode00010Swap, field, withCondition, extractLsb'_conditioned]
  split <;> rfl

theorem decode000Mulswap_withCondition :
    (d.withCondition code).decode000Mulswap = d.decode000Mulswap.withCondition code := by
  have row : (d.withCondition code).field 23 2 = d.field 23 2 :=
    extractLsb'_conditioned code d.op (by decide)
  simp only [decode000Mulswap, row]
  split
  · exact decode00000Mula_withCondition d code
  · exact decode00001Mulal_withCondition d code
  · exact decode00010Swap_withCondition d code
  · rfl

theorem instStrx_withCondition :
    (d.withCondition code).instStrx = d.instStrx.withCondition code := by
  simp (disch := decide) only [instStrx, pbwl, withCondition, shift_mask_conditioned]
  split <;> rfl

theorem instLdrd_withCondition :
    (d.withCondition code).instLdrd = d.instLdrd.withCondition code := by
  simp (disch := decide) only [instLdrd, withCondition, shift_mask_conditioned]
  split <;> rfl

theorem decode000MulExtraloadstore_withCondition :
    (d.withCondition code).decode000MulExtraloadstore =
      d.decode000MulExtraloadstore.withCondition code := by
  simp only [decode000MulExtraloadstore, decodeExtra_withCondition]
  have mode : (d.decodeExtra.withCondition code).extendMode = d.decodeExtra.extendMode := rfl
  have load : (d.decodeExtra.withCondition code).bit 20 = d.decodeExtra.bit 20 :=
    getLsbD_conditioned code _ (by decide)
  rw [mode, load, decode000Mulswap_withCondition, instStrx_withCondition, instLdrd_withCondition]
  split
  · rfl
  · split <;> rfl
  · rfl

theorem decode001DataImm_withCondition :
    (d.withCondition code).decode001DataImm = d.decode001DataImm.withCondition code := by
  obtain ⟨⟨⟩⟩ := d
  simp (disch := decide) only [decode001DataImm, decodeImmShifter, flagS, instConsuming, bit,
    field, decodeReg, withCondition, getLsbD_conditioned, extractLsb'_conditioned,
    shift_mask_conditioned, mask_conditioned]
  split
  case h_9 | h_11 => exact ite_withCondition rfl rfl
  case h_10 | h_12 => exact ite_withCondition rfl (ite_withCondition rfl rfl)
  all_goals rfl

theorem decode010LoadstoreImm_withCondition :
    (d.withCondition code).decode010LoadstoreImm =
      d.decode010LoadstoreImm.withCondition code := by
  simp (disch := decide) only [decode010LoadstoreImm, pbwl, decodeAddressingmode2, flagU, bit,
    decodeReg, field, withCondition, getLsbD_conditioned, extractLsb'_conditioned,
    shift_mask_conditioned, mask_conditioned]
  split <;> rfl

theorem decode011LoadstoreReg_withCondition :
    (d.withCondition code).decode011LoadstoreReg =
      d.decode011LoadstoreReg.withCondition code := by
  have four : (d.withCondition code).bit 4 = d.bit 4 :=
    getLsbD_conditioned code d.op (by decide)
  have up : (d.withCondition code).flagU = d.flagU.withCondition code := by
    simp (disch := decide) only [flagU, bit, withCondition, getLsbD_conditioned]
  rw [decode011LoadstoreReg, decode011LoadstoreReg, four, up, decodeRegisters_withCondition,
    decodeShift_withCondition]
  split
  · rfl
  · simp (disch := decide) only [pbwl, withCondition, shift_mask_conditioned]
    split <;> rfl

theorem decode100Loadstoremultiple_withCondition :
    (d.withCondition code).decode100Loadstoremultiple =
      d.decode100Loadstoremultiple.withCondition code := by
  simp (disch := decide) only [decode100Loadstoremultiple, flagS, bit, decodeReg, field,
    withCondition, getLsbD_conditioned, extractLsb'_conditioned, mask_conditioned]
  split <;> rfl

theorem decode101Branch_withCondition :
    (d.withCondition code).decode101Branch = d.decode101Branch.withCondition code := by
  simp (disch := decide) only [decode101Branch, decodeSimm24, bit, withCondition,
    getLsbD_conditioned, mask_conditioned]
  exact ite_withCondition rfl rfl

theorem decode111_withCondition :
    (d.withCondition code).decode111 = d.decode111.withCondition code := by
  simp (disch := decide) only [decode111, decodeSwi, decodeCoproc, bit, decodeReg, field,
    withCondition, getLsbD_conditioned, extractLsb'_conditioned, mask_conditioned]
  exact ite_withCondition rfl (ite_withCondition (ite_withCondition rfl rfl) rfl)

end Functions

/-! ### The breakpoint -/

/-- What is decoded with another condition, if it is an instruction with one. -/
def Follows (code : BitVec 4) (one other : Disassembler) : Prop :=
  other.instruction.isConditional = true → one = other.withCondition code

section Follows

variable {code : BitVec 4}

theorem follows_of_eq {one other : Disassembler} (same : one = other.withCondition code) :
    Follows code one other := fun _ => same

theorem follows_ite {condition : Prop} [Decidable condition] {one two one' two' : Disassembler}
    (yes : Follows code one one') (no : Follows code two two') :
    Follows code (if condition then one else two) (if condition then one' else two') := by
  split
  · exact yes
  · exact no

variable (d : Disassembler) (code : BitVec 4)

theorem decodeMisc_follows :
    Follows code (d.withCondition code).decodeMisc d.decodeMisc := by
  have unconditional {condition : Prop} [Decidable condition] {one two other : Disassembler}
      (yes : one.instruction.isConditional = false) (no : two.instruction.isConditional = false) :
      Follows code other (if condition then one else two) := by
    intro conditional
    rw [of_ite (fun d => d.instruction.isConditional) yes no] at conditional
    cases conditional
  simp (disch := decide) only [decodeMisc, bit, field, withCondition, getLsbD_conditioned,
    extractLsb'_conditioned, mask_conditioned]
  refine follows_ite (follows_of_eq rfl) ?_
  split
  · refine follows_ite (follows_of_eq rfl) ?_
    split <;> exact follows_ite (follows_of_eq rfl) (follows_of_eq rfl)
  · refine follows_ite (follows_of_eq rfl) ?_
    split
    · exact follows_ite (follows_of_eq rfl) (follows_of_eq rfl)
    · exact follows_of_eq rfl
    · exact follows_of_eq rfl
  · exact follows_ite (follows_of_eq rfl)
      (follows_ite (follows_of_eq rfl) (follows_of_eq rfl))
  -- only the breakpoint looks at the condition, and it is not decoded as an instruction
  · exact follows_ite (follows_of_eq rfl) (unconditional rfl rfl)
  · exact follows_of_eq rfl

theorem decodeMisc2_follows :
    Follows code (d.withCondition code).decodeMisc2 d.decodeMisc2 := by
  have source : (d.withCondition code).decodeReg 8 = d.decodeReg 8 :=
    congrArg BitVec.toFin (extractLsb'_conditioned code d.op (by decide))
  rw [decodeMisc2, source]
  exact decodeMisc_follows { d with rs := d.decodeReg 8 } code

theorem decode000Regs_follows :
    Follows code (d.withCondition code).decode000Regs d.decode000Regs := by
  have extra : (d.withCondition code).bit 7 = d.bit 7 :=
    getLsbD_conditioned code d.op (by decide)
  have test : (d.withCondition code).bit 20 = d.bit 20 :=
    getLsbD_conditioned code d.op (by decide)
  have row : ((d.flagS 20).decodeShiftReg.withCondition code).field 21 4 =
      (d.flagS 20).decodeShiftReg.field 21 4 :=
    extractLsb'_conditioned code d.op (by decide)
  simp (disch := decide) only [decode000Regs, extra, test, flagS_withCondition,
    decodeShiftReg_withCondition, row]
  refine follows_ite (follows_of_eq (decode000MulExtraloadstore_withCondition d code)) ?_
  generalize (d.flagS 20).decodeShiftReg = d'
  split
  case h_9 | h_10 | h_11 | h_12 =>
    exact follows_ite (follows_of_eq rfl) (decodeMisc_follows d' code)
  all_goals exact follows_of_eq rfl

theorem decode000Imms_follows :
    Follows code (d.withCondition code).decode000Imms d.decode000Imms := by
  have test : (d.withCondition code).bit 20 = d.bit 20 :=
    getLsbD_conditioned code d.op (by decide)
  have row : ((d.flagS 20).decodeShift.withCondition code).field 21 4 =
      (d.flagS 20).decodeShift.field 21 4 :=
    extractLsb'_conditioned code _ (by decide)
  simp (disch := decide) only [decode000Imms, test, flagS_withCondition,
    decodeShift_withCondition, row]
  generalize (d.flagS 20).decodeShift = d'
  split
  case h_9 | h_10 | h_11 | h_12 =>
    exact follows_ite (follows_of_eq rfl) (decodeMisc2_follows d' code)
  all_goals exact follows_of_eq rfl

theorem decode000DataReg_follows :
    Follows code (d.withCondition code).decode000DataReg d.decode000DataReg := by
  have four : (d.decodeRegisters.withCondition code).bit 4 = d.decodeRegisters.bit 4 :=
    getLsbD_conditioned code d.op (by decide)
  simp only [decode000DataReg, decodeRegisters_withCondition, four]
  exact follows_ite (decode000Regs_follows _ code) (decode000Imms_follows _ code)

theorem decodeGroup_follows (group : BitVec 3) :
    Follows code ((d.withCondition code).decodeGroup group) (d.decodeGroup group) := by
  simp only [decodeGroup]
  split
  · exact decode000DataReg_follows d code
  · exact follows_of_eq (decode001DataImm_withCondition d code)
  · exact follows_of_eq (decode010LoadstoreImm_withCondition d code)
  · exact follows_of_eq (decode011LoadstoreReg_withCondition d code)
  · exact follows_of_eq (decode100Loadstoremultiple_withCondition d code)
  · exact follows_of_eq (decode101Branch_withCondition d code)
  · exact follows_of_eq rfl
  · exact follows_of_eq (decode111_withCondition d code)

end Follows

theorem valid_of_conditional {d : Disassembler} {word addr : BitVec 32}
    (conditional : (d.decode word addr).instruction.isConditional = true) :
    word.extractLsb' 28 4 ≠ 0b1111#4 := by
  intro never
  rw [decode_never d never addr] at conditional
  have none (d : Disassembler) : d.decodeInstructionNV.instruction.isConditional = false :=
    of_ite (fun d => d.instruction.isConditional)
      (of_ite (fun d => d.instruction.isConditional)
        (of_ite (fun d => d.instruction.isConditional) rfl rfl) rfl) rfl
  rw [none] at conditional
  cases conditional

/-- With another condition an instruction is the same. -/
theorem decode_conditioned {d : Disassembler} {word addr : BitVec 32}
    (conditional : (d.decode word addr).instruction.isConditional = true) {code : BitVec 4}
    (valid : code ≠ 0b1111#4) :
    d.decode (conditioned code word) addr = (d.decode word addr).withCondition code := by
  have other := valid_of_conditional conditional
  have started_conditioned : started d (.ofCode code) (conditioned code word) addr =
      (started d (.ofCode (word.extractLsb' 28 4)) word addr).withCondition code := rfl
  have group := extractLsb'_conditioned code word (show 25 + 3 ≤ 28 by decide)
  rw [decode_group d other addr] at conditional ⊢
  rw [decode_group d (by rwa [condition_conditioned]) addr, condition_conditioned, group,
    started_conditioned]
  exact decodeGroup_follows _ code _ conditional

theorem decode_cond {d : Disassembler} {word addr : BitVec 32}
    (conditional : (d.decode word addr).instruction.isConditional = true) :
    (d.decode word addr).cond = .ofCode (word.extractLsb' 28 4) := by
  have same := decode_conditioned conditional (valid_of_conditional conditional)
  rw [conditioned_self] at same
  exact congrArg (fun d : Disassembler => d.cond) same

end Disassembler

end Ndse
