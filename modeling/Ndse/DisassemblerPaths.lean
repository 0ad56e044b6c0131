import Ndse.DisassemblerDecodes
import Ndse.DisassemblerThumb

/-!
# The functions of the decoder

A word with a condition is decoded by its group, and an instruction code tells
which function of the group has written it, unless it is one of the codes for
words without an instruction.
-/

namespace Ndse

/-- The functions of the ARM decoder that write an instruction code. -/
inductive DecodePath
  | misc | regs | imms | mula | mulal | swap | strx | ldrd
  | dataImm | loadstoreImm | loadstoreReg | multiple | branch | swi | coproc | never
deriving DecidableEq, Repr

/-- The group that a function belongs to. -/
def DecodePath.group : DecodePath → Option (BitVec 3)
  | misc | regs | imms | mula | mulal | swap | strx | ldrd => some 0
  | dataImm => some 1
  | loadstoreImm => some 2
  | loadstoreReg => some 3
  | multiple => some 4
  | branch => some 5
  | swi | coproc => some 7
  | never => none

namespace Inst

/-- The function that writes an instruction code.  The codes for words without an
instruction have several, and those of THUMB have none. -/
def path : Inst → Option DecodePath
  | ud | debug | unknown | bkpt | bpre | blxI => none
  | strI | ldrI | strIW | ldrIW | strbI | ldrbI | strbIW | ldrbIW
  | strIP | ldrIP | strIPW | ldrIPW | strbIP | ldrbIP | strbIPW | ldrbIPW => some .loadstoreImm
  | strR | ldrR | strRW | ldrRW | strbR | ldrbR | strbRW | ldrbRW
  | strRP | ldrRP | strRPW | ldrRPW | strbRP | ldrbRP | strbRPW | ldrbRPW => some .loadstoreReg
  | andI | eorI | subI | rsbI | addI | adcI | sbcI | rscI
  | tstI | teqI | cmpI | cmnI | orrI | movI | bicI | mvnI
  | msrCpsrI | msrSpsrI => some .dataImm
  | andR | eorR | subR | rsbR | addR | adcR | sbcR | rscR
  | tstR | teqR | cmpR | cmnR | orrR | movR | bicR | mvnR => some .imms
  | andRR | eorRR | subRR | rsbRR | addRR | adcRR | sbcRR | rscRR
  | tstRR | teqRR | cmpRR | cmnRR | orrRR | movRR | bicRR | mvnRR => some .regs
  | msrCpsrR | msrSpsrR | mrsCpsr | mrsSpsr | clz | bx | blx => some .misc
  | swi => some .swi
  | b | bl => some .branch
  | mrc | mcr => some .coproc
  | stm | ldm | stmW | ldmW => some .multiple
  | strxI | ldrxI | strxIW | ldrxIW | strxIP | ldrxIP | strxIPW | ldrxIPW
  | strxR | ldrxR | strxRW | ldrxRW | strxRP | ldrxRP | strxRPW | ldrxRPW => some .strx
  | mulR | mlaR => some .mula
  | umull | umlal | smull | smlal => some .mulal
  | swp | swpb => some .swap
  | ldrdR | ldrdRW | ldrdRI | ldrdRIW | ldrdRP | ldrdRPW | ldrdRIP | ldrdRIPW => some .ldrd
  | pldI | pldR => some .never

/-- Nothing but functions of a kind writes the code. -/
def writtenBy (kind : Inst) (functions : DecodePath → Bool) : Bool := kind.path.all functions

theorem ne_of_writtenBy {kind other : Inst} {path : DecodePath} {functions : DecodePath → Bool}
    (written : kind.writtenBy functions = true) (from_path : other.path = some path)
    (not_path : functions path = false) : kind ≠ other := by
  rintro rfl
  rw [writtenBy, from_path, Option.all_some, not_path] at written
  cases written

end Inst

namespace Disassembler

open BitVec (ofBool)
open BitFields

theorem of_ite {condition : Prop} [Decidable condition] {one two : Disassembler} {α : Type}
    (read : Disassembler → α) {value : α} (yes : read one = value) (no : read two = value) :
    read (if condition then one else two) = value := by
  split
  · exact yes
  · exact no

section Functions

variable {functions : DecodePath → Bool}

theorem writtenBy_ite {condition : Prop} [Decidable condition] {one two : Disassembler}
    (yes : one.instruction.writtenBy functions = true)
    (no : two.instruction.writtenBy functions = true) :
    (if condition then one else two).instruction.writtenBy functions = true :=
  of_ite (fun d => d.instruction.writtenBy functions) yes no

theorem writtenBy_decodeMisc (misc : functions .misc = true) (d : Disassembler) :
    d.decodeMisc.instruction.writtenBy functions = true := by
  simp only [decodeMisc]
  refine writtenBy_ite rfl ?_
  split
  · refine writtenBy_ite rfl ?_
    split <;> exact writtenBy_ite rfl misc
  · refine writtenBy_ite rfl ?_
    split
    · exact writtenBy_ite rfl misc
    · exact misc
    · rfl
  · exact writtenBy_ite rfl (writtenBy_ite rfl misc)
  · exact writtenBy_ite rfl (writtenBy_ite rfl rfl)
  · rfl

theorem writtenBy_decode00000Mula (mula : functions .mula = true) (d : Disassembler) :
    d.decode00000Mula.instruction.writtenBy functions = true := by
  refine writtenBy_ite rfl ?_
  dsimp only
  split
  · exact writtenBy_ite rfl mula
  · exact writtenBy_ite rfl mula
  · exact mula
  · exact mula

theorem writtenBy_decode00001Mulal (mulal : functions .mulal = true) (d : Disassembler) :
    d.decode00001Mulal.instruction.writtenBy functions = true := by
  simp only [decode00001Mulal]
  split <;> exact mulal

theorem writtenBy_decode00010Swap (swap : functions .swap = true) (d : Disassembler) :
    d.decode00010Swap.instruction.writtenBy functions = true := by
  simp only [decode00010Swap]
  split
  · exact swap
  · exact swap
  · rfl

theorem writtenBy_instStrx (strx : functions .strx = true) (d : Disassembler) :
    d.instStrx.instruction.writtenBy functions = true := by
  simp only [instStrx]
  split <;> exact strx

theorem writtenBy_instLdrd (ldrd : functions .ldrd = true) (d : Disassembler) :
    d.instLdrd.instruction.writtenBy functions = true := by
  simp only [instLdrd]
  split <;> exact ldrd

theorem writtenBy_decode000Regs {d : Disassembler} (plain : d.bit 7 = false)
    (regs : functions .regs = true) (misc : functions .misc = true) :
    d.decode000Regs.instruction.writtenBy functions = true := by
  rw [decode000Regs, if_neg (by rw [plain]; exact Bool.false_ne_true)]
  dsimp only
  split
  case h_9 | h_10 | h_11 | h_12 => exact writtenBy_ite regs (writtenBy_decodeMisc misc _)
  all_goals exact regs

theorem writtenBy_decode000Imms (imms : functions .imms = true) (misc : functions .misc = true)
    (d : Disassembler) : d.decode000Imms.instruction.writtenBy functions = true := by
  simp only [decode000Imms]
  split
  case h_9 | h_10 | h_11 | h_12 => exact writtenBy_ite imms (writtenBy_decodeMisc misc _)
  all_goals exact imms

theorem writtenBy_decode001DataImm (dataImm : functions .dataImm = true) (d : Disassembler) :
    d.decode001DataImm.instruction.writtenBy functions = true := by
  simp only [decode001DataImm]
  split
  case h_9 | h_11 => exact writtenBy_ite dataImm rfl
  case h_10 | h_12 => exact writtenBy_ite dataImm (writtenBy_ite rfl dataImm)
  all_goals exact dataImm

theorem writtenBy_decode000Mulswap (mula : functions .mula = true)
    (mulal : functions .mulal = true) (swap : functions .swap = true) (d : Disassembler) :
    d.decode000Mulswap.instruction.writtenBy functions = true := by
  simp only [decode000Mulswap]
  split
  · exact writtenBy_decode00000Mula mula d
  · exact writtenBy_decode00001Mulal mulal d
  · exact writtenBy_decode00010Swap swap d
  · rfl

theorem writtenBy_decode000MulExtraloadstore
    (mulswap : ∀ d : Disassembler, d.decode000Mulswap.instruction.writtenBy functions = true)
    (strx : functions .strx = true) (ldrd : functions .ldrd = true) (d : Disassembler) :
    d.decode000MulExtraloadstore.instruction.writtenBy functions = true := by
  simp only [decode000MulExtraloadstore]
  split
  · exact mulswap _
  · exact writtenBy_ite (writtenBy_instStrx strx _) (writtenBy_instLdrd ldrd _)
  · exact writtenBy_instStrx strx _

/-- The functions of the first group, other than those behind multiplies. -/
theorem writtenBy_decode000DataReg
    (extra : ∀ d : Disassembler,
      d.decode000MulExtraloadstore.instruction.writtenBy functions = true)
    (regs : functions .regs = true) (imms : functions .imms = true)
    (misc : functions .misc = true) (d : Disassembler) :
    d.decode000DataReg.instruction.writtenBy functions = true := by
  refine writtenBy_ite ?_ (writtenBy_decode000Imms imms misc _)
  cases plain : d.decodeRegisters.bit 7 with
  | false => exact writtenBy_decode000Regs plain regs misc
  | true =>
      rw [decode000Regs, if_pos plain]
      exact extra _

theorem writtenBy_decodeInstructionNV (never : functions .never = true) (d : Disassembler) :
    d.decodeInstructionNV.instruction.writtenBy functions = true :=
  writtenBy_ite (writtenBy_ite (writtenBy_ite never never) rfl) rfl

end Functions

/-- A group writes codes of its own functions. -/
theorem writtenBy_decodeGroup (d : Disassembler) (group : BitVec 3) :
    (d.decodeGroup group).instruction.writtenBy (·.group = some group) = true := by
  obtain rfl | rfl | rfl | rfl | rfl | rfl | rfl | rfl : group = 0 ∨ group = 1 ∨ group = 2 ∨
      group = 3 ∨ group = 4 ∨ group = 5 ∨ group = 6 ∨ group = 7 := by
    revert group
    decide
  · refine writtenBy_decode000DataReg (fun d => ?_) rfl rfl rfl d
    exact writtenBy_decode000MulExtraloadstore (writtenBy_decode000Mulswap rfl rfl rfl) rfl rfl d
  · exact writtenBy_decode001DataImm rfl d
  · change d.decode010LoadstoreImm.instruction.writtenBy _ = true
    simp only [decode010LoadstoreImm]
    split <;> rfl
  · refine writtenBy_ite rfl ?_
    split <;> rfl
  · change d.decode100Loadstoremultiple.instruction.writtenBy _ = true
    simp only [decode100Loadstoremultiple]
    split <;> rfl
  · exact writtenBy_ite rfl rfl
  · rfl
  · exact writtenBy_ite rfl (writtenBy_ite (writtenBy_ite rfl rfl) rfl)

/-! ### Words with a condition -/

theorem ofCode_eq_nv : ∀ code : BitVec 4, Condition.ofCode code = .nv ↔ code = 0b1111#4 := by
  decide

/-- A word with one of the conditions is decoded by its group. -/
theorem decode_group (d : Disassembler) {word : BitVec 32}
    (valid : word.extractLsb' 28 4 ≠ 0b1111#4) (addr : BitVec 32) :
    d.decode word addr =
      (started d (.ofCode (word.extractLsb' 28 4)) word addr).decodeGroup
        (word.extractLsb' 25 3) :=
  if_neg (mt (ofCode_eq_nv _).1 valid)

theorem decode_never (d : Disassembler) {word : BitVec 32}
    (never : word.extractLsb' 28 4 = 0b1111#4) (addr : BitVec 32) :
    d.decode word addr =
      (started d (.ofCode (word.extractLsb' 28 4)) word addr).decodeInstructionNV :=
  if_pos ((ofCode_eq_nv _).2 never)

/-- A word whose code a function of a group has written belongs to that group. -/
theorem group_of_path {d : Disassembler} {word addr : BitVec 32} {path : DecodePath}
    {group : BitVec 3} (written : (d.decode word addr).instruction.path = some path)
    (inside : path.group = some group) :
    word.extractLsb' 28 4 ≠ 0b1111#4 ∧ word.extractLsb' 25 3 = group := by
  by_cases never : word.extractLsb' 28 4 = 0b1111#4
  · have code : (d.decode word addr).instruction.writtenBy (·.group = none) = true :=
      decode_never d never addr ▸ writtenBy_decodeInstructionNV rfl _
    rw [Inst.writtenBy, written, Option.all_some, inside] at code
    cases code
  · have code := writtenBy_decodeGroup (started d (.ofCode (word.extractLsb' 28 4)) word addr)
      (word.extractLsb' 25 3)
    rw [← decode_group d never addr, Inst.writtenBy, written, Option.all_some, inside] at code
    exact ⟨never, (Option.some.inj (of_decide_eq_true code)).symm⟩

/-! ### The unsigned multiply that accumulates -/

/-- `UMLAL`. -/
def IsUmlal (word : BitVec 32) : Prop :=
  word.extractLsb' 28 4 ≠ 0b1111#4 ∧ word.extractLsb' 21 7 = 0b0000101#7 ∧
    word.extractLsb' 4 4 = 0b1001#4

instance : DecidablePred IsUmlal := fun _ => inferInstanceAs (Decidable (_ ∧ _))

theorem extractLsb'_seven_iff (word : BitVec 32) :
    word.extractLsb' 21 7 = 0b0000101#7 ↔ word.extractLsb' 25 3 = 0 ∧
      word.extractLsb' 23 2 = 1 ∧ word.extractLsb' 21 2 = 1 := by
  have high : word.extractLsb' 25 3 ++ word.extractLsb' 23 2 = word.extractLsb' 23 5 :=
    BitVec.extractLsb'_append_extractLsb'_eq_extractLsb' rfl
  have all : word.extractLsb' 23 5 ++ word.extractLsb' 21 2 = word.extractLsb' 21 7 :=
    BitVec.extractLsb'_append_extractLsb'_eq_extractLsb' rfl
  have parts : ∀ (group : BitVec 3) (row column : BitVec 2),
      group ++ row ++ column = 0b0000101#7 ↔ group = 0 ∧ row = 1 ∧ column = 1 := by decide
  rw [← all, ← high]
  exact parts _ _ _

theorem extractLsb'_nine_iff (word : BitVec 32) :
    word.extractLsb' 4 4 = 0b1001#4 ↔ word.getLsbD 4 = true ∧ word.getLsbD 7 = true ∧
      word.extractLsb' 5 2 = 0 := by
  have bits : ∀ b7 b6 b5 b4 : Bool,
      ofBool b7 ++ ofBool b6 ++ (ofBool b5 ++ ofBool b4) = 0b1001#4 ↔
        b4 = true ∧ b7 = true ∧ ofBool b6 ++ ofBool b5 = 0#2 := by decide
  rw [extractLsb'_four, extractLsb'_two, extractLsb'_two, extractLsb'_two]
  exact bits _ _ _ _

theorem decode00001Mulal_umlal_iff (d : Disassembler) :
    d.decode00001Mulal.instruction = .umlal ↔ d.field 21 2 = 1 := by
  have rows : ∀ row : BitVec 2, row = 0 ∨ row = 1 ∨ row = 2 ∨ row = 3 := by decide
  simp only [decode00001Mulal, flagS, field]
  obtain row | row | row | row := rows (d.op.extractLsb' 21 2) <;> simp [row, inst]

theorem ne_umlal {kind : Inst} (written : kind.writtenBy (· ≠ .mulal) = true) : kind ≠ .umlal :=
  Inst.ne_of_writtenBy written rfl rfl

theorem decode000Mulswap_umlal_iff (d : Disassembler) :
    d.decode000Mulswap.instruction = .umlal ↔ d.field 23 2 = 1 ∧ d.field 21 2 = 1 := by
  have rows : ∀ row : BitVec 2, row ≠ 1 → row = 0 ∨ row = 2 ∨ row = 3 := by decide
  by_cases long : d.field 23 2 = 1
  · have there : d.decode000Mulswap = d.decode00001Mulal := by
      simp only [decode000Mulswap, long]
      rfl
    rw [there, decode00001Mulal_umlal_iff, and_iff_right long]
  · refine iff_of_false ?_ fun both => long both.1
    obtain row | row | row := rows _ long
    · have there : d.decode000Mulswap = d.decode00000Mula := by
        simp only [decode000Mulswap, row]
        rfl
      exact there ▸ ne_umlal (writtenBy_decode00000Mula rfl d)
    · have there : d.decode000Mulswap = d.decode00010Swap := by
        simp only [decode000Mulswap, row]
        rfl
      exact there ▸ ne_umlal (writtenBy_decode00010Swap rfl d)
    · have there : d.decode000Mulswap = d.instUd := by
        simp only [decode000Mulswap, row]
        rfl
      exact there ▸ ne_umlal rfl

theorem decode000MulExtraloadstore_umlal_iff (d : Disassembler) :
    d.decode000MulExtraloadstore.instruction = .umlal ↔
      d.field 5 2 = 0 ∧ d.field 23 2 = 1 ∧ d.field 21 2 = 1 := by
  by_cases multiply : d.field 5 2 = 0
  · rw [decode000MulExtraloadstore_mulswap d multiply, decode000Mulswap_umlal_iff,
      and_iff_right multiply]
    rfl
  · have modes : ∀ code : BitVec 2, code ≠ 0 → ExtendMode.ofCode code ≠ .invalid := by decide
    have transfer : d.decodeExtra.extendMode ≠ .invalid := modes _ multiply
    refine iff_of_false ?_ fun all => multiply all.1
    simp only [decode000MulExtraloadstore]
    split
    · next invalid => exact absurd invalid transfer
    · exact ne_umlal (writtenBy_ite (writtenBy_instStrx rfl _) (writtenBy_instLdrd rfl _))
    · exact ne_umlal (writtenBy_instStrx rfl _)

theorem decode000DataReg_umlal_iff (d : Disassembler) :
    d.decode000DataReg.instruction = .umlal ↔
      (d.bit 4 = true ∧ d.bit 7 = true ∧ d.field 5 2 = 0) ∧ d.field 23 2 = 1 ∧
        d.field 21 2 = 1 := by
  cases b4 : d.bit 4 with
  | false =>
      rw [decode000DataReg_imms d b4]
      exact iff_of_false (ne_umlal (writtenBy_decode000Imms rfl rfl _)) (nomatch ·.1.1)
  | true =>
      cases b7 : d.bit 7 with
      | false =>
          have plain : d.decodeRegisters.bit 7 = false := b7
          rw [decode000DataReg_regs d b4]
          exact iff_of_false (ne_umlal (writtenBy_decode000Regs plain rfl rfl)) (nomatch ·.1.2.1)
      | true =>
          rw [decode000DataReg_extra d b4 b7, decode000MulExtraloadstore_umlal_iff, eq_self,
            true_and, true_and]
          rfl

/-- The words that are decoded to `UMLAL`. -/
theorem decode_umlal_iff (d : Disassembler) (word addr : BitVec 32) :
    (d.decode word addr).instruction = .umlal ↔ IsUmlal word := by
  constructor
  · intro umlal
    obtain ⟨valid, group⟩ := @group_of_path d word addr .mulal 0 (umlal ▸ rfl) rfl
    rw [decode_group d valid addr, group] at umlal
    obtain ⟨multiply, long, accumulate⟩ := (decode000DataReg_umlal_iff _).mp umlal
    exact ⟨valid, (extractLsb'_seven_iff word).mpr ⟨group, long, accumulate⟩,
      (extractLsb'_nine_iff word).mpr multiply⟩
  · rintro ⟨valid, row, multiply⟩
    obtain ⟨group, long, accumulate⟩ := (extractLsb'_seven_iff word).mp row
    rw [decode_group d valid addr, group]
    exact (decode000DataReg_umlal_iff _).mpr
      ⟨(extractLsb'_nine_iff word).mp multiply, long, accumulate⟩

/-! ### The tests of the data processing with immediates -/

theorem instruction_ite {condition : Prop} [Decidable condition] (one two : Disassembler) :
    (if condition then one else two).instruction =
      if condition then one.instruction else two.instruction :=
  apply_ite (fun d : Disassembler => d.instruction) condition one two

theorem decode001DataImm_teq {d : Disassembler} (teq : d.field 21 4 = 0b1001#4) :
    d.decode001DataImm.instruction =
      if d.bit 20 then .teqI else if d.field 12 4 ≠ 0b1111#4 then .unknown else .msrCpsrI := by
  simp only [decode001DataImm, decodeImmShifter, bit, flagS, decodeReg, inst, instUnknown,
    field] at teq ⊢
  have ones : (d.op.extractLsb' 12 4).toFin = 0xF ↔ d.op.extractLsb' 12 4 = 0b1111#4 :=
    BitVec.toFin_inj
  simp only [teq, ones, BitVec.ofNat_eq_ofNat, BitVec.toNat_ofNat, Nat.reducePow,
    Nat.reduceMod, ne_eq, instruction_ite]
  congr

theorem decode001DataImm_cmn {d : Disassembler} (cmn : d.field 21 4 = 0b1011#4) :
    d.decode001DataImm.instruction =
      if d.bit 20 then .cmnI else if d.field 12 4 ≠ 0b0000#4 then .unknown else .msrSpsrI := by
  simp only [decode001DataImm, decodeImmShifter, bit, flagS, decodeReg, inst, instUnknown,
    field] at cmn ⊢
  have zeros : (d.op.extractLsb' 12 4).toFin = 0 ↔ d.op.extractLsb' 12 4 = 0b0000#4 :=
    BitVec.toFin_inj
  simp only [cmn, zeros, BitVec.ofNat_eq_ofNat, BitVec.toNat_ofNat, Nat.reducePow,
    Nat.reduceMod, ne_eq, instruction_ite]
  congr

/-! ### What some functions leave -/

theorem path_ne_of_writtenBy {kind : Inst} {path : DecodePath}
    (written : kind.writtenBy (· ≠ path) = true) : kind.path ≠ some path := by
  intro same
  rw [Inst.writtenBy, same, Option.all_some, decide_eq_true_iff] at written
  exact written rfl

theorem instStrx_extendMode (d : Disassembler) : d.instStrx.extendMode = d.extendMode := by
  simp only [instStrx]
  split <;> rfl

theorem decode000DataReg_extendMode {d : Disassembler}
    (strx : d.decode000DataReg.instruction.path = some .strx) :
    d.decode000DataReg.extendMode ≠ .invalid := by
  have other {kind : Inst} (written : kind.writtenBy (· ≠ .strx) = true) :
      kind.path ≠ some .strx := path_ne_of_writtenBy written
  cases b4 : d.bit 4 with
  | false =>
      rw [decode000DataReg_imms d b4] at strx
      exact absurd strx (other (writtenBy_decode000Imms rfl rfl _))
  | true =>
      cases b7 : d.bit 7 with
      | false =>
          have plain : d.decodeRegisters.bit 7 = false := b7
          rw [decode000DataReg_regs d b4] at strx
          exact absurd strx (other (writtenBy_decode000Regs plain rfl rfl))
      | true =>
          rw [decode000DataReg_extra d b4 b7] at strx ⊢
          generalize d.decodeRegisters = d at strx ⊢
          simp only [decode000MulExtraloadstore] at strx ⊢
          cases mode : d.decodeExtra.extendMode with
          | invalid =>
              rw [mode] at strx
              exact absurd strx (other (writtenBy_decode000Mulswap rfl rfl rfl _))
          | sb =>
              rw [mode] at strx
              cases load : d.decodeExtra.bit 20 with
              | false =>
                  simp only [load, Bool.false_eq_true, if_false] at strx
                  exact absurd strx (other (writtenBy_instLdrd rfl _))
              | true =>
                  simp only [if_true, instStrx_extendMode, mode]
                  rintro ⟨⟩
          | h | sh =>
              simp only [instStrx_extendMode, mode]
              rintro ⟨⟩

/-- A small transfer has an extend mode. -/
theorem decode_extendMode {d : Disassembler} {word addr : BitVec 32}
    (strx : (d.decode word addr).instruction.path = some .strx) :
    (d.decode word addr).extendMode ≠ .invalid := by
  obtain ⟨valid, group⟩ := group_of_path strx rfl
  rw [decode_group d valid addr, group] at strx ⊢
  exact decode000DataReg_extendMode strx

/-- The list of a transfer of several registers has sixteen bits. -/
theorem decode_multiple_imm {d : Disassembler} {word addr : BitVec 32}
    (multiple : (d.decode word addr).instruction.path = some .multiple) :
    (d.decode word addr).imm = word &&& 0xFFFF := by
  obtain ⟨valid, group⟩ := group_of_path multiple rfl
  have loaded (d : Disassembler) : d.decode100Loadstoremultiple.imm = d.op &&& 0xFFFF := by
    simp only [decode100Loadstoremultiple]
    split <;> rfl
  rw [decode_group d valid addr, group]
  exact loaded _

/-! ### Halfwords -/

end Disassembler

/-- The codes that the groups of the THUMB decoder write, all but the last. -/
def Inst.ofThumb : Inst → Bool
  | ud | debug | unknown | bkpt | movR | addR | subR | addI | subI | movI | cmpI
  | strRP | strxRP | strbRP | ldrRP | ldrxRP | ldrbRP | ldrIP | strIP | strbIP | ldrbIP
  | ldrxIP | strxIP | cmpR | blx | bx | andR | eorR | movRR | adcR | sbcR | tstR | rsbI
  | orrR | mulR | bicR | mvnR | stmW | ldmW | swi | b => true
  | _ => false

namespace Disassembler

theorem ofThumb_groups (d : Disassembler) :
    d.decodeT000.instruction.ofThumb ∧ d.decodeT001.instruction.ofThumb ∧
      d.decodeT010.instruction.ofThumb ∧ d.decodeT011.instruction.ofThumb ∧
      d.decodeT100.instruction.ofThumb ∧ d.decodeT101.instruction.ofThumb ∧
      d.decodeT110.instruction.ofThumb := by
  refine ⟨?_, ?_, ?_, ?_, ?_, ?_, ?_⟩
  · simp only [decodeT000, decodeShiftT]
    split <;> (try split) <;> rfl
  · simp only [decodeT001]
    split <;> rfl
  · simp only [decodeT010, decodeT0101LoadstoreReg, decodeT01001Loadliteral, decodeT010001SdataB,
      decodeT010000Dataproc, instOwn, instShiftT, instUd, instUnknown]
    repeat' split
    all_goals rfl
  · simp only [decodeT011]
    split <;> rfl
  · simp only [decodeT100, decodeT1001LoadstoreStack]
    repeat' split
    all_goals rfl
  · simp only [decodeT101, decodeT1011Misc, decodeT1010AddSpPc, instStack, instUd]
    repeat' split
    all_goals rfl
  · simp only [decodeT110, decodeT1101BcondSwi, decodeT1100LoadstoreMultiple, instUd]
    repeat' split
    all_goals rfl

/-- No halfword is decoded to a long multiply. -/
theorem decodeThumb_ne_umlal (d : Disassembler) (op addr : BitVec 32) :
    (d.decodeThumb op addr).instruction ≠ .umlal := by
  have group {kind : Inst} (code : kind.ofThumb = true) : kind ≠ .umlal := by
    rintro rfl
    cases code
  simp only [decodeThumb, decodeInstructionThumb]
  split
  · exact group (ofThumb_groups _).1
  · exact group (ofThumb_groups _).2.1
  · exact group (ofThumb_groups _).2.2.1
  · exact group (ofThumb_groups _).2.2.2.1
  · exact group (ofThumb_groups _).2.2.2.2.1
  · exact group (ofThumb_groups _).2.2.2.2.2.1
  · exact group (ofThumb_groups _).2.2.2.2.2.2
  · simp only [decodeT111, inst, instUd]
    split
    · rintro ⟨⟩
    · split <;> rintro ⟨⟩
    · rintro ⟨⟩
    · rintro ⟨⟩

end Disassembler

end Ndse
