import Ndse.DisassemblerPaths

/-!
# Branches

The branches of both states with their words, and where the architecture goes.
The long THUMB branches have two halfwords: the first one holds the high part
of the offset and is decoded on its own.
-/

namespace Ndse

open BitVec (ofBool)

/-- The branches of the ARM and of the THUMB state. -/
inductive Branch
  | arm (link : Bool) (cond : Condition) (offset : BitVec 24)
  | armRegister (link : Bool) (cond : Condition) (rm : BitVec 4)
  | thumb (offset : BitVec 11)
  | thumbConditional (cond : Condition) (offset : BitVec 8)
  | thumbSuffix (exchange : Bool) (offset : BitVec 11)
  | thumbRegister (link : Bool) (rm : BitVec 4)
deriving DecidableEq

namespace Branch

/-- Conditions that are none, and the odd offset of a change of state, are other
instructions. -/
def Valid : Branch → Prop
  | arm _ cond _ | armRegister _ cond _ => cond ≠ .nv
  | thumbConditional cond _ => cond ≠ .al ∧ cond ≠ .nv
  | thumbSuffix exchange offset => exchange = true → offset.getLsbD 0 = false
  | _ => True

instance : DecidablePred Valid
  | arm .. | armRegister .. => inferInstanceAs (Decidable (_ ≠ _))
  | thumbConditional .. => inferInstanceAs (Decidable (_ ∧ _))
  | thumbSuffix .. => inferInstanceAs (Decidable (_ → _))
  | thumb .. | thumbRegister .. => inferInstanceAs (Decidable True)

def inThumb : Branch → Bool
  | arm .. | armRegister .. => false
  | _ => true

def links : Branch → Bool
  | arm link .. | armRegister link .. | thumbRegister link _ => link
  | thumbSuffix .. => true
  | _ => false

/-- The linking forms with an offset. -/
def linksImmediate : Branch → Bool
  | arm link .. => link
  | thumbSuffix .. => true
  | _ => false

/-- The register of the other forms. -/
def register : Branch → Option (Fin 16)
  | armRegister _ _ rm | thumbRegister _ rm => some rm.toFin
  | _ => none

/-- `INSTRUCTION_SIZE_LG2` of the state. -/
def instBits (branch : Branch) : Nat := if branch.inThumb then 1 else 2

/-- The halfwords with eleven bits of an offset. -/
def offsetHalf (kind : BitVec 2) (offset : BitVec 11) : BitVec 16 := 0b111#3 ++ kind ++ offset

/-- The word or halfword. -/
def word : Branch → BitVec 32
  | arm link cond offset => (ArmInstruction.branch link offset).encode cond
  | armRegister link cond rm =>
      (if link then ArmInstruction.blx rm else ArmInstruction.bx rm).encode cond
  | thumb offset => (offsetHalf 0b00 offset).setWidth 32
  | thumbConditional cond offset => (0b1101#4 ++ cond.code ++ offset).setWidth 32
  | thumbSuffix exchange offset =>
      (offsetHalf (if exchange then 0b01 else 0b11) offset).setWidth 32
  | thumbRegister link rm => (0b01000111#8 ++ ofBool link ++ rm ++ 0#3).setWidth 32

/-- The first halfword of a long branch. -/
def prefixWord (high : BitVec 11) : BitVec 32 := (offsetHalf 0b10 high).setWidth 32

/-! ### The architecture -/

/-- The high part of the offset of a long branch. -/
def highOffset (high : BitVec 11) : BitVec 32 := (high ++ 0#12).signExtend 32

/-- The part of the offset in the branch itself. -/
def offset : Branch → BitVec 32
  | arm _ _ offset => (offset ++ 0#2).signExtend 32
  | thumb offset => (offset ++ 0#1).signExtend 32
  | thumbConditional _ offset => (offset ++ 0#1).signExtend 32
  | thumbSuffix _ offset => (offset ++ 0#1).setWidth 32
  | _ => 0

/-- The address of the next instruction, with the state bit. -/
def returnAddress (branch : Branch) (address state : BitVec 32) : BitVec 32 :=
  address + (1#32 <<< branch.instBits) + state

/-- Where the branch goes.  The long THUMB branches count from their first
halfword, and the one that changes the state aligns its target. -/
def target (branch : Branch) (address state : BitVec 32) (high : BitVec 11)
    (regs : Fin 16 → BitVec 32) : BitVec 32 :=
  match branch with
  | arm .. => address + 8 + branch.offset + state
  | thumb .. | thumbConditional .. => address + 4 + branch.offset + state
  | thumbSuffix false _ => address - 2 + 4 + highOffset high + branch.offset + state
  | thumbSuffix true _ => (address - 2 + 4 + highOffset high + branch.offset) &&& ~~~3#32
  | armRegister _ _ rm | thumbRegister _ rm => regs rm.toFin

/-! ### Decoding -/

/-- The decoder of the state. -/
def decoded (branch : Branch) (prior : Disassembler) (addr : BitVec 32) : Context :=
  (if branch.inThumb then prior.decodeThumb branch.word addr
  else prior.decode branch.word addr).toContext

/-- The code of a branch. -/
def inst : Branch → Inst
  | arm link .. => if link then .bl else .b
  | armRegister link .. | thumbRegister link .. => if link then .blx else .bx
  | thumb .. | thumbConditional .. => .b
  | thumbSuffix exchange _ => if exchange then .blxI else .bl

/-- The condition of a branch. -/
def cond : Branch → Condition
  | arm _ cond _ | armRegister _ cond _ | thumbConditional cond _ => cond
  | _ => .al

/-- What the decoder makes of a branch at an address: the address of the
prefetch is part of the immediate. -/
def immediate (branch : Branch) (addr : BitVec 32) : Option (BitVec 32) :=
  match branch with
  | arm .. => some (addr + 8 + branch.offset)
  | thumb .. | thumbConditional .. => some (addr + 4 + branch.offset)
  | thumbSuffix .. => some branch.offset
  | _ => none

/-- A context that shows a branch. -/
structure Shows (branch : Branch) (addr : BitVec 32) (ctx : Context) : Prop where
  instruction : ctx.instruction = branch.inst
  cond : ctx.cond = branch.cond
  imm : ∀ imm ∈ branch.immediate addr, ctx.imm = imm
  rm : ∀ rm ∈ branch.register, ctx.rm = rm

section Halfwords

variable (prior : Disassembler) (addr : BitVec 32)

/-- The state in which a halfword is decoded. -/
def startedThumb (half : BitVec 16) : Disassembler :=
  { prior with
    op := half.setWidth 32, sBit := false, uBit := false, sConsuming := false, addr := addr
    shift := .lsl, instruction := .debug, cond := .al, imm := 0 }

theorem decodeThumb_eq (half : BitVec 16) :
    prior.decodeThumb (half.setWidth 32) addr =
      match (half.extractLsb' 13 3).toNat with
      | 0x0 => (startedThumb prior addr half).decodeT000
      | 0x1 => (startedThumb prior addr half).decodeT001
      | 0x2 => (startedThumb prior addr half).decodeT010
      | 0x3 => (startedThumb prior addr half).decodeT011
      | 0x4 => (startedThumb prior addr half).decodeT100
      | 0x5 => (startedThumb prior addr half).decodeT101
      | 0x6 => (startedThumb prior addr half).decodeT110
      | _ => (startedThumb prior addr half).decodeT111 := by
  have low : half.setWidth 32 &&& 0xFFFF = half.setWidth 32 := by
    rw [show (0xFFFF : BitVec 32) = BitVec.ofNat 32 (2 ^ 16 - 1) from rfl, BitFields.and_ones,
      BitFields.extractLsb'_setWidth half (by decide) (by decide), BitVec.extractLsb'_eq_self]
  have group : (startedThumb prior addr half).field 13 3 = half.extractLsb' 13 3 :=
    BitFields.extractLsb'_setWidth half (by decide) (by decide)
  rw [Disassembler.decodeThumb, low, Disassembler.decodeInstructionThumb]
  simp only [← group]
  rfl

theorem offsetHalf_low (kind : BitVec 2) (offset : BitVec 11) :
    (offsetHalf kind offset).setWidth 32 &&& 0x7FF = offset.setWidth 32 := by
  rw [show (0x7FF : BitVec 32) = BitVec.ofNat 32 (2 ^ 11 - 1) from rfl, BitFields.and_ones,
    BitFields.extractLsb'_setWidth _ (by decide) (by decide)]
  simp (disch := decide) only [offsetHalf, BitVec.extractLsb'_append_eq_of_add_le,
    BitVec.extractLsb'_eq_self]

theorem shiftLeft_append_zeros {len zeros : Nat} (field : BitVec len) (fits : len + zeros ≤ 32) :
    field.setWidth 32 <<< zeros = (field ++ (0 : BitVec zeros)).setWidth 32 := by
  apply BitVec.eq_of_getLsbD_eq
  intro index inside
  simp only [BitVec.getLsbD_shiftLeft, BitVec.getLsbD_setWidth, BitVec.getLsbD_append, inside,
    decide_true, Bool.true_and]
  by_cases low : index < zeros
  · simp [low]
  · simp [low, show index - zeros < 32 by omega]

/-- What the decoder makes of the halfwords with an offset. -/
theorem decodeThumb_offsetHalf (kind : BitVec 2) (offset : BitVec 11) :
    prior.decodeThumb ((offsetHalf kind offset).setWidth 32) addr =
      let d := { startedThumb prior addr (offsetHalf kind offset) with imm := offset.setWidth 32 }
      match kind.toNat with
      | 0x0 => { d with imm := addr + 4 + (offset ++ 0#1).signExtend 32 }.inst .b
      | 0x1 =>
          if offset.getLsbD 0 then d.instUd
          else { d with imm := (offset ++ 0#1).setWidth 32 }.inst .blxI
      | 0x2 => { d with imm := addr + 4 + (offset ++ 0#12).signExtend 32 }.inst .bpre
      | _ => { d with imm := (offset ++ 0#1).setWidth 32 }.inst .bl := by
  have group : (offsetHalf kind offset).extractLsb' 13 3 = 0b111#3 := by
    simp (disch := decide) only [offsetHalf, BitVec.extractLsb'_append_eq_of_le, Nat.reduceSub,
      BitVec.extractLsb'_eq_self]
  have code : (startedThumb prior addr (offsetHalf kind offset)).field 11 2 = kind := by
    rw [Disassembler.field]
    simp (disch := decide) only [startedThumb, BitFields.extractLsb'_setWidth]
    simp (disch := decide) only [offsetHalf, BitVec.extractLsb'_append_eq_of_le,
      BitVec.extractLsb'_append_eq_of_add_le, Nat.reduceSub, BitVec.extractLsb'_eq_self]
  have lowest : ((offsetHalf kind offset).setWidth 32).getLsbD 0 = offset.getLsbD 0 := by
    simp (disch := decide) [-BitVec.getLsbD_eq_getElem, offsetHalf]
    exact BitFields.getLsbD_append_low (by decide)
  have simple := @BitFields.sshiftRight_shiftLeft_setWidth 32 11 1 offset (by decide)
  have far := @BitFields.sshiftRight_shiftLeft_setWidth 32 11 12 offset (by decide)
  have doubled := @shiftLeft_append_zeros 11 1 offset (by decide)
  simp only [Nat.reduceSub, BitVec.ofNat_eq_ofNat] at simple far doubled
  have op : (startedThumb prior addr (offsetHalf kind offset)).op =
      (offsetHalf kind offset).setWidth 32 := rfl
  rw [decodeThumb_eq, group]
  simp only [BitVec.toNat_ofNat, Nat.reducePow, Nat.reduceMod]
  rw [Disassembler.decodeT111]
  simp only [op, offsetHalf_low, Disassembler.field, Disassembler.bit, lowest, simple, far, doubled]
    at code ⊢
  rw [code]
  rfl

/-- What the decoder makes of a conditional branch. -/
theorem decodeThumb_conditional {cond : Condition} (valid : cond ≠ .al ∧ cond ≠ .nv)
    (offset : BitVec 8) :
    prior.decodeThumb ((0b1101#4 ++ cond.code ++ offset).setWidth 32) addr =
      { startedThumb prior addr (0b1101#4 ++ cond.code ++ offset) with
        cond := cond, imm := addr + (offset ++ 0#1).signExtend 32 + 4 }.inst .b := by
  have group : (0b1101#4 ++ cond.code ++ offset).extractLsb' 13 3 = 0b110#3 := by
    simp (disch := decide) only [BitVec.extractLsb'_append_eq_of_le, Nat.reduceSub]
    rfl
  have multiple : ((0b1101#4 ++ cond.code ++ offset).setWidth 32).getLsbD 12 = true := by
    simp (disch := decide) [-BitVec.getLsbD_eq_getElem]
    rw [BitFields.getLsbD_append_high (by decide), BitFields.getLsbD_append_high (by decide)]
    rfl
  have code : (startedThumb prior addr (0b1101#4 ++ cond.code ++ offset)).field 8 4 =
      cond.code := by
    rw [Disassembler.field]
    simp (disch := decide) only [startedThumb, BitFields.extractLsb'_setWidth,
      BitVec.extractLsb'_append_eq_of_le, BitVec.extractLsb'_append_eq_of_add_le, Nat.reduceSub,
      BitVec.extractLsb'_eq_self]
  have low : (0b1101#4 ++ cond.code ++ offset).setWidth 32 &&& 0xFF = offset.setWidth 32 := by
    rw [show (0xFF : BitVec 32) = BitVec.ofNat 32 (2 ^ 8 - 1) from rfl, BitFields.and_ones,
      BitFields.extractLsb'_setWidth _ (by decide) (by decide)]
    simp (disch := decide) only [BitVec.extractLsb'_append_eq_of_add_le,
      BitVec.extractLsb'_eq_self]
  have simple := @BitFields.sshiftRight_shiftLeft_setWidth 32 8 1 offset (by decide)
  simp only [Nat.reduceSub, BitVec.ofNat_eq_ofNat] at simple
  have op : (startedThumb prior addr (0b1101#4 ++ cond.code ++ offset)).op =
      (0b1101#4 ++ cond.code ++ offset).setWidth 32 := rfl
  have branching : ((startedThumb prior addr (0b1101#4 ++ cond.code ++ offset)).bit 12) = true :=
    multiple
  rw [decodeThumb_eq, group]
  simp only [BitVec.toNat_ofNat, Nat.reducePow, Nat.reduceMod]
  rw [Disassembler.decodeT110, if_pos branching, Disassembler.decodeT1101BcondSwi]
  simp only [code, Disassembler.ofCode_condition, op, low, simple]
  cases cond <;> first | rfl | exact absurd rfl valid.1 | exact absurd rfl valid.2

theorem decodeT010001SdataB_branch (d : Disassembler) (code : d.field 8 2 = 0b11#2)
    (low : d.field 0 3 = 0#3) :
    d.decodeT010001SdataB =
      { d with rm := d.decodeReg 3, rd := (ofBool (d.bit 7) ++ 0#3 : BitVec 4).toFin, imm := 0,
               shift := .lsl }.inst (if d.bit 7 then .blx else .bx) := by
  have unused : ((0#3).setWidth 4).toFin = 0 := rfl
  simp only [Disassembler.field] at code low
  cases linked : d.op.getLsbD 7
  all_goals
    simp only [Disassembler.decodeT010001SdataB, Disassembler.field, Disassembler.decodeRegt,
      Disassembler.bit, Disassembler.inst, code, low, linked, BitVec.toNat_ofNat, Nat.reducePow,
      Nat.reduceMod, Bool.false_eq_true, if_false, if_true, unused, ne_eq, not_true]

/-- What the decoder makes of a branch to a register. -/
theorem decodeThumb_register (link : Bool) (rm : BitVec 4) :
    prior.decodeThumb ((0b01000111#8 ++ ofBool link ++ rm ++ 0#3).setWidth 32) addr =
      { startedThumb prior addr (0b01000111#8 ++ ofBool link ++ rm ++ 0#3) with
        rm := rm.toFin, rd := (ofBool link ++ 0#3 : BitVec 4).toFin }.inst
          (if link then .blx else .bx) := by
  have group : (0b01000111#8 ++ ofBool link ++ rm ++ 0#3).extractLsb' 13 3 = 0b010#3 := by
    simp (disch := decide) only [BitVec.extractLsb'_append_eq_of_le, Nat.reduceSub]
    rfl
  have wide (index : Nat) (inside : index < 16) :
      ((0b01000111#8 ++ ofBool link ++ rm ++ 0#3).setWidth 32).getLsbD index =
        (0b01000111#8 ++ ofBool link ++ rm ++ 0#3).getLsbD index := by
    simp [-BitVec.getLsbD_eq_getElem, show index < 32 by omega]
  have constant (index : Nat) (above : 8 ≤ index) (inside : index < 16) :
      ((0b01000111#8 ++ ofBool link ++ rm ++ 0#3).setWidth 32).getLsbD index =
        (0b01000111#8).getLsbD (index - 8) := by
    rw [wide index inside, BitFields.getLsbD_append_high (by omega),
      BitFields.getLsbD_append_high (by omega), BitFields.getLsbD_append_high (by omega),
      show index - 3 - 4 - 1 = index - 8 by omega]
  have linked : ((0b01000111#8 ++ ofBool link ++ rm ++ 0#3).setWidth 32).getLsbD 7 = link := by
    rw [wide 7 (by decide), BitFields.getLsbD_append_high (by decide),
      BitFields.getLsbD_append_high (by decide), BitFields.getLsbD_append_low (by decide)]
    simp
  have low : (startedThumb prior addr (0b01000111#8 ++ ofBool link ++ rm ++ 0#3)).field 0 3 =
      0#3 := by
    rw [Disassembler.field]
    simp (disch := decide) only [startedThumb, BitFields.extractLsb'_setWidth,
      BitVec.extractLsb'_append_eq_of_add_le, BitVec.extractLsb'_eq_self]
  have code : (startedThumb prior addr (0b01000111#8 ++ ofBool link ++ rm ++ 0#3)).field 8 2 =
      0b11#2 := by
    rw [Disassembler.field]
    simp (disch := decide) only [startedThumb, BitFields.extractLsb'_setWidth,
      BitVec.extractLsb'_append_eq_of_le, Nat.reduceSub]
    rfl
  have register : (startedThumb prior addr (0b01000111#8 ++ ofBool link ++ rm ++ 0#3)).field 3 4 =
      rm := by
    rw [Disassembler.field]
    simp (disch := decide) only [startedThumb, BitFields.extractLsb'_setWidth,
      BitVec.extractLsb'_append_eq_of_le, BitVec.extractLsb'_append_eq_of_add_le, Nat.reduceSub,
      BitVec.extractLsb'_eq_self]
  have op : (startedThumb prior addr (0b01000111#8 ++ ofBool link ++ rm ++ 0#3)).op =
      (0b01000111#8 ++ ofBool link ++ rm ++ 0#3).setWidth 32 := rfl
  have bits (index : Nat) :
      (startedThumb prior addr (0b01000111#8 ++ ofBool link ++ rm ++ 0#3)).bit index =
        ((0b01000111#8 ++ ofBool link ++ rm ++ 0#3).setWidth 32).getLsbD index := rfl
  rw [decodeThumb_eq, group]
  simp only [BitVec.toNat_ofNat, Nat.reducePow, Nat.reduceMod]
  rw [Disassembler.decodeT010, bits 12, bits 11, bits 10, constant 12 (by decide) (by decide),
    constant 11 (by decide) (by decide), constant 10 (by decide) (by decide), if_neg (by decide),
    if_neg (by decide), if_pos (by decide), decodeT010001SdataB_branch _ code low, bits 7, linked,
    Disassembler.decodeReg, register]
  rfl

end Halfwords

theorem decoded_shows (branch : Branch) (valid : branch.Valid) (prior : Disassembler)
    (addr : BitVec 32) : branch.Shows addr (branch.decoded prior addr) := by
  cases branch with
  | arm link cond offset =>
      have shown := (Disassembler.shown_encode_iff prior valid (.branch link offset) addr).mpr rfl
      refine ⟨shown.instruction, shown.cond, shown.imm, ?_⟩
      simp [register]
  | armRegister link cond rm =>
      cases link with
      | true =>
          have shown := (Disassembler.shown_encode_iff prior valid (.blx rm) addr).mpr rfl
          refine ⟨shown.instruction, shown.cond, by simp [immediate], ?_⟩
          simpa [register, decoded, inThumb, word] using shown.rm rm rfl
      | false =>
          have shown := (Disassembler.shown_encode_iff prior valid (.bx rm) addr).mpr rfl
          refine ⟨shown.instruction, shown.cond, by simp [immediate], ?_⟩
          simpa [register, decoded, inThumb, word] using shown.rm rm rfl
  | thumb offset =>
      have decodes := decodeThumb_offsetHalf prior addr 0b00 offset
      refine ⟨?_, ?_, ?_, by simp [register]⟩
      all_goals simp only [decoded, inThumb, if_true, word, decodes]
      · rfl
      · rfl
      · rintro _ ⟨⟩
        rfl
  | thumbConditional cond offset =>
      have decodes := decodeThumb_conditional prior addr valid offset
      refine ⟨?_, ?_, ?_, by simp [register]⟩
      all_goals simp only [decoded, inThumb, if_true, word, decodes]
      · rfl
      · rfl
      · rintro _ ⟨⟩
        exact add_right_comm addr ((offset ++ 0#1).signExtend 32) 4
  | thumbSuffix exchange offset =>
      cases exchange with
      | false =>
          have decodes := decodeThumb_offsetHalf prior addr 0b11 offset
          refine ⟨?_, ?_, ?_, by simp [register]⟩
          all_goals
            simp only [decoded, inThumb, if_true, word, Bool.false_eq_true, if_false, decodes]
          · rfl
          · rfl
          · rintro _ ⟨⟩
            rfl
      | true =>
          have decodes := decodeThumb_offsetHalf prior addr 0b01 offset
          have even : offset.getLsbD 0 = false := valid rfl
          simp only [even, Bool.false_eq_true, if_false] at decodes
          refine ⟨?_, ?_, ?_, by simp [register]⟩
          all_goals simp only [decoded, inThumb, if_true, word, decodes]
          · rfl
          · rfl
          · rintro _ ⟨⟩
            rfl
  | thumbRegister link rm =>
      have decodes := decodeThumb_register prior addr link rm
      refine ⟨?_, ?_, by simp [immediate], ?_⟩
      all_goals simp only [decoded, inThumb, if_true, word, decodes]
      · cases link <;> rfl
      · rfl
      · rintro _ ⟨⟩
        rfl

/-- What the decoder makes of the first halfword of a long branch. -/
theorem decodeThumb_prefixWord (prior : Disassembler) (addr : BitVec 32) (high : BitVec 11) :
    (prior.decodeThumb (prefixWord high) addr).instruction = .bpre ∧
      (prior.decodeThumb (prefixWord high) addr).cond = .al ∧
      (prior.decodeThumb (prefixWord high) addr).imm = addr + 4 + highOffset high := by
  rw [prefixWord, decodeThumb_offsetHalf]
  exact ⟨rfl, rfl, rfl⟩

/-! ### First halfwords -/

/-- The kind of a halfword of the last group. -/
theorem eq_offsetHalf {half : BitVec 16} (group : half.extractLsb' 13 3 = 0b111#3) :
    half = offsetHalf (half.extractLsb' 11 2) (half.extractLsb' 0 11) := by
  have upper : half.extractLsb' 13 3 ++ half.extractLsb' 11 2 = half.extractLsb' 11 5 :=
    BitVec.extractLsb'_append_extractLsb'_eq_extractLsb' rfl
  have whole : half.extractLsb' 11 5 ++ half.extractLsb' 0 11 = half.extractLsb' 0 16 :=
    BitVec.extractLsb'_append_extractLsb'_eq_extractLsb' rfl
  have same : half.extractLsb' 0 16 = half := BitVec.extractLsb'_eq_self
  rw [offsetHalf, ← group]
  exact (same.symm.trans whole.symm).trans (congrArg (· ++ half.extractLsb' 0 11) upper.symm)

/-- A halfword is decoded as the first one of a long branch exactly if it is one. -/
theorem decodeThumb_bpre_iff (prior : Disassembler) (addr : BitVec 32) (half : BitVec 16) :
    (prior.decodeThumb (half.setWidth 32) addr).instruction = .bpre ↔
      ∃ high, half.setWidth 32 = prefixWord high := by
  constructor
  · intro decodes
    by_cases group : half.extractLsb' 13 3 = 0b111#3
    · have shape := eq_offsetHalf group
      refine ⟨half.extractLsb' 0 11, ?_⟩
      generalize half.extractLsb' 11 2 = kind at shape
      generalize half.extractLsb' 0 11 = high at shape ⊢
      rw [shape, decodeThumb_offsetHalf] at decodes
      have first : kind = 0b10 := by
        have bound := kind.isLt
        apply BitVec.eq_of_toNat_eq
        simp only at decodes
        split at decodes
        · simp [Disassembler.inst] at decodes
        · split at decodes <;> simp [Disassembler.inst, Disassembler.instUd] at decodes
        · assumption
        · simp [Disassembler.inst] at decodes
      rw [shape, first, prefixWord]
    · have others := Disassembler.ofThumb_groups (startedThumb prior addr half)
      -- only the last group has first halfwords of long branches
      have other {kind : Inst} (code : kind.ofThumb = true) : kind ≠ .bpre := by
        rintro rfl
        cases code
      rw [decodeThumb_eq] at decodes
      have below : (half.extractLsb' 13 3).toNat ≠ 7 := by
        intro last
        exact group (BitVec.eq_of_toNat_eq last)
      have bound := (half.extractLsb' 13 3).isLt
      generalize (half.extractLsb' 13 3).toNat = code at decodes below bound
      have codes : code = 0 ∨ code = 1 ∨ code = 2 ∨ code = 3 ∨ code = 4 ∨ code = 5 ∨ code = 6 := by
        omega
      generalize startedThumb prior addr half = d at others decodes
      exfalso
      obtain rfl | rfl | rfl | rfl | rfl | rfl | rfl := codes <;> simp only at decodes
      · exact other others.1 decodes
      · exact other others.2.1 decodes
      · exact other others.2.2.1 decodes
      · exact other others.2.2.2.1 decodes
      · exact other others.2.2.2.2.1 decodes
      · exact other others.2.2.2.2.2.1 decodes
      · exact other others.2.2.2.2.2.2 decodes
  · rintro ⟨high, first⟩
    rw [first]
    exact (decodeThumb_prefixWord prior addr high).1

end Branch

end Ndse
