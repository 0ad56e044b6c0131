import Ndse.ArmDataProcessing
import Ndse.Library.BitFields

/-!
# The encoding of ARM instructions

The instructions the decoder has codes for, their words, and what a decoded
word has to show.  Nothing here is taken from the decoder.
-/

namespace Ndse

open BitVec (ofBool)

namespace Condition

/-- The condition field. -/
def code : Condition → BitVec 4
  | eq => 0 | ne => 1 | cs => 2 | cc => 3 | mi => 4 | pl => 5 | vs => 6 | vc => 7
  | hi => 8 | ls => 9 | ge => 10 | lt => 11 | gt => 12 | le => 13 | al => 14 | nv => 15

end Condition

/-! ### Operands -/

namespace DataOp

def code : DataOp → BitVec 4
  | and => 0 | eor => 1 | sub => 2 | rsb => 3 | add => 4 | adc => 5 | sbc => 6 | rsc => 7
  | tst => 8 | teq => 9 | cmp => 10 | cmn => 11 | orr => 12 | mov => 13 | bic => 14 | mvn => 15

def instI : DataOp → Inst
  | and => .andI | eor => .eorI | sub => .subI | rsb => .rsbI
  | add => .addI | adc => .adcI | sbc => .sbcI | rsc => .rscI
  | tst => .tstI | teq => .teqI | cmp => .cmpI | cmn => .cmnI
  | orr => .orrI | mov => .movI | bic => .bicI | mvn => .mvnI

def instR : DataOp → Inst
  | and => .andR | eor => .eorR | sub => .subR | rsb => .rsbR
  | add => .addR | adc => .adcR | sbc => .sbcR | rsc => .rscR
  | tst => .tstR | teq => .teqR | cmp => .cmpR | cmn => .cmnR
  | orr => .orrR | mov => .movR | bic => .bicR | mvn => .mvnR

def instRR : DataOp → Inst
  | and => .andRR | eor => .eorRR | sub => .subRR | rsb => .rsbRR
  | add => .addRR | adc => .adcRR | sbc => .sbcRR | rsc => .rscRR
  | tst => .tstRR | teq => .teqRR | cmp => .cmpRR | cmn => .cmnRR
  | orr => .orrRR | mov => .movRR | bic => .bicRR | mvn => .mvnRR

end DataOp

/-- An operation with its `S` bit and its first registers. -/
structure DataHead where
  op : DataOp
  s : Bool
  rn : BitVec 4
  rd : BitVec 4
  test_sets : op.writes = false → s = true

/-- The shift kinds of the encoding. -/
inductive ShiftKind
  | lsl | lsr | asr | ror
deriving DecidableEq

namespace ShiftKind

def code : ShiftKind → BitVec 2
  | lsl => 0 | lsr => 1 | asr => 2 | ror => 3

def shift : ShiftKind → Shift
  | lsl => .lsl | lsr => .lsr | asr => .asr | ror => .ror

/-- What a shift by an encoded amount means. -/
def meaning : ShiftKind → BitVec 5 → Shift × BitVec 32
  | lsl, amount => (.lsl, amount.setWidth 32)
  | lsr, amount => (.lsr, if amount = 0 then 32 else amount.setWidth 32)
  | asr, amount => (.asr, if amount = 0 then 32 else amount.setWidth 32)
  | ror, amount => if amount = 0 then (.rrx, 0) else (.ror, amount.setWidth 32)

end ShiftKind

/-- The `P`, `U` and `W` bits of a transfer with its base and its register. -/
structure TransferHead where
  p : Bool
  u : Bool
  w : Bool
  rn : BitVec 4
  rd : BitVec 4

/-- An offset with its sign. -/
def TransferHead.signed (head : TransferHead) (offset : BitVec 32) : BitVec 32 :=
  if head.u then offset else -offset

/-- The small transfers. -/
inductive ExtraKind
  | strh | ldrh | ldrsb | ldrsh
deriving DecidableEq

namespace ExtraKind

def load : ExtraKind → Bool
  | strh => false
  | _ => true

/-- The `S` and `H` bits. -/
def code : ExtraKind → BitVec 2
  | strh | ldrh => 1
  | ldrsb => 2
  | ldrsh => 3

def extendMode : ExtraKind → ExtendMode
  | strh | ldrh => .h
  | ldrsb => .sb
  | ldrsh => .sh

end ExtraKind

/-- The `P` and `U` bits of a multiple transfer. -/
def AddressingMode.code : AddressingMode → BitVec 2
  | da => 0 | ia => 1 | db => 2 | ib => 3

/-- The code of a long multiply. -/
def mulLongInst (signed accumulate : Bool) : Inst :=
  match signed, accumulate with
  | false, false => .umull | false, true => .umlal
  | true, false => .smull | true, true => .smlal

/-- The code of a multiple transfer. -/
def multipleInst (load w : Bool) : Inst :=
  match load, w with
  | false, false => .stm | true, false => .ldm
  | false, true => .stmW | true, true => .ldmW

/-- The code of a small transfer by `P`, `W` and `L`. -/
def strxInst (immediate p w load : Bool) : Inst :=
  match immediate, p, w, load with
  | false, false, false, false => .strxR | false, false, false, true => .ldrxR
  | false, false, true, false => .strxRW | false, false, true, true => .ldrxRW
  | false, true, false, false => .strxRP | false, true, false, true => .ldrxRP
  | false, true, true, false => .strxRPW | false, true, true, true => .ldrxRPW
  | true, false, false, false => .strxI | true, false, false, true => .ldrxI
  | true, false, true, false => .strxIW | true, false, true, true => .ldrxIW
  | true, true, false, false => .strxIP | true, true, false, true => .ldrxIP
  | true, true, true, false => .strxIPW | true, true, true, true => .ldrxIPW

/-- The code of a transfer with an immediate offset by `P`, `B`, `W` and `L`. -/
def transferInstI (p byte w load : Bool) : Inst :=
  match p, byte, w, load with
  | false, false, false, false => .strI | false, false, false, true => .ldrI
  | false, false, true, false => .strIW | false, false, true, true => .ldrIW
  | false, true, false, false => .strbI | false, true, false, true => .ldrbI
  | false, true, true, false => .strbIW | false, true, true, true => .ldrbIW
  | true, false, false, false => .strIP | true, false, false, true => .ldrIP
  | true, false, true, false => .strIPW | true, false, true, true => .ldrIPW
  | true, true, false, false => .strbIP | true, true, false, true => .ldrbIP
  | true, true, true, false => .strbIPW | true, true, true, true => .ldrbIPW

/-- The code of a transfer with a register offset. -/
def transferInstR (p byte w load : Bool) : Inst :=
  match p, byte, w, load with
  | false, false, false, false => .strR | false, false, false, true => .ldrR
  | false, false, true, false => .strRW | false, false, true, true => .ldrRW
  | false, true, false, false => .strbR | false, true, false, true => .ldrbR
  | false, true, true, false => .strbRW | false, true, true, true => .ldrbRW
  | true, false, false, false => .strRP | true, false, false, true => .ldrRP
  | true, false, true, false => .strRPW | true, false, true, true => .ldrRPW
  | true, true, false, false => .strbRP | true, true, false, true => .ldrbRP
  | true, true, true, false => .strbRPW | true, true, true, true => .ldrbRPW

/-! ### Instructions -/

/-- The instructions of the ARM state that the decoder has codes for. -/
inductive ArmInstruction
  | dataImmediate (head : DataHead) (rotate : BitVec 4) (imm8 : BitVec 8)
  | dataShift (head : DataHead) (amount : BitVec 5) (kind : ShiftKind) (rm : BitVec 4)
  | dataRegisterShift (head : DataHead) (rs : BitVec 4) (kind : ShiftKind) (rm : BitVec 4)
  | mrs (spsr : Bool) (rd : BitVec 4)
  | msrRegister (spsr : Bool) (mask rm : BitVec 4)
  | msrImmediate (spsr : Bool) (mask rotate : BitVec 4) (imm8 : BitVec 8)
  | mul (s : Bool) (rd rs rm : BitVec 4)
  | mla (s : Bool) (rd rn rs rm : BitVec 4)
  | mulLong (signed accumulate s : Bool) (rdHi rdLo rs rm : BitVec 4)
  | swp (byte : Bool) (rn rd rm : BitVec 4)
  | bx (rm : BitVec 4)
  | blx (rm : BitVec 4)
  | clz (rd rm : BitVec 4)
  | extraImmediate (kind : ExtraKind) (head : TransferHead) (high low : BitVec 4)
  | extraRegister (kind : ExtraKind) (head : TransferHead) (rm : BitVec 4)
  | transferImmediate (load byte : Bool) (head : TransferHead) (offset : BitVec 12)
  | transferRegister (load byte : Bool) (head : TransferHead) (amount : BitVec 5)
      (kind : ShiftKind) (rm : BitVec 4)
  | multiple (load w s : Bool) (mode : AddressingMode) (rn : BitVec 4) (registers : BitVec 16)
  | branch (link : Bool) (offset : BitVec 24)
  | swi (comment : BitVec 24)
  | coproc (load : Bool) (op1 : BitVec 3) (rn rd cpNum : BitVec 4) (op2 : BitVec 3)
      (rm : BitVec 4)

namespace ArmInstruction

/-- The word of an instruction, from its highest field to its lowest. -/
def encode (cond : Condition) : ArmInstruction → BitVec 32
  | dataImmediate head rotate imm8 =>
      cond.code ++ 0b001#3 ++ head.op.code ++ ofBool head.s ++ head.rn ++ head.rd ++
        rotate ++ imm8
  | dataShift head amount kind rm =>
      cond.code ++ 0b000#3 ++ head.op.code ++ ofBool head.s ++ head.rn ++ head.rd ++
        amount ++ kind.code ++ 0#1 ++ rm
  | dataRegisterShift head rs kind rm =>
      cond.code ++ 0b000#3 ++ head.op.code ++ ofBool head.s ++ head.rn ++ head.rd ++
        rs ++ 0#1 ++ kind.code ++ 1#1 ++ rm
  | mrs spsr rd =>
      cond.code ++ 0b000#3 ++ 0b10#2 ++ ofBool spsr ++ 0#1 ++ 0#1 ++ 0xF#4 ++ rd ++
        0x0#4 ++ 0#1 ++ 0b000#3 ++ 0x0#4
  | msrRegister spsr mask rm =>
      cond.code ++ 0b000#3 ++ 0b10#2 ++ ofBool spsr ++ 1#1 ++ 0#1 ++ mask ++ 0xF#4 ++
        0x0#4 ++ 0#1 ++ 0b000#3 ++ rm
  | msrImmediate spsr mask rotate imm8 =>
      cond.code ++ 0b001#3 ++ 0b10#2 ++ ofBool spsr ++ 1#1 ++ 0#1 ++ mask ++ 0xF#4 ++
        rotate ++ imm8
  | mul s rd rs rm =>
      cond.code ++ 0b000#3 ++ 0b00#2 ++ 0#1 ++ 0#1 ++ ofBool s ++ rd ++ 0x0#4 ++ rs ++
        0b1001#4 ++ rm
  | mla s rd rn rs rm =>
      cond.code ++ 0b000#3 ++ 0b00#2 ++ 0#1 ++ 1#1 ++ ofBool s ++ rd ++ rn ++ rs ++
        0b1001#4 ++ rm
  | mulLong signed accumulate s rdHi rdLo rs rm =>
      cond.code ++ 0b000#3 ++ 0b01#2 ++ ofBool signed ++ ofBool accumulate ++ ofBool s ++
        rdHi ++ rdLo ++ rs ++ 0b1001#4 ++ rm
  | swp byte rn rd rm =>
      cond.code ++ 0b000#3 ++ 0b10#2 ++ ofBool byte ++ 0#1 ++ 0#1 ++ rn ++ rd ++ 0x0#4 ++
        0b1001#4 ++ rm
  | bx rm =>
      cond.code ++ 0b000#3 ++ 0b10#2 ++ 0#1 ++ 1#1 ++ 0#1 ++ 0xF#4 ++ 0xF#4 ++ 0xF#4 ++
        0#1 ++ 0b001#3 ++ rm
  | blx rm =>
      cond.code ++ 0b000#3 ++ 0b10#2 ++ 0#1 ++ 1#1 ++ 0#1 ++ 0xF#4 ++ 0xF#4 ++ 0xF#4 ++
        0#1 ++ 0b011#3 ++ rm
  | clz rd rm =>
      cond.code ++ 0b000#3 ++ 0b10#2 ++ 1#1 ++ 1#1 ++ 0#1 ++ 0xF#4 ++ rd ++ 0xF#4 ++
        0#1 ++ 0b001#3 ++ rm
  | extraImmediate kind head high low =>
      cond.code ++ 0b000#3 ++ ofBool head.p ++ ofBool head.u ++ 1#1 ++ ofBool head.w ++
        ofBool kind.load ++ head.rn ++ head.rd ++ high ++ 1#1 ++ kind.code ++ 1#1 ++ low
  | extraRegister kind head rm =>
      cond.code ++ 0b000#3 ++ ofBool head.p ++ ofBool head.u ++ 0#1 ++ ofBool head.w ++
        ofBool kind.load ++ head.rn ++ head.rd ++ 0x0#4 ++ 1#1 ++ kind.code ++ 1#1 ++ rm
  | transferImmediate load byte head offset =>
      cond.code ++ 0b010#3 ++ ofBool head.p ++ ofBool head.u ++ ofBool byte ++ ofBool head.w ++
        ofBool load ++ head.rn ++ head.rd ++ offset
  | transferRegister load byte head amount kind rm =>
      cond.code ++ 0b011#3 ++ ofBool head.p ++ ofBool head.u ++ ofBool byte ++ ofBool head.w ++
        ofBool load ++ head.rn ++ head.rd ++ amount ++ kind.code ++ 0#1 ++ rm
  | multiple load w s mode rn registers =>
      cond.code ++ 0b100#3 ++ mode.code ++ ofBool s ++ ofBool w ++ ofBool load ++ rn ++ registers
  | branch link offset => cond.code ++ 0b101#3 ++ ofBool link ++ offset
  | swi comment => cond.code ++ 0b111#3 ++ 1#1 ++ comment
  | coproc load op1 rn rd cpNum op2 rm =>
      cond.code ++ 0b111#3 ++ 0#1 ++ op1 ++ ofBool load ++ rn ++ rd ++ cpNum ++ op2 ++ 1#1 ++ rm

/-- The three bits that tell the groups of instructions apart. -/
def group : ArmInstruction → BitVec 3
  | dataImmediate .. | msrImmediate .. => 0b001
  | transferImmediate .. => 0b010
  | transferRegister .. => 0b011
  | multiple .. => 0b100
  | branch .. => 0b101
  | swi .. | coproc .. => 0b111
  | _ => 0b000

/-- Where a word below its condition has the fields of an instruction. -/
def Placed (word : BitVec 32) : ArmInstruction → Prop
  | dataImmediate head rotate imm8 =>
      word.extractLsb' 21 4 = head.op.code ∧ word.getLsbD 20 = head.s ∧
        word.extractLsb' 16 4 = head.rn ∧ word.extractLsb' 12 4 = head.rd ∧
        word.extractLsb' 8 4 = rotate ∧ word.extractLsb' 0 8 = imm8
  | dataShift head amount kind rm =>
      word.extractLsb' 21 4 = head.op.code ∧ word.getLsbD 20 = head.s ∧
        word.extractLsb' 16 4 = head.rn ∧ word.extractLsb' 12 4 = head.rd ∧
        word.extractLsb' 7 5 = amount ∧ word.extractLsb' 5 2 = kind.code ∧
        word.getLsbD 4 = false ∧ word.extractLsb' 0 4 = rm
  | dataRegisterShift head rs kind rm =>
      word.extractLsb' 21 4 = head.op.code ∧ word.getLsbD 20 = head.s ∧
        word.extractLsb' 16 4 = head.rn ∧ word.extractLsb' 12 4 = head.rd ∧
        word.extractLsb' 8 4 = rs ∧ word.getLsbD 7 = false ∧
        word.extractLsb' 5 2 = kind.code ∧ word.getLsbD 4 = true ∧ word.extractLsb' 0 4 = rm
  | mrs spsr rd =>
      word.extractLsb' 23 2 = 0b10 ∧ word.getLsbD 22 = spsr ∧ word.getLsbD 21 = false ∧
        word.getLsbD 20 = false ∧ word.extractLsb' 16 4 = 0xF ∧ word.extractLsb' 12 4 = rd ∧
        word.extractLsb' 8 4 = 0 ∧ word.getLsbD 7 = false ∧ word.extractLsb' 5 2 = 0 ∧
        word.getLsbD 4 = false ∧ word.extractLsb' 4 3 = 0
  | msrRegister spsr mask rm =>
      word.extractLsb' 23 2 = 0b10 ∧ word.getLsbD 22 = spsr ∧ word.getLsbD 21 = true ∧
        word.getLsbD 20 = false ∧ word.extractLsb' 16 4 = mask ∧ word.extractLsb' 12 4 = 0xF ∧
        word.extractLsb' 8 4 = 0 ∧ word.getLsbD 7 = false ∧ word.extractLsb' 5 2 = 0 ∧
        word.getLsbD 4 = false ∧ word.extractLsb' 4 3 = 0 ∧ word.extractLsb' 0 4 = rm
  | msrImmediate spsr mask rotate imm8 =>
      word.extractLsb' 23 2 = 0b10 ∧ word.getLsbD 22 = spsr ∧ word.getLsbD 21 = true ∧
        word.getLsbD 20 = false ∧ word.extractLsb' 16 4 = mask ∧ word.extractLsb' 12 4 = 0xF ∧
        word.extractLsb' 8 4 = rotate ∧ word.extractLsb' 0 8 = imm8
  | mul s rd rs rm =>
      word.extractLsb' 23 2 = 0b00 ∧ word.getLsbD 22 = false ∧ word.getLsbD 21 = false ∧
        word.getLsbD 20 = s ∧ word.extractLsb' 16 4 = rd ∧ word.extractLsb' 12 4 = 0 ∧
        word.extractLsb' 8 4 = rs ∧ word.getLsbD 7 = true ∧ word.extractLsb' 5 2 = 0 ∧
        word.getLsbD 4 = true ∧ word.extractLsb' 0 4 = rm
  | mla s rd rn rs rm =>
      word.extractLsb' 23 2 = 0b00 ∧ word.getLsbD 22 = false ∧ word.getLsbD 21 = true ∧
        word.getLsbD 20 = s ∧ word.extractLsb' 16 4 = rd ∧ word.extractLsb' 12 4 = rn ∧
        word.extractLsb' 8 4 = rs ∧ word.getLsbD 7 = true ∧ word.extractLsb' 5 2 = 0 ∧
        word.getLsbD 4 = true ∧ word.extractLsb' 0 4 = rm
  | mulLong signed accumulate s rdHi rdLo rs rm =>
      word.extractLsb' 23 2 = 0b01 ∧ word.getLsbD 22 = signed ∧
        word.getLsbD 21 = accumulate ∧ word.getLsbD 20 = s ∧ word.extractLsb' 16 4 = rdHi ∧
        word.extractLsb' 12 4 = rdLo ∧ word.extractLsb' 8 4 = rs ∧ word.getLsbD 7 = true ∧
        word.extractLsb' 5 2 = 0 ∧ word.getLsbD 4 = true ∧ word.extractLsb' 0 4 = rm
  | swp byte rn rd rm =>
      word.extractLsb' 23 2 = 0b10 ∧ word.getLsbD 22 = byte ∧ word.getLsbD 21 = false ∧
        word.getLsbD 20 = false ∧ word.extractLsb' 16 4 = rn ∧ word.extractLsb' 12 4 = rd ∧
        word.getLsbD 7 = true ∧ word.extractLsb' 5 2 = 0 ∧ word.getLsbD 4 = true ∧
        word.extractLsb' 0 4 = rm
  | bx rm =>
      word.extractLsb' 23 2 = 0b10 ∧ word.getLsbD 22 = false ∧ word.getLsbD 21 = true ∧
        word.getLsbD 20 = false ∧ word.extractLsb' 16 4 = 0xF ∧ word.extractLsb' 12 4 = 0xF ∧
        word.extractLsb' 8 4 = 0xF ∧ word.getLsbD 7 = false ∧ word.getLsbD 4 = true ∧
        word.extractLsb' 4 3 = 0b001 ∧ word.extractLsb' 0 4 = rm
  | blx rm =>
      word.extractLsb' 23 2 = 0b10 ∧ word.getLsbD 22 = false ∧ word.getLsbD 21 = true ∧
        word.getLsbD 20 = false ∧ word.extractLsb' 16 4 = 0xF ∧ word.extractLsb' 12 4 = 0xF ∧
        word.extractLsb' 8 4 = 0xF ∧ word.getLsbD 7 = false ∧ word.getLsbD 4 = true ∧
        word.extractLsb' 4 3 = 0b011 ∧ word.extractLsb' 0 4 = rm
  | clz rd rm =>
      word.extractLsb' 23 2 = 0b10 ∧ word.getLsbD 22 = true ∧ word.getLsbD 21 = true ∧
        word.getLsbD 20 = false ∧ word.extractLsb' 16 4 = 0xF ∧ word.extractLsb' 12 4 = rd ∧
        word.extractLsb' 8 4 = 0xF ∧ word.getLsbD 7 = false ∧ word.getLsbD 4 = true ∧
        word.extractLsb' 4 3 = 0b001 ∧ word.extractLsb' 0 4 = rm
  | extraImmediate kind head high low =>
      word.getLsbD 24 = head.p ∧ word.getLsbD 23 = head.u ∧ word.getLsbD 22 = true ∧
        word.getLsbD 21 = head.w ∧ word.getLsbD 20 = kind.load ∧
        word.extractLsb' 16 4 = head.rn ∧ word.extractLsb' 12 4 = head.rd ∧
        word.extractLsb' 8 4 = high ∧ word.getLsbD 7 = true ∧
        word.extractLsb' 5 2 = kind.code ∧ word.getLsbD 4 = true ∧ word.extractLsb' 0 4 = low
  | extraRegister kind head rm =>
      word.getLsbD 24 = head.p ∧ word.getLsbD 23 = head.u ∧ word.getLsbD 22 = false ∧
        word.getLsbD 21 = head.w ∧ word.getLsbD 20 = kind.load ∧
        word.extractLsb' 16 4 = head.rn ∧ word.extractLsb' 12 4 = head.rd ∧
        word.getLsbD 7 = true ∧ word.extractLsb' 5 2 = kind.code ∧ word.getLsbD 4 = true ∧
        word.extractLsb' 0 4 = rm
  | transferImmediate load byte head offset =>
      word.getLsbD 24 = head.p ∧ word.getLsbD 23 = head.u ∧ word.getLsbD 22 = byte ∧
        word.getLsbD 21 = head.w ∧ word.getLsbD 20 = load ∧
        word.extractLsb' 16 4 = head.rn ∧ word.extractLsb' 12 4 = head.rd ∧
        word.extractLsb' 0 12 = offset
  | transferRegister load byte head amount kind rm =>
      word.getLsbD 24 = head.p ∧ word.getLsbD 23 = head.u ∧ word.getLsbD 22 = byte ∧
        word.getLsbD 21 = head.w ∧ word.getLsbD 20 = load ∧
        word.extractLsb' 16 4 = head.rn ∧ word.extractLsb' 12 4 = head.rd ∧
        word.extractLsb' 7 5 = amount ∧ word.extractLsb' 5 2 = kind.code ∧
        word.getLsbD 4 = false ∧ word.extractLsb' 0 4 = rm
  | multiple load w s mode rn registers =>
      word.extractLsb' 23 2 = mode.code ∧ word.getLsbD 22 = s ∧ word.getLsbD 21 = w ∧
        word.getLsbD 20 = load ∧ word.extractLsb' 16 4 = rn ∧ word.extractLsb' 0 16 = registers
  | branch link offset => word.getLsbD 24 = link ∧ word.extractLsb' 0 24 = offset
  | swi comment => word.getLsbD 24 = true ∧ word.extractLsb' 0 24 = comment
  | coproc load op1 rn rd cpNum op2 rm =>
      word.getLsbD 24 = false ∧ word.extractLsb' 21 3 = op1 ∧ word.getLsbD 20 = load ∧
        word.extractLsb' 16 4 = rn ∧ word.extractLsb' 12 4 = rd ∧
        word.extractLsb' 8 4 = cpNum ∧ word.extractLsb' 5 3 = op2 ∧ word.getLsbD 4 = true ∧
        word.extractLsb' 0 4 = rm

theorem placed_encode (cond : Condition) (form : ArmInstruction) :
    form.Placed (form.encode cond) := by
  cases form <;>
    simp (disch := decide) only [Placed, encode, BitVec.extractLsb'_append_eq_of_le,
      BitVec.extractLsb'_append_eq_of_add_le, Nat.reduceSub, BitVec.extractLsb'_eq_self,
      BitFields.getLsbD_append_high, BitFields.getLsbD_append_low, BitVec.getLsbD_ofBool,
      decide_true, Bool.true_and, true_and, and_true] <;>
    decide

theorem condition_encode (cond : Condition) (form : ArmInstruction) :
    (form.encode cond).extractLsb' 28 4 = cond.code := by
  cases form <;>
    simp (disch := decide) only [encode, BitVec.extractLsb'_append_eq_of_le, Nat.reduceSub,
      BitVec.extractLsb'_eq_self]

theorem group_encode (cond : Condition) (form : ArmInstruction) :
    (form.encode cond).extractLsb' 25 3 = form.group := by
  cases form <;>
    simp (disch := decide) only [encode, BitVec.extractLsb'_append_eq_of_le,
      BitVec.extractLsb'_append_eq_of_add_le, Nat.reduceSub, BitVec.extractLsb'_eq_self] <;>
    rfl

end ArmInstruction

/-! ### What a decoded word shows -/

/-- The fields an instruction has; one that it does not have is left open. -/
structure DecodedFields where
  instruction : Inst
  rd : Option (BitVec 4) := none
  rn : Option (BitVec 4) := none
  rm : Option (BitVec 4) := none
  rs : Option (BitVec 4) := none
  imm : Option (BitVec 32) := none
  shift : Option Shift := none
  sBit : Bool := false
  uBit : Option Bool := none
  extendMode : Option ExtendMode := none
  addressingMode : Option AddressingMode := none
  cpNum : Option (BitVec 4) := none
  cpOp1 : Option (BitVec 3) := none
  cpOp2 : Option (BitVec 3) := none

/-- A context shows the fields under a condition. -/
structure DecodedFields.Shown (fields : DecodedFields) (cond : Condition) (ctx : Context) :
    Prop where
  instruction : ctx.instruction = fields.instruction
  cond : ctx.cond = cond
  rd : ∀ r ∈ fields.rd, ctx.rd = r.toFin
  rn : ∀ r ∈ fields.rn, ctx.rn = r.toFin
  rm : ∀ r ∈ fields.rm, ctx.rm = r.toFin
  rs : ∀ r ∈ fields.rs, ctx.rs = r.toFin
  imm : ∀ value ∈ fields.imm, ctx.imm = value
  shift : ∀ shift ∈ fields.shift, ctx.shift = shift
  sBit : ctx.sBit = fields.sBit
  uBit : ∀ u ∈ fields.uBit, ctx.uBit = u
  extendMode : ∀ mode ∈ fields.extendMode, ctx.extendMode = mode
  addressingMode : ∀ mode ∈ fields.addressingMode, ctx.addressingMode = mode
  cpNum : ∀ r ∈ fields.cpNum, ctx.cpNum = r.toFin
  cpOp1 : ∀ op ∈ fields.cpOp1, ctx.cpOp1 = op.toFin
  cpOp2 : ∀ op ∈ fields.cpOp2, ctx.cpOp2 = op.toFin

namespace ArmInstruction

/-- An eight-bit value rotated right by twice a field. -/
def rotated (rotate : BitVec 4) (imm8 : BitVec 8) : BitVec 32 :=
  (imm8.setWidth 32).rotateRight (2 * rotate.toNat)

/-- What the word of an instruction at an address shows. -/
def fields (addr : BitVec 32) : ArmInstruction → DecodedFields
  | dataImmediate head rotate imm8 =>
      { instruction := head.op.instI, sBit := head.s, rn := head.rn, rd := head.rd
        imm := rotated rotate imm8 }
  | dataShift head amount kind rm =>
      { instruction := head.op.instR, sBit := head.s, rn := head.rn, rd := head.rd, rm := rm
        shift := (kind.meaning amount).1, imm := (kind.meaning amount).2 }
  | dataRegisterShift head rs kind rm =>
      { instruction := head.op.instRR, sBit := head.s, rn := head.rn, rd := head.rd, rm := rm
        rs := rs, shift := kind.shift }
  | mrs spsr rd => { instruction := if spsr then .mrsSpsr else .mrsCpsr, rd := rd }
  | msrRegister spsr mask rm =>
      { instruction := if spsr then .msrSpsrR else .msrCpsrR, rn := mask, rm := rm }
  | msrImmediate spsr mask rotate imm8 =>
      { instruction := if spsr then .msrSpsrI else .msrCpsrI, rn := mask
        imm := rotated rotate imm8 }
  | mul s rd rs rm => { instruction := .mulR, sBit := s, rd := rd, rs := rs, rm := rm }
  | mla s rd rn rs rm =>
      { instruction := .mlaR, sBit := s, rd := rd, rn := rn, rs := rs, rm := rm }
  | mulLong signed accumulate s rdHi rdLo rs rm =>
      { instruction := mulLongInst signed accumulate, sBit := s, rn := rdHi, rd := rdLo
        rs := rs, rm := rm }
  | swp byte rn rd rm =>
      { instruction := if byte then .swpb else .swp, rn := rn, rd := rd, rm := rm }
  | bx rm => { instruction := .bx, rm := rm }
  | blx rm => { instruction := .blx, rm := rm }
  | clz rd rm => { instruction := .clz, rd := rd, rm := rm }
  | extraImmediate kind head high low =>
      { instruction := strxInst true head.p head.w kind.load, rn := head.rn, rd := head.rd
        extendMode := kind.extendMode, uBit := head.u
        imm := head.signed ((high ++ low).setWidth 32) }
  | extraRegister kind head rm =>
      { instruction := strxInst false head.p head.w kind.load, rn := head.rn, rd := head.rd
        rm := rm, extendMode := kind.extendMode, uBit := head.u
        shift := Shift.lsl, imm := some 0 }
  | transferImmediate load byte head offset =>
      { instruction := transferInstI head.p byte head.w load, rn := head.rn, rd := head.rd
        uBit := head.u, imm := head.signed (offset.setWidth 32) }
  | transferRegister load byte head amount kind rm =>
      { instruction := transferInstR head.p byte head.w load, rn := head.rn, rd := head.rd
        rm := rm, uBit := head.u
        shift := (kind.meaning amount).1, imm := (kind.meaning amount).2 }
  | multiple load w s mode rn registers =>
      { instruction := multipleInst load w, rn := rn, imm := registers.setWidth 32, sBit := s
        addressingMode := mode }
  | branch link offset =>
      { instruction := if link then .bl else .b, imm := addr + 8 + (offset ++ 0#2).signExtend 32 }
  | swi comment => { instruction := .swi, imm := comment.setWidth 32 }
  | coproc load op1 rn rd cpNum op2 rm =>
      { instruction := if load then .mrc else .mcr, rn := rn, rd := rd, rm := rm
        cpNum := cpNum, cpOp1 := op1, cpOp2 := op2 }

end ArmInstruction

end Ndse
