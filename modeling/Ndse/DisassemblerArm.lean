import Ndse.Disassembler

/-!
# The ARM decoder

The decoder writes the fields of its context on the way down a tree of bit
tests, so a context holds what the last branch has written over what earlier
branches and earlier instructions have left there.
-/

namespace Ndse

namespace Condition

/-- `(CONDITION::CODE)` of a number. -/
def ofCode (code : BitVec 4) : Condition :=
  match code.toNat with
  | 0 => eq | 1 => ne | 2 => cs | 3 => cc | 4 => mi | 5 => pl | 6 => vs | 7 => vc
  | 8 => hi | 9 => ls | 10 => ge | 11 => lt | 12 => gt | 13 => le | 14 => al | _ => nv

end Condition

namespace Shift

/-- `(SHIFT::CODE)` of two bits. -/
def ofCode (code : BitVec 2) : Shift :=
  match code.toNat with
  | 0 => lsl | 1 => lsr | 2 => asr | _ => ror

end Shift

namespace ExtendMode

/-- `(EXTEND_MODE::CODE)` of two bits. -/
def ofCode (code : BitVec 2) : ExtendMode :=
  match code.toNat with
  | 0 => invalid | 1 => h | 2 => sb | _ => sh

end ExtendMode

namespace AddressingMode

/-- `(ADDRESSING_MODE::CODE)` of two bits. -/
def ofCode (code : BitVec 2) : AddressingMode :=
  match code.toNat with
  | 0 => da | 1 => ia | 2 => db | _ => ib

end AddressingMode

/-- `disassembler`: the context with the word and the address it decodes, and
the third bit of `flags`, `S_CONSUMING`. -/
structure Disassembler extends Context where
  op : BitVec 32
  addr : BitVec 32
  sConsuming : Bool
deriving DecidableEq

namespace Disassembler

/-- `ctx.op & (1 << n)`. -/
def bit (d : Disassembler) (n : Nat) : Bool := d.op.getLsbD n

/-- `(ctx.op >> start) & mask` for a mask of `len` ones. -/
def field (d : Disassembler) (start len : Nat) : BitVec len := d.op.extractLsb' start len

/-- `if (ctx.op & (1 << n)) ctx.flags |= S_BIT`. -/
def flagS (d : Disassembler) (n : Nat) : Disassembler := { d with sBit := d.sBit || d.bit n }

/-- `if (ctx.op & (1 << 23)) ctx.flags |= U_BIT`. -/
def flagU (d : Disassembler) : Disassembler := { d with uBit := d.uBit || d.bit 23 }

/-- `ctx.instruction = code`. -/
def inst (d : Disassembler) (code : Inst) : Disassembler := { d with instruction := code }

def instUd (d : Disassembler) : Disassembler := d.inst .ud
def instDebug (d : Disassembler) : Disassembler := d.inst .debug
def instUnknown (d : Disassembler) : Disassembler := d.inst .unknown

/-- `decode_condition`. -/
def decodeCondition (d : Disassembler) : Disassembler :=
  { d with cond := .ofCode (d.field 28 4) }

/-- `decode_reg<n>`. -/
def decodeReg (d : Disassembler) (n : Nat) : Fin 16 := (d.field n 4).toFin

/-- The registers at their usual places. -/
def decodeRegisters (d : Disassembler) : Disassembler :=
  { d with rn := d.decodeReg 16, rd := d.decodeReg 12, rm := d.decodeReg 0 }

/-- `decode_shift`. -/
def decodeShift (d : Disassembler) : Disassembler :=
  let shift := Shift.ofCode (d.field 5 2)
  let imm := (d.field 7 5).setWidth 32
  if imm = 0 ∧ shift ≠ .lsl then
    if shift = .ror then { d with shift := .rrx, imm := imm }
    else { d with shift := shift, imm := 32 }
  else { d with shift := shift, imm := imm }

/-- `decode_shift_reg`. -/
def decodeShiftReg (d : Disassembler) : Disassembler :=
  { d with shift := .ofCode (d.field 5 2), rs := d.decodeReg 8 }

/-- `decode_simm24`. -/
def decodeSimm24 (d : Disassembler) : Disassembler :=
  let addr := d.op &&& 0x00FFFFFF
  { d with imm := (addr <<< 8).sshiftRight 6 + d.addr + 8 }

/-- `decode_imm_shifter`. -/
def decodeImmShifter (d : Disassembler) : Disassembler :=
  let imm8 := d.op &&& 0xFF
  let rot := (d.op >>> 7) &&& 0x1E
  { d with imm := imm8.rotateRight rot.toNat }

/-- `decode_addressingmode2`. -/
def decodeAddressingmode2 (d : Disassembler) : Disassembler :=
  let d := { d with rn := d.decodeReg 16, rd := d.decodeReg 12 }
  { d.flagU with imm := if d.bit 23 then d.op &&& 0xFFF else -(d.op &&& 0xFFF) }

/-- `decode_instruction_NV`. -/
def decodeInstructionNV (d : Disassembler) : Disassembler :=
  if d.op &&& 0x0D700000 = 0x5500000 then
    let d := d.decodeAddressingmode2
    if d.rd = 0xF then
      if d.bit 25 then d.inst .pldI else d.inst .pldR
    else d.instUd
  else d.instUd

/-! ### The group of data processing, multiplies and small transfers -/

/-- `decode_misc`. -/
def decodeMisc (d : Disassembler) : Disassembler :=
  let subOp := (d.field 21 2).toNat
  if d.bit 7 then d.instUd
  else match (d.field 4 3).toNat with
    | 0x0 =>
        if d.rs ≠ 0x0 then d.instUnknown
        else match subOp with
          | 0x0 => if d.rn ≠ 0xF then d.instUnknown else d.inst .mrsCpsr
          | 0x1 => if d.rd ≠ 0xF then d.instUnknown else d.inst .msrCpsrR
          | 0x2 => if d.rn ≠ 0xF then d.instUnknown else d.inst .mrsSpsr
          | _ => if d.rd ≠ 0xF then d.instUnknown else d.inst .msrSpsrR
    | 0x1 =>
        if d.rn ≠ 0xF ∨ d.rs ≠ 0xF then d.instUnknown
        else match subOp with
          | 0x1 => if d.rd ≠ 0xF then d.instUnknown else d.inst .bx
          | 0x3 => d.inst .clz
          | _ => d.instUd
    | 0x3 =>
        if subOp ≠ 0x1 then d.instUd
        else if d.rn ≠ 0xF ∨ d.rd ≠ 0xF ∨ d.rs ≠ 0xF then d.instUnknown
        else d.inst .blx
    | 0x7 =>
        if subOp ≠ 0x1 then d.instUd
        else if d.cond ≠ .al then d.instUnknown
        else
          let d := { d with imm := (d.op &&& 0xF) ||| ((d.op &&& 0xFFF00) >>> 4) }
          (d.inst .bkpt).instDebug
    | _ => d.instUd

/-- `decode_misc2`. -/
def decodeMisc2 (d : Disassembler) : Disassembler :=
  { d with rs := d.decodeReg 8 }.decodeMisc

/-- `inst_ldrd`. -/
def instLdrd (d : Disassembler) : Disassembler :=
  match ((d.op >>> 21) &&& 0xB).toNat with
  | 0x0 => d.inst .ldrdR
  | 0x1 => d.inst .ldrdRW
  | 0x2 => d.inst .ldrdRI
  | 0x3 => d.inst .ldrdRIW
  | 0x8 => d.inst .ldrdRP
  | 0x9 => d.inst .ldrdRPW
  | 0xA => d.inst .ldrdRIP
  | _ => d.inst .ldrdRIPW

/-- `decode_00000_mula`. -/
def decode00000Mula (d : Disassembler) : Disassembler :=
  if d.bit 22 then d.instUd
  else
    let d := { d with rs := d.decodeReg 8, rn := d.decodeReg 12, rd := d.decodeReg 16 }
    let d := d.flagS 20
    match (d.field 20 2).toNat with
    | 0x0 => if d.rn ≠ 0 then d.instUnknown else d.inst .mulR
    | 0x1 =>
        let d := { d with sBit := true }
        if d.rn ≠ 0 then d.instUnknown else d.inst .mulR
    | 0x2 => d.inst .mlaR
    | _ => { d with sBit := true }.inst .mlaR

/-- `decode_00001_mulal`. -/
def decode00001Mulal (d : Disassembler) : Disassembler :=
  let d := { d with rs := d.decodeReg 8 }
  let d := d.flagS 20
  match (d.field 21 2).toNat with
  | 0 => d.inst .umull
  | 1 => d.inst .umlal
  | 2 => d.inst .smull
  | _ => d.inst .smlal

/-- `decode_00010_swap`. -/
def decode00010Swap (d : Disassembler) : Disassembler :=
  match (d.field 20 3).toNat with
  | 0 => d.inst .swp
  | 4 => d.inst .swpb
  | _ => d.instUd

/-- `decode_000_mulswap`. -/
def decode000Mulswap (d : Disassembler) : Disassembler :=
  match (d.field 23 2).toNat with
  | 0x0 => d.decode00000Mula
  | 0x1 => d.decode00001Mulal
  | 0x2 => d.decode00010Swap
  | _ => d.instUd

/-- The `PBWL` or `PIWL` bits, `(ctx.op >> 20) & 0x17`. -/
def pbwl (d : Disassembler) : BitVec 32 := (d.op >>> 20) &&& 0x17

/-- The register forms of the small transfers. -/
def instStrxR (d : Disassembler) (code : Inst) : Disassembler :=
  { d.inst code with imm := 0, shift := .lsl }

/-- The switch of `decode_000_mul_extraloadstore`. -/
def instStrx (d : Disassembler) : Disassembler :=
  match d.pbwl.toNat with
  | 0x00 => d.instStrxR .strxR
  | 0x01 => d.instStrxR .ldrxR
  | 0x02 => d.instStrxR .strxRW
  | 0x03 => d.instStrxR .ldrxRW
  | 0x04 => d.inst .strxI
  | 0x05 => d.inst .ldrxI
  | 0x06 => d.inst .strxIW
  | 0x07 => d.inst .ldrxIW
  | 0x10 => d.instStrxR .strxRP
  | 0x11 => d.instStrxR .ldrxRP
  | 0x12 => d.instStrxR .strxRPW
  | 0x13 => d.instStrxR .ldrxRPW
  | 0x14 => d.inst .strxIP
  | 0x15 => d.inst .ldrxIP
  | 0x16 => d.inst .strxIPW
  | _ => d.inst .ldrxIPW

/-- The offset and the extend mode `decode_000_mul_extraloadstore` starts with,
also for what turns out to be a multiply. -/
def decodeExtra (d : Disassembler) : Disassembler :=
  let imm := ((d.op &&& 0xF00) >>> 4) ||| BitVec.ofNat 32 d.rm
  { d.flagU with imm := if d.bit 23 then imm else -imm, extendMode := .ofCode (d.field 5 2) }

/-- `decode_000_mul_extraloadstore`. -/
def decode000MulExtraloadstore (d : Disassembler) : Disassembler :=
  let d := d.decodeExtra
  match d.extendMode with
  | .invalid => d.decode000Mulswap
  | .sb => if d.bit 20 then d.instStrx else d.instLdrd
  | _ => d.instStrx

/-- `ctx.flags |= S_CONSUMING` after the instruction code. -/
def instConsuming (d : Disassembler) (code : Inst) : Disassembler :=
  { d.inst code with sConsuming := true }

/-- `decode_000_regs`. -/
def decode000Regs (d : Disassembler) : Disassembler :=
  if d.bit 7 then d.decode000MulExtraloadstore
  else
    let sbit := d.bit 20
    let d := d.flagS 20
    let d := d.decodeShiftReg
    match (d.field 21 4).toNat with
    | 0x0 => d.inst .andRR
    | 0x1 => d.inst .eorRR
    | 0x2 => d.inst .subRR
    | 0x3 => d.inst .rsbRR
    | 0x4 => d.inst .addRR
    | 0x5 => d.instConsuming .adcRR
    | 0x6 => d.instConsuming .sbcRR
    | 0x7 => d.inst .rscRR
    | 0x8 => if sbit then d.inst .tstRR else d.decodeMisc
    | 0x9 => if sbit then d.inst .teqRR else d.decodeMisc
    | 0xA => if sbit then d.inst .cmpRR else d.decodeMisc
    | 0xB => if sbit then d.inst .cmnRR else d.decodeMisc
    | 0xC => d.inst .orrRR
    | 0xD => d.inst .movRR
    | 0xE => d.inst .bicRR
    | _ => d.inst .mvnRR

/-- `decode_000_imms`. -/
def decode000Imms (d : Disassembler) : Disassembler :=
  let sbit := d.bit 20
  let d := d.flagS 20
  let d := d.decodeShift
  match (d.field 21 4).toNat with
  | 0x0 => d.inst .andR
  | 0x1 => d.inst .eorR
  | 0x2 => d.inst .subR
  | 0x3 => d.inst .rsbR
  | 0x4 => d.inst .addR
  | 0x5 => d.instConsuming .adcR
  | 0x6 => d.instConsuming .sbcR
  | 0x7 => d.inst .rscR
  | 0x8 => if sbit then d.inst .tstR else d.decodeMisc2
  | 0x9 => if sbit then d.inst .teqR else d.decodeMisc2
  | 0xA => if sbit then d.inst .cmpR else d.decodeMisc2
  | 0xB => if sbit then d.inst .cmnR else d.decodeMisc2
  | 0xC => d.inst .orrR
  | 0xD => d.inst .movR
  | 0xE => d.inst .bicR
  | _ => d.inst .mvnR

/-- `decode_000_data_reg`. -/
def decode000DataReg (d : Disassembler) : Disassembler :=
  let d := d.decodeRegisters
  if d.bit 4 then d.decode000Regs else d.decode000Imms

/-- `decode_001_data_imm`. -/
def decode001DataImm (d : Disassembler) : Disassembler :=
  let d := { d with rn := d.decodeReg 16, rd := d.decodeReg 12 }
  let d := d.decodeImmShifter
  let sbit := d.bit 20
  let d := d.flagS 20
  match (d.field 21 4).toNat with
  | 0x0 => d.inst .andI
  | 0x1 => d.inst .eorI
  | 0x2 => d.inst .subI
  | 0x3 => d.inst .rsbI
  | 0x4 => d.inst .addI
  | 0x5 => d.instConsuming .adcI
  | 0x6 => d.instConsuming .sbcI
  | 0x7 => d.inst .rscI
  | 0x8 => if sbit then d.inst .tstI else d.instUd
  | 0x9 =>
      if sbit then d.inst .teqI
      else if d.rd ≠ 0xF then d.instUnknown
      else d.inst .msrCpsrI
  | 0xA => if sbit then d.inst .cmpI else d.instUd
  | 0xB =>
      if sbit then d.inst .cmnI
      -- here the ones of the encoding are checked for zeros
      else if d.rd ≠ 0 then d.instUnknown
      else d.inst .msrSpsrI
  | 0xC => d.inst .orrI
  | 0xD => d.inst .movI
  | 0xE => d.inst .bicI
  | _ => d.inst .mvnI

/-! ### The other groups -/

/-- `decode_010_loadstore_imm`. -/
def decode010LoadstoreImm (d : Disassembler) : Disassembler :=
  let d := d.decodeAddressingmode2
  match d.pbwl.toNat with
  | 0x00 => d.inst .strI
  | 0x01 => d.inst .ldrI
  | 0x02 => d.inst .strIW
  | 0x03 => d.inst .ldrIW
  | 0x04 => d.inst .strbI
  | 0x05 => d.inst .ldrbI
  | 0x06 => d.inst .strbIW
  | 0x07 => d.inst .ldrbIW
  | 0x10 => d.inst .strIP
  | 0x11 => d.inst .ldrIP
  | 0x12 => d.inst .strIPW
  | 0x13 => d.inst .ldrIPW
  | 0x14 => d.inst .strbIP
  | 0x15 => d.inst .ldrbIP
  | 0x16 => d.inst .strbIPW
  | _ => d.inst .ldrbIPW

/-- `decode_011_loadstore_reg`. -/
def decode011LoadstoreReg (d : Disassembler) : Disassembler :=
  if d.bit 4 then d.instUd
  else
    let d := d.flagU.decodeRegisters.decodeShift
    match d.pbwl.toNat with
    | 0x00 => d.inst .strR
    | 0x01 => d.inst .ldrR
    | 0x02 => d.inst .strRW
    | 0x03 => d.inst .ldrRW
    | 0x04 => d.inst .strbR
    | 0x05 => d.inst .ldrbR
    | 0x06 => d.inst .strbRW
    | 0x07 => d.inst .ldrbRW
    | 0x10 => d.inst .strRP
    | 0x11 => d.inst .ldrRP
    | 0x12 => d.inst .strRPW
    | 0x13 => d.inst .ldrRPW
    | 0x14 => d.inst .strbRP
    | 0x15 => d.inst .ldrbRP
    | 0x16 => d.inst .strbRPW
    | _ => d.inst .ldrbRPW

/-- `decode_100_loadstoremultiple`. -/
def decode100Loadstoremultiple (d : Disassembler) : Disassembler :=
  let d := { d with rn := d.decodeReg 16, imm := d.op &&& 0xFFFF }
  let d := d.flagS 22
  let d := { d with addressingMode := .ofCode (d.field 23 2) }
  match (d.field 20 2).toNat with
  | 0 => d.inst .stm
  | 1 => d.inst .ldm
  | 2 => d.inst .stmW
  | _ => d.inst .ldmW

/-- `decode_101_branch`. -/
def decode101Branch (d : Disassembler) : Disassembler :=
  let d := d.decodeSimm24
  if d.bit 24 then d.inst .bl else d.inst .b

/-- `decode_110`. -/
def decode110 (d : Disassembler) : Disassembler := d.instUd

/-- `decode_swi`. -/
def decodeSwi (d : Disassembler) : Disassembler :=
  { d with imm := d.op &&& 0xFFFFFF }.inst .swi

/-- `decode_coproc`. -/
def decodeCoproc (d : Disassembler) : Disassembler :=
  let d := { d with
    rn := d.decodeReg 16, rd := d.decodeReg 12, cpNum := d.decodeReg 8, rm := d.decodeReg 0
    cpOp2 := (d.field 5 3).toFin }
  if d.bit 4 then
    let d := { d with cpOp1 := (d.field 21 3).toFin }
    if d.bit 20 then d.inst .mrc else d.inst .mcr
  -- `cp_op1` of the data processing form has four bits and no reader
  else d.instUd

/-- `decode_111`. -/
def decode111 (d : Disassembler) : Disassembler :=
  if d.bit 24 then d.decodeSwi else d.decodeCoproc

/-- The switch of `decode_instruction`. -/
def decodeGroup (d : Disassembler) (group : BitVec 3) : Disassembler :=
  match group.toNat with
  | 0x0 => d.decode000DataReg
  | 0x1 => d.decode001DataImm
  | 0x2 => d.decode010LoadstoreImm
  | 0x3 => d.decode011LoadstoreReg
  | 0x4 => d.decode100Loadstoremultiple
  | 0x5 => d.decode101Branch
  | 0x6 => d.decode110
  | _ => d.decode111

/-- `decode_instruction`. -/
def decodeInstruction (d : Disassembler) : Disassembler :=
  if d.cond = .nv then d.decodeInstructionNV else d.decodeGroup (d.field 25 3)

/-- `decode<IS_ARM>`. -/
def decode (d : Disassembler) (op addr : BitVec 32) : Disassembler :=
  let d := { d with
    op := op, sBit := false, uBit := false, sConsuming := false, addr := addr, shift := .lsl }
  d.decodeCondition.decodeInstruction

end Disassembler

end Ndse
