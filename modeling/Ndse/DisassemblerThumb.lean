import Ndse.DisassemblerArm

/-!
# The THUMB decoder

The decoder of halfwords writes the same context.  It sets the condition and
clears the immediate first, and otherwise also leaves what it does not write.
-/

namespace Ndse

namespace Disassembler

/-- `decode_regt<n>`. -/
def decodeRegt (d : Disassembler) (n : Nat) : Fin 16 := ((d.field n 3).setWidth 4).toFin

/-- Two low registers and the immediate cleared. -/
def decodeLow (d : Disassembler) : Disassembler :=
  { d with rd := d.decodeRegt 0, rn := d.decodeRegt 3, imm := 0, shift := .lsl }

/-- A shift by a constant: zero stands for 32 in the right shifts. -/
def decodeShiftT (d : Disassembler) (shift : Shift) : Disassembler :=
  let imm := (d.field 6 5).setWidth 32
  { d.inst .movR with
    rm := d.rn, shift := shift, imm := if imm = 0 ∧ shift ≠ .lsl then 32 else imm }

/-- `decode_t000`. -/
def decodeT000 (d : Disassembler) : Disassembler :=
  let d := { d with sBit := true }.decodeLow
  match (d.field 11 2).toNat with
  | 0x0 => d.decodeShiftT .lsl
  | 0x1 => d.decodeShiftT .lsr
  | 0x2 => d.decodeShiftT .asr
  | _ =>
      let d := { d with rm := d.decodeRegt 6 }
      match (d.field 9 2).toNat with
      | 0x0 => d.inst .addR
      | 0x1 => d.inst .subR
      | 0x2 => { d with imm := BitVec.ofNat 32 d.rm }.inst .addI
      | _ => { d with imm := BitVec.ofNat 32 d.rm }.inst .subI

/-- `decode_t001`. -/
def decodeT001 (d : Disassembler) : Disassembler :=
  let reg := d.decodeRegt 8
  let d := { d with imm := d.op &&& 0xFF, rd := reg, rn := reg, sBit := true }
  match (d.field 11 2).toNat with
  | 0x0 => d.inst .movI
  | 0x1 => d.inst .cmpI
  | 0x2 => d.inst .addI
  | _ => d.inst .subI

/-- `decode_t0101_loadstore_reg`. -/
def decodeT0101LoadstoreReg (d : Disassembler) : Disassembler :=
  let d := { d.decodeLow with rm := d.decodeRegt 6, uBit := true }
  match (d.field 9 3).toNat with
  | 0x0 => d.inst .strRP
  | 0x1 => { d.inst .strxRP with extendMode := .h }
  | 0x2 => d.inst .strbRP
  | 0x3 => d.instUd
  | 0x4 => d.inst .ldrRP
  | 0x5 => { d.inst .ldrxRP with extendMode := .h }
  | 0x6 => d.inst .ldrbRP
  | _ => { d.inst .ldrxRP with extendMode := .sh }

/-- `decode_t01001_loadliteral`. -/
def decodeT01001Loadliteral (d : Disassembler) : Disassembler :=
  { d.inst .ldrIP with rd := d.decodeRegt 8, imm := (d.op &&& 0xFF) <<< 2, uBit := true, rn := 15 }

/-- `decode_t010001_sdata_b`. -/
def decodeT010001SdataB (d : Disassembler) : Disassembler :=
  let d := { d with
    rm := d.decodeReg 3
    rd := (BitVec.ofBool (d.bit 7) ++ d.field 0 3 : BitVec 4).toFin
    imm := 0
    shift := .lsl }
  match (d.field 8 2).toNat with
  | 0x0 => { d with rn := d.rd }.inst .addR
  | 0x1 => { d with rn := d.rd }.inst .cmpR
  | 0x2 => d.inst .movR
  | _ =>
      let d := if d.bit 7 then d.inst .blx else d.inst .bx
      if d.decodeRegt 0 ≠ 0 then d.instUnknown else d

/-- An operation on its own destination, with the other register as operand. -/
def instOwn (d : Disassembler) (code : Inst) : Disassembler :=
  { d.inst code with rd := d.decodeRegt 0, rn := d.decodeRegt 0, rm := d.decodeRegt 3 }

/-- A shift of the destination by the other register. -/
def instShiftT (d : Disassembler) (shift : Shift) : Disassembler :=
  { d.inst .movRR with
    rd := d.decodeRegt 0, rm := d.decodeRegt 0, rs := d.decodeRegt 3, shift := shift }

/-- `decode_t010000_dataproc`. -/
def decodeT010000Dataproc (d : Disassembler) : Disassembler :=
  let d := { d.decodeLow with sBit := true }
  match (d.field 6 4).toNat with
  | 0x0 => d.instOwn .andR
  | 0x1 => d.instOwn .eorR
  | 0x2 => d.instShiftT .lsl
  | 0x3 => d.instShiftT .lsr
  | 0x4 => d.instShiftT .asr
  | 0x5 => { d.instOwn .adcR with sConsuming := true }
  | 0x6 => d.instOwn .sbcR
  | 0x7 => d.instShiftT .ror
  | 0x8 => { d with rn := d.decodeRegt 0, rm := d.decodeRegt 3 }.inst .tstR
  | 0x9 => d.inst .rsbI
  | 0xA => { d with rn := d.decodeRegt 0, rm := d.decodeRegt 3 }.inst .cmpR
  | 0xB => d.instUd
  | 0xC => d.instOwn .orrR
  | 0xD => { d with rm := d.decodeRegt 3, rs := d.decodeRegt 0 }.inst .mulR
  | 0xE => d.instOwn .bicR
  | _ => { d with rm := d.decodeRegt 3 }.inst .mvnR

/-- `decode_t010`. -/
def decodeT010 (d : Disassembler) : Disassembler :=
  if d.bit 12 then d.decodeT0101LoadstoreReg
  else if d.bit 11 then d.decodeT01001Loadliteral
  else if d.bit 10 then d.decodeT010001SdataB
  else d.decodeT010000Dataproc

/-- `decode_t011`. -/
def decodeT011 (d : Disassembler) : Disassembler :=
  let d := { d with rd := d.decodeRegt 0, rn := d.decodeRegt 3, uBit := true }
  match (d.field 11 2).toNat with
  | 0x0 => { d with imm := (d.op >>> 4) &&& 0x7C }.inst .strIP
  | 0x1 => { d with imm := (d.op >>> 4) &&& 0x7C }.inst .ldrIP
  | 0x2 => { d with imm := (d.op >>> 6) &&& 0x1F }.inst .strbIP
  | _ => { d with imm := (d.op >>> 6) &&& 0x1F }.inst .ldrbIP

/-- `decode_t1001_loadstore_stack`. -/
def decodeT1001LoadstoreStack (d : Disassembler) : Disassembler :=
  let d := { d with imm := (d.op &&& 0xFF) <<< 2, rd := d.decodeRegt 8, rn := 13, uBit := true }
  if d.bit 11 then d.inst .ldrIP else d.inst .strIP

/-- `decode_t100`. -/
def decodeT100 (d : Disassembler) : Disassembler :=
  if d.bit 12 then d.decodeT1001LoadstoreStack
  else
    let d := { d with
      rd := d.decodeRegt 0, rn := d.decodeRegt 3, imm := (d.op >>> 5) &&& 0x3E
      extendMode := .h, uBit := true }
    if d.bit 11 then d.inst .ldrxIP else d.inst .strxIP

/-- `decode_t1010_add_sp_pc`. -/
def decodeT1010AddSpPc (d : Disassembler) : Disassembler :=
  { d.inst .addI with
    rd := d.decodeRegt 8, imm := (d.op &&& 0xFF) <<< 2, rn := if d.bit 11 then 13 else 15 }

/-- The pushes and pops, with the register they add to the list. -/
def instStack (d : Disassembler) (code : Inst) (mode : AddressingMode) (more : BitVec 32) :
    Disassembler :=
  { d.inst code with imm := d.imm ||| more, addressingMode := mode, rn := 13 }

/-- `decode_t1011_misc`. -/
def decodeT1011Misc (d : Disassembler) : Disassembler :=
  let d := { d with imm := d.op &&& 0xFF }
  match (d.field 8 4).toNat with
  | 0x0 =>
      let d := { d with imm := (d.imm &&& 0x7F) <<< 2, rd := 13, rn := 13 }
      if d.bit 7 then d.inst .subI else d.inst .addI
  | 0x5 => d.instStack .stmW .db (1 <<< 14)
  | 0x4 => d.instStack .stmW .db 0
  | 0xD => d.instStack .ldmW .ia (1 <<< 15)
  | 0xC => d.instStack .ldmW .ia 0
  | 0xE => d.inst .bkpt
  | _ => d.instUd

/-- `decode_t101`. -/
def decodeT101 (d : Disassembler) : Disassembler :=
  if d.bit 12 then d.decodeT1011Misc else d.decodeT1010AddSpPc

/-- `decode_t1101_bcond_swi`. -/
def decodeT1101BcondSwi (d : Disassembler) : Disassembler :=
  let d := { d with cond := .ofCode (d.field 8 4) }
  let imm := d.op &&& 0xFF
  match d.cond with
  | .al => d.instUd
  | .nv => { d with imm := imm }.inst .swi
  | _ => { d with imm := d.addr + (imm <<< 24).sshiftRight 23 + 4 }.inst .b

/-- `decode_t1100_loadstore_multiple`. -/
def decodeT1100LoadstoreMultiple (d : Disassembler) : Disassembler :=
  let d := { d with rn := d.decodeRegt 8, imm := d.op &&& 0xFF, addressingMode := .ia }
  if d.bit 11 then d.inst .ldmW else d.inst .stmW

/-- `decode_t110`. -/
def decodeT110 (d : Disassembler) : Disassembler :=
  if d.bit 12 then d.decodeT1101BcondSwi else d.decodeT1100LoadstoreMultiple

/-- `decode_t111`. -/
def decodeT111 (d : Disassembler) : Disassembler :=
  let d := { d with imm := d.op &&& 0x7FF }
  match (d.field 11 2).toNat with
  | 0x0 => { d with imm := d.addr + 4 + (d.imm <<< 21).sshiftRight 20 }.inst .b
  | 0x1 => if d.bit 0 then d.instUd else { d with imm := d.imm <<< 1 }.inst .blxI
  | 0x2 => { d with imm := d.addr + 4 + (d.imm <<< 21).sshiftRight 9 }.inst .bpre
  | _ => { d with imm := d.imm <<< 1 }.inst .bl

/-- `decode_instruction_thumb`. -/
def decodeInstructionThumb (d : Disassembler) : Disassembler :=
  let d := { d with instruction := .debug, cond := .al, imm := 0 }
  match (d.field 13 3).toNat with
  | 0x0 => d.decodeT000
  | 0x1 => d.decodeT001
  | 0x2 => d.decodeT010
  | 0x3 => d.decodeT011
  | 0x4 => d.decodeT100
  | 0x5 => d.decodeT101
  | 0x6 => d.decodeT110
  | _ => d.decodeT111

/-- `decode<IS_THUMB>`. -/
def decodeThumb (d : Disassembler) (op addr : BitVec 32) : Disassembler :=
  { d with
    op := op &&& 0xFFFF, sBit := false, uBit := false, sConsuming := false, addr := addr
    shift := .lsl }.decodeInstructionThumb

end Disassembler

end Ndse
