import Ndse.Disassembler
import Ndse.Host

/-!
# The translator

The code `compiler::compile` emits for a page of decoded instructions.  The
emitting functions are translated one by one; each returns the instructions it
appends.  Jump distances are the byte counts that are patched in at the end of
the code they jump over.
-/

namespace Ndse

namespace Compiler

/-- What the emitting functions read besides the decoded instruction. -/
structure Emitter where
  instBits : Nat
  inst : Nat
  lookaheadS : Bool
deriving DecidableEq, Repr

/-- `[ebp+OFFSET(regs[index])]`. -/
abbrev guest (index : Fin 16) : Operand := .field (.reg index)

abbrev eax : Operand := .reg .eax
abbrev ecx : Operand := .reg .ecx
abbrev edx : Operand := .reg .edx
abbrev esi : Operand := .reg .esi

/-- `~PAGING::ADDRESS_MASK`. -/
def pageMask : BitVec 32 := 0xFFFFFE00

/-- `DEBUG_BREAK`. -/
abbrev debugBreak : HostInstr := .iret

variable (ctx : Context) (emitter : Emitter)

/-! ### Carry and flags -/

def storeCarry : List HostInstr := [.rcl .esi]

def loadCarry : List HostInstr := [.rcr .esi]

/-- Nothing is stored when the next instruction would overwrite it. -/
def storeFlags : List HostInstr :=
  if emitter.lookaheadS then []
  else [.setoAl, .lahf, .mov (.field .x86Flags) eax]

def loadFlags : List HostInstr := [.mov eax (.field .x86Flags), .rorAl, .sahf]

/-! ### Loading registers -/

def addEcx (imm : BitVec 32) : List HostInstr :=
  if imm ≠ 0 then [.alu .add ecx (.imm32 imm)] else []

def addEax (imm : BitVec 32) : List HostInstr :=
  if imm ≠ 0 then [.alu .add eax (.imm32 imm)] else []

/-- `((inst+2) << INST_BITS) & ~3`. -/
def pcOffset : BitVec 32 := (BitVec.ofNat 32 (emitter.inst + 2) <<< emitter.instBits) &&& ~~~3#32

def loadEcxRegOrPc (reg : Fin 16) (offset : BitVec 32) : List HostInstr :=
  if reg ≠ 15 then .mov ecx (guest reg) :: addEcx offset
  else .mov ecx (guest 15) :: .alu .and ecx (.imm32 pageMask) :: addEcx (offset + pcOffset emitter)

def loadEaxRegOrPc (reg : Fin 16) (offset : BitVec 32) : List HostInstr :=
  if reg ≠ 15 then .mov eax (guest reg) :: addEax offset
  else .mov eax (guest 15) :: .alu .and eax (.imm32 pageMask) :: addEax (offset + pcOffset emitter)

def breakIfPc (reg : Fin 16) : List HostInstr := if reg = 15 then [debugBreak] else []

def loadEdxEcxOrReg (r1 r2 : Fin 16) : List HostInstr :=
  if r1 = r2 then [.mov edx ecx] else [.mov edx (guest r1)]

def loadEaxEcxOrReg (r1 r2 : Fin 16) : List HostInstr :=
  if r1 = r2 then [.mov eax ecx]
  else if r1 = 15 then loadEaxRegOrPc emitter r1 (1 <<< emitter.instBits)
  else loadEaxRegOrPc emitter r1 0

def loadR15Ecx : List HostInstr :=
  [.mov ecx (guest 15), .alu .and ecx (.imm32 (pageMask ||| 1))]

/-! ### The shifter -/

def shiftEaxImm : List HostInstr :=
  match ctx.shift with
  | .lsl =>
      if ctx.imm = 0 then []
      else if 32 ≤ ctx.imm.toNat then [.shift .shl 31, .shift .shl 1]
      else [.shift .shl ctx.imm]
  | .lsr =>
      if 32 ≤ ctx.imm.toNat then [.shift .shr 31, .shift .shr 1]
      else [.shift .shr ctx.imm]
  | .asr =>
      if ctx.imm = 0 then []
      else if ctx.imm = 32 then [.shift .sar 31, .shift .sar 1]
      else [.shift .sar ctx.imm]
  | .ror => if ctx.imm ≠ 0 then [.shift .ror ctx.imm] else []
  | .rrx => [.rcr .eax]

def loadShifterImm : List HostInstr :=
  (if ctx.shift = .rrx then loadFlags else []) ++
    loadEaxRegOrPc emitter ctx.rm 0 ++ shiftEaxImm ctx ++ storeCarry

/-- The part of `shiftop_eax_ecx` that a zero shift amount jumps over. -/
def shiftopBody : List HostInstr :=
  (match ctx.shift with
    | .ror => [.alu .and ecx (.imm8 0x1F)]
    | .lsr | .asr => [.dec ecx, .push (.imm8 0x1F), .pop esi, .alu .cmp ecx esi, .cmovaEcxEsi]
    | _ => [.push (.imm8 0x1F), .pop esi, .alu .cmp ecx esi, .cmovaEcxEsi]) ++
  (match ctx.shift with
    | .lsl => [.shiftCl .shl]
    | .lsr => [.shiftCl .shr, .shift .shr 1]
    | .asr => [.shiftCl .sar, .shift .sar 1]
    | .ror => [.shiftCl .ror]
    | .rrx => []) ++
  storeCarry

/-- The bytes of some code. -/
def bytes (code : List HostInstr) : Nat := (code.map HostInstr.size).sum

def shiftopEaxEcx : List HostInstr :=
  [.mov esi (.field .x86Flags), .shrEsi 8, .alu .or ecx ecx,
    .jcc .z (bytes (shiftopBody ctx))] ++ shiftopBody ctx

/-! ### Loads and stores -/

def genericStore : List HostInstr :=
  breakIfPc ctx.rd ++ loadEcxRegOrPc emitter ctx.rn 0 ++ loadEdxEcxOrReg ctx.rd ctx.rn

def genericLoadstorePostupdateImm : List HostInstr :=
  if ctx.imm ≠ 0 then [.alu .add (guest ctx.rn) (.imm32 ctx.imm)] else []

def genericStoreP : List HostInstr := genericStore ctx emitter ++ addEcx ctx.imm

def genericLoadstoreShift : List HostInstr :=
  if ctx.shift = .lsl ∧ ctx.imm = 0 then [.alu .add ecx (guest ctx.rm)]
  else
    .mov eax (guest ctx.rm) :: shiftEaxImm ctx ++ storeCarry ++ [.alu .add ecx eax]

def genericStoreR : List HostInstr := genericStore ctx emitter ++ genericLoadstoreShift ctx

def genericLoad : List HostInstr := loadEcxRegOrPc emitter ctx.rn ctx.imm

def genericLoadPost : List HostInstr := breakIfPc ctx.rd ++ loadEcxRegOrPc emitter ctx.rn 0

def genericLoadR : List HostInstr :=
  breakIfPc ctx.rd ++ loadEcxRegOrPc emitter ctx.rn 0 ++
    (if ctx.uBit then [] else [.neg ecx]) ++ genericLoadstoreShift ctx

def genericLoadRs (post wb : Bool) : List HostInstr :=
  breakIfPc ctx.rd ++ breakIfPc ctx.rn ++ loadShifterImm ctx emitter ++
    (if ctx.uBit then [] else [.neg eax]) ++
    (if post then
      [.alu .add eax (guest ctx.rn), .mov ecx eax] ++
        if wb then [.mov (guest ctx.rn) eax] else []
    else
      .mov ecx (guest ctx.rn) :: if wb then [.alu .add (guest ctx.rn) eax] else [])

def genericPostloadShift : List HostInstr :=
  .push eax :: loadShifterImm ctx emitter ++ (if ctx.uBit then [] else [.neg eax]) ++
    [.alu .add (guest ctx.rn) eax, .pop (guest ctx.rd)]

def genericLoadX : List HostInstr :=
  match ctx.extendMode with
  | .h => [.call .load16u]
  | .sb => [.call .load8u, .movsxEaxAl]
  | .sh => [.call .load16s]
  | .invalid => [debugBreak]

def genericStoreX : List HostInstr :=
  match ctx.extendMode with
  | .h => [.call .store16]
  | _ => [debugBreak]

/-- `mov [ebp+rd], eax`, and a branch for `r15`. -/
def storeRdEax : List HostInstr :=
  .mov (guest ctx.rd) eax :: if ctx.rd = 15 then [.mov ecx eax, .jmpBranch] else []

/-- `cpsr_masks`: the bytes of the status register that the field bits select. -/
def cpsrMask (fields : Fin 16) : BitVec 32 :=
  let byte (bit : Nat) (mask : BitVec 32) := if fields.val.testBit bit then mask else 0
  byte 0 0xFF ||| byte 1 0xFF00 ||| byte 2 0xFF0000 ||| byte 3 0xFF000000

/-! ### Multiple transfers -/

/-- The registers of a transfer list, in ascending order. -/
def transferList : List (Fin 16) := (List.finRange 16).filter fun i => ctx.imm.getLsbD i.val

/-- `region` of `count`: the list has no gap. -/
def isRegion : Bool :=
  match transferList ctx with
  | [] => false
  | lowest :: rest =>
      ((lowest :: rest).getLast (by simp)).val - lowest.val + 1 = (lowest :: rest).length

def updateDest (size : Nat) : List HostInstr :=
  match ctx.addressingMode with
  | .da | .db => [.alu .sub (guest ctx.rn) (.imm8 (BitVec.ofNat 32 (4 * size)))]
  | .ia | .ib => [.alu .add (guest ctx.rn) (.imm8 (BitVec.ofNat 32 (4 * size)))]

def loadEcxSingle : List HostInstr :=
  .mov ecx (guest ctx.rn) ::
    match ctx.addressingMode with
    | .da | .ia => []
    | .db => [.alu .sub ecx (.imm8 4)]
    | .ib => [.alu .add ecx (.imm8 4)]

def pushMultiple (num : Nat) : List HostInstr :=
  match ctx.addressingMode with
  | .ia => [.push (guest ctx.rn)]
  | .ib => [.mov ecx (guest ctx.rn), .alu .add ecx (.imm8 4), .push ecx]
  | .da =>
      -- the amount is 4 below zero for no register
      [.mov ecx (guest ctx.rn), .alu .sub ecx (.imm8 ((BitVec.ofNat 32 num - 1) <<< 2)), .push ecx]
  | .db => [.mov ecx (guest ctx.rn), .alu .sub ecx (.imm8 (BitVec.ofNat 32 (4 * num))), .push ecx]

/-- Push the address of a register of the context. -/
def pushContext (lowest : Fin 16) : List HostInstr :=
  if lowest = 0 then [.pushEbp] else [.leaEax (.reg lowest), .push eax]

def ldmSwitchuser : List HostInstr :=
  [.push (.field .cpsr), .mov ecx (.imm32 0x10), .mov edx (.imm32 0x1F), .call .loadcpsr, .pop ecx]

def ldmSwitchback : List HostInstr := [.mov edx (.imm32 0x1F), .call .loadcpsr]

/-- The address of the next instruction, added to the page in `ecx`. -/
def addNextInst : HostInstr :=
  .alu .add ecx (.imm32 (BitVec.ofNat 32 (emitter.inst + 1) <<< emitter.instBits))

def stmTransfer : List HostInstr :=
  let list := transferList ctx
  let num := list.length
  match list with
  | [] => [debugBreak]
  | [highest] => loadEcxSingle ctx ++ [.mov edx (guest highest), .call .store32]
  | lowest :: _ =>
      if isRegion ctx then
        pushContext lowest ++ [.push (.imm8 (BitVec.ofNat 32 num))] ++ pushMultiple ctx num ++
          [.call .store32Array, .addEsp 12]
      else
        (if ctx.imm.getLsbD 15 then loadR15Ecx ++ [addNextInst emitter, .push ecx] else []) ++
          ((list.filter (· ≠ 15)).reverse.map fun i => .push (guest i)) ++
          [.pushEsp, .push (.imm8 (BitVec.ofNat 32 num))] ++ pushMultiple ctx num ++
          [.call .store32Array, .addEsp (BitVec.ofNat 32 (4 * (num + 3)))]

/-- Load all words to the stack. -/
def ldmToStack (num : Nat) : List HostInstr :=
  [.subEsp (BitVec.ofNat 32 (4 * num)), .pushEsp, .push (.imm8 (BitVec.ofNat 32 num))] ++
    pushMultiple ctx num ++ [.call .load32Array, .addEsp 12]

def ldmTransfer : List HostInstr :=
  let list := transferList ctx
  let num := list.length
  if ctx.sBit then
    ldmToStack ctx num ++ ldmSwitchuser ++ list.map .popEax ++ ldmSwitchback
  else
    match list with
    | [] => [debugBreak]
    | [highest] => loadEcxSingle ctx ++ [.call .load32, .mov (guest highest) eax]
    | lowest :: _ =>
        if isRegion ctx then
          pushContext lowest ++ [.push (.imm8 (BitVec.ofNat 32 num))] ++ pushMultiple ctx num ++
            [.call .load32Array, .addEsp 12]
        else ldmToStack ctx num ++ list.map fun i => .pop (guest i)

/-- `LDM_W` with the base register in the list: the base is kept when it is the
lowest register, and otherwise there is no update. -/
def ldmKeepsBase : Bool :=
  ctx.instruction = .ldmW ∧ (transferList ctx).head? = some ctx.rn

def ldmUpdates : Bool :=
  ctx.instruction = .ldmW ∧ (ctx.rn ∉ transferList ctx ∨ ldmKeepsBase ctx)

def updateCallstack : List HostInstr := [.push ecx, .call .popcallstack, .pop ecx]

def recordCallstack : List HostInstr := [.push ecx, .call .pushcallstack, .pop ecx]

def ldmCode : List HostInstr :=
  (if ldmKeepsBase ctx then [.push (guest ctx.rn)] else []) ++ ldmTransfer ctx ++
    (if ldmUpdates ctx then
      (if ldmKeepsBase ctx then [.pop (guest ctx.rn)] else []) ++
        updateDest ctx (transferList ctx).length
    else []) ++
    (if ctx.imm.getLsbD 15 then .mov ecx (guest 15) :: updateCallstack ++ [.jmpBranch] else [])

/-! ### Branches -/

def addEcxBpre : List HostInstr :=
  [.alu .add ecx (.imm32 (ctx.imm - 4)), .alu .add ecx (.field .bpre),
    .mov (.field .bpre) (.imm32 0)]

/-- The part of the three linking branches that sets `r14`. -/
def linkCode : List HostInstr :=
  loadR15Ecx ++ [addNextInst emitter, .mov (guest 14) ecx] ++ recordCallstack

/-! ### Instructions -/

/-- Emitted code and `flags_updated` after it. -/
structure Emitted where
  code : List HostInstr
  flagsUpdated : Bool

/-- Code that leaves the flags to nobody. -/
def plain (code : List HostInstr) : Emitted := ⟨code, false⟩

/-- Code that ends by storing the flags if the instruction asks for it. -/
def flagging (setFlags : Bool) (code final : List HostInstr) : Emitted :=
  if setFlags then ⟨code ++ final ++ storeFlags emitter, true⟩ else ⟨code, false⟩

/-- `Rd = Rn op shifter`, in the memory form when both are the same register. -/
def logicalR (op : AluOp) : List HostInstr :=
  if ctx.rn = ctx.rd then [.alu op (guest ctx.rn) eax]
  else [.alu op eax (guest ctx.rn), .mov (guest ctx.rd) eax]

/-- `Rd = Rn op imm`, in the memory form when both are the same register. -/
def logicalI (op : AluOp) : List HostInstr :=
  breakIfPc ctx.rn ++ breakIfPc ctx.rd ++
    if ctx.rn = ctx.rd then [.alu op (guest ctx.rn) (.imm32 ctx.imm)]
    else [.mov eax (guest ctx.rn), .alu op eax (.imm32 ctx.imm), .mov (guest ctx.rd) eax]

def movRCode : List HostInstr :=
  loadShifterImm ctx emitter ++
    (if ctx.rd = 15 then
      (if ctx.sBit then [debugBreak] else []) ++
        [.mov ecx (guest 15), .alu .and ecx (.imm8 1), .alu .or ecx eax, .mov (guest 15) ecx,
          .jmpBranch]
    else [.mov (guest ctx.rd) eax]) ++ loadCarry

/-- `mov r12, r12` is debug magic, and other moves of a register to itself do
nothing. -/
def movR : Emitted :=
  if ctx.rd = ctx.rm ∧ ctx.imm = 0 then
    if ctx.rd = 12 then plain (loadR15Ecx ++ [addNextInst emitter, .call .debugMagic])
    else plain [.nop]
  else
    flagging emitter ctx.sBit (movRCode ctx emitter)
      (if ctx.imm = 0 then [.alu .or eax (.imm8 0)] else [])

def mvnRCode : List HostInstr :=
  breakIfPc ctx.rd ++
    (if ctx.rd = ctx.rm ∧ ctx.shift = .lsl ∧ ctx.imm = 0 then [.not (guest ctx.rd)]
    else loadShifterImm ctx emitter ++ [.not eax, .mov (guest ctx.rd) eax]) ++ loadCarry

/-- `Rd = Rn + imm`, or minus it: the memory form, or an addition in `ecx`. -/
def addSubI (op : AluOp) (offset : BitVec 32) : List HostInstr :=
  breakIfPc ctx.rd ++
    if ctx.rn = ctx.rd then breakIfPc ctx.rn ++ [.alu op (guest ctx.rn) (.imm32 ctx.imm)]
    else loadEcxRegOrPc emitter ctx.rn offset ++ [.mov (guest ctx.rd) ecx]

def adcICode : List HostInstr :=
  breakIfPc ctx.rd ++
    if ctx.rn = ctx.rd then
      breakIfPc ctx.rn ++ loadFlags ++ [.alu .adc (guest ctx.rn) (.imm32 ctx.imm)]
    else
      loadEcxRegOrPc emitter ctx.rn ctx.imm ++ loadFlags ++
        [.alu .adc ecx (.imm8 0), .mov (guest ctx.rd) ecx]

/-- `Rd = imm - Rn`.  For different registers only the negation is emitted. -/
def rsbI : Emitted :=
  let breaks := breakIfPc ctx.rn ++ breakIfPc ctx.rd
  if ctx.imm = 0 then
    flagging emitter ctx.sBit
      (breaks ++
        if ctx.rn = ctx.rd then [.neg (guest ctx.rn)]
        else [.mov eax (guest ctx.rn), .neg eax, .mov (guest ctx.rd) eax]) []
  else if ctx.rn = ctx.rd then
    plain (breaks ++ [.mov eax (.imm32 ctx.imm), .alu .sub eax (guest ctx.rn),
      .mov (guest ctx.rd) eax])
  else plain breaks

/-- Load the flags unless the host still holds them. -/
def loadFlagsUnless (flagsActual : Bool) : List HostInstr := if flagsActual then [] else loadFlags

def clzCode : List HostInstr :=
  breakIfPc ctx.rm ++ breakIfPc ctx.rd ++
    [.mov ecx (.imm32 0xFFFFFFFF), .mov (guest ctx.rd) (.imm32 32), .mov eax ecx,
      .alu .and eax (guest ctx.rm), .jcc .z 7, .shlEcx, .dec (guest ctx.rd), .jmp (-14)]

/-- The long multiplications, whose result is in `edx:eax`. -/
def mulLong (multiply : HostInstr) (accumulate : Bool) : List HostInstr :=
  [.alu .xor edx edx, .mov eax (guest ctx.rm), multiply] ++
    if accumulate then [.alu .add (guest ctx.rd) eax, .alu .adc (guest ctx.rn) edx]
    else [.mov (guest ctx.rd) eax, .mov (guest ctx.rn) edx]

/-- A coprocessor access that is understood. -/
def systemAccess : Prop := ctx.cpNum = 15 ∧ ctx.cpOp1 = 0 ∧ ctx.rd ≠ 15

instance : Decidable (systemAccess ctx) := inferInstanceAs (Decidable (_ ∧ _))

def mrcCode : List HostInstr :=
  if systemAccess ctx then
    if ctx.rn = 0 then [.mov (guest ctx.rd) (.imm32 0x41059460)]
    else if ctx.rn = 1 then [.mov eax (.field .controlRegister), .mov (guest ctx.rd) eax]
    else [debugBreak]
  else [debugBreak]

def mcrCode : List HostInstr :=
  if systemAccess ctx then
    if ctx.rn = 1 then
      [.mov eax (guest ctx.rd), .mov (.field .controlRegister) eax, .alu .or eax eax, .jcc .nz 5,
        .mov eax (.imm32 0)]
    else if ctx.rn ∈ [2, 3, 5, 6] then [.nop, .nop]
    else if ctx.rn = 7 then [.nop]
    else if ctx.rn = 9 then
      if ctx.rm = 1 then
        loadEcxRegOrPc emitter ctx.rd 0 ++
          [.mov edx (.imm32 (BitVec.ofNat 32 ctx.cpOp2.val)), .call .remapTcm]
      else [.nop]
    else [debugBreak]
  else [debugBreak]

/-- The two forms of `MSR` from what loads the value into a register. -/
def msrCode (spsr : Bool) (load : Operand → HostInstr) : List HostInstr :=
  breakIfPc ctx.rm ++
    if ctx.rn = 0 then [.nop]
    else if spsr then
      load eax :: (if ctx.rn ≠ 15 then [.alu .and eax (.imm32 (cpsrMask ctx.rn))] else []) ++
        [.mov (.field .spsr) eax]
    else [load ecx, .mov edx (.imm32 (cpsrMask ctx.rn)), .call .loadcpsr, .movEbpEax]

/-- The shifted operand of the two forms with a register amount. -/
def registerShift : List HostInstr :=
  breakIfPc ctx.rd ++ loadEcxRegOrPc emitter ctx.rs 0 ++ loadEaxEcxOrReg emitter ctx.rm ctx.rs ++
    shiftopEaxEcx ctx

/-- The `switch` of `compile_instruction`. -/
def compileBody (flagsActual : Bool) : Emitted :=
  let shifted := loadShifterImm ctx emitter
  let storeRd := HostInstr.mov (guest ctx.rd) eax
  match ctx.instruction with
  | .pldI | .pldR => plain [.nop]
  | .movI =>
      flagging emitter ctx.sBit (breakIfPc ctx.rd ++ [.mov (guest ctx.rd) (.imm32 ctx.imm)])
        [.alu .or (guest ctx.rd) (.imm8 0)]
  | .movR => movR ctx emitter
  | .movRR =>
      flagging emitter ctx.sBit (registerShift ctx emitter ++ [storeRd])
        (.alu .or eax (.imm8 0) :: loadCarry)
  | .orrRR =>
      flagging emitter ctx.sBit (registerShift ctx emitter ++ [.alu .or (guest ctx.rd) eax])
        loadCarry
  | .mvnI => plain (breakIfPc ctx.rd ++ [.mov (guest ctx.rd) (.imm32 (~~~ctx.imm))])
  | .mvnR => flagging emitter ctx.sBit (mvnRCode ctx emitter) []
  | .strI =>
      plain (genericStore ctx emitter ++ [.call .store32] ++ genericLoadstorePostupdateImm ctx)
  | .strbI =>
      plain (genericStore ctx emitter ++ [.call .store8] ++ genericLoadstorePostupdateImm ctx)
  | .strxI =>
      plain (genericStore ctx emitter ++ genericStoreX ctx ++ genericLoadstorePostupdateImm ctx)
  | .strxIP => plain (genericStoreP ctx emitter ++ genericStoreX ctx)
  | .strIPW =>
      plain (genericStoreP ctx emitter ++ [.call .store32] ++ genericLoadstorePostupdateImm ctx)
  | .strxRP => plain (genericStoreR ctx emitter ++ genericStoreX ctx)
  | .strbIP => plain (genericStoreP ctx emitter ++ [.call .store8])
  | .strIP => plain (genericStoreP ctx emitter ++ [.call .store32])
  | .strRP => plain (genericStoreR ctx emitter ++ [.call .store32])
  | .strbRP => plain (genericStoreR ctx emitter ++ [.call .store8])
  | .ldrI =>
      plain (genericLoadPost ctx emitter ++ genericLoadstorePostupdateImm ctx ++
        [.call .load32, storeRd])
  | .ldrIP => plain (genericLoad ctx emitter ++ .call .load32 :: storeRdEax ctx)
  | .ldrxIP => plain (genericLoad ctx emitter ++ genericLoadX ctx ++ storeRdEax ctx)
  | .ldrIPW =>
      plain (genericLoad ctx emitter ++ [.call .load32] ++ genericLoadstorePostupdateImm ctx ++
        storeRdEax ctx)
  | .ldrbIPW =>
      plain (genericLoad ctx emitter ++ [.call .load8u] ++ genericLoadstorePostupdateImm ctx ++
        storeRdEax ctx)
  | .ldrxIPW =>
      plain (genericLoad ctx emitter ++ genericLoadX ctx ++ genericLoadstorePostupdateImm ctx ++
        storeRdEax ctx)
  | .ldrR =>
      plain (loadEcxRegOrPc emitter ctx.rn 0 ++ .call .load32 :: genericPostloadShift ctx emitter)
  | .ldrRP => plain (genericLoadRs ctx emitter true false ++ [.call .load32, storeRd])
  | .ldrRPW =>
      plain (genericLoadRs ctx emitter true true ++
        [.mov (guest ctx.rn) ecx, .call .load32, storeRd])
  | .ldrbI =>
      plain (genericLoadPost ctx emitter ++ genericLoadstorePostupdateImm ctx ++
        [.call .load8u, storeRd])
  | .ldrbIP =>
      plain (breakIfPc ctx.rd ++ genericLoad ctx emitter ++ [.call .load8u, storeRd])
  | .ldrbRP => plain (genericLoadR ctx emitter ++ [.call .load8u, storeRd])
  | .ldrxRP => plain (genericLoadR ctx emitter ++ genericLoadX ctx ++ [storeRd])
  | .blxI =>
      plain (linkCode emitter ++
        [.alu .and ecx (.imm32 0xFFFFFFFE), .alu .and eax (.imm8 0xFFFFFFFE)] ++
        addEcxBpre ctx ++ [.mov (guest 15) ecx, .jmpBranch])
  | .bl => plain (linkCode emitter ++ addEcxBpre ctx ++ [.mov (guest 15) ecx, .jmpBranch])
  | .bx =>
      plain (loadEcxRegOrPc emitter ctx.rm 0 ++ .mov (guest 15) ecx :: updateCallstack ++
        [.jmpBranch])
  | .blx =>
      plain (linkCode emitter ++ loadEcxRegOrPc emitter ctx.rm 0 ++
        [.mov (guest 15) ecx, .jmpBranch])
  | .b =>
      plain (loadR15Ecx ++
        [.alu .add ecx (.imm32 (ctx.imm + BitVec.ofNat 32 emitter.inst <<< emitter.instBits)),
          .mov (guest 15) ecx] ++ updateCallstack ++ [.jmpBranch])
  | .bpre => plain [.mov (.field .bpre) (.imm32 ctx.imm)]
  | .mrc => plain (mrcCode ctx)
  | .mcr => plain (mcrCode ctx emitter)
  | .bicR =>
      flagging emitter ctx.sBit (shifted ++ .not eax :: logicalR ctx .and ++ loadCarry) []
  | .andR => flagging emitter ctx.sBit (shifted ++ logicalR ctx .and ++ loadCarry) []
  | .eorR => flagging emitter ctx.sBit (shifted ++ logicalR ctx .xor ++ loadCarry) []
  | .bicI =>
      flagging emitter ctx.sBit
        (breakIfPc ctx.rn ++ breakIfPc ctx.rd ++
          [.mov eax (guest ctx.rn), .alu .and eax (.imm32 (~~~ctx.imm)), storeRd]) []
  | .orrI => flagging emitter ctx.sBit (logicalI ctx .or) []
  | .andI => flagging emitter ctx.sBit (logicalI ctx .and) []
  | .eorI => flagging emitter ctx.sBit (logicalI ctx .xor) []
  | .addI => flagging emitter ctx.sBit (addSubI ctx emitter .add ctx.imm) []
  | .addR => flagging emitter ctx.sBit (shifted ++ logicalR ctx .add) []
  | .adcI => flagging emitter ctx.sBit (adcICode ctx emitter) []
  | .adcR =>
      flagging emitter ctx.sBit
        (shifted ++ .push eax :: loadFlags ++ .pop eax :: logicalR ctx .adc) []
  | .subI => flagging emitter ctx.sBit (addSubI ctx emitter .sub (-ctx.imm)) []
  | .subR =>
      flagging emitter ctx.sBit
        (shifted ++
          if ctx.rn = ctx.rd then [.alu .sub (guest ctx.rn) eax]
          else [.mov edx (guest ctx.rn), .alu .sub edx eax, .mov (guest ctx.rd) edx]) []
  | .sbcI =>
      flagging emitter ctx.sBit
        (loadFlagsUnless flagsActual ++
          [.mov eax (guest ctx.rn), .cmc, .alu .sbb eax (.imm32 ctx.imm), storeRd]) [.cmc]
  | .sbcR =>
      flagging emitter ctx.sBit
        (shifted ++ .mov ecx eax :: loadFlagsUnless flagsActual ++ .cmc ::
          if ctx.rn = ctx.rd then [.alu .sbb (guest ctx.rn) ecx]
          else [.mov edx (guest ctx.rn), .alu .sbb edx ecx, .mov (guest ctx.rd) edx]) [.cmc]
  | .rsbI => rsbI ctx emitter
  | .rsbR =>
      flagging emitter ctx.sBit (shifted ++ [.alu .sub eax (guest ctx.rn), storeRd]) []
  | .orrR =>
      flagging emitter ctx.sBit (shifted ++ [.alu .or eax (guest ctx.rn), storeRd] ++ loadCarry) []
  | .rscR =>
      flagging emitter ctx.sBit
        (loadFlagsUnless flagsActual ++
          [.cmc, .mov ecx (guest ctx.rn), .alu .adc ecx (.imm8 0)] ++ shifted ++
          [.alu .sub eax ecx, storeRd]) [.cmc]
  | .clz => plain (clzCode ctx)
  | .mlaR =>
      flagging emitter ctx.sBit
        (breakIfPc ctx.rm ++ breakIfPc ctx.rs ++ breakIfPc ctx.rd ++ breakIfPc ctx.rn ++
          [.alu .xor edx edx, .mov eax (guest ctx.rm), .mul (.reg ctx.rs),
            .alu .add eax (guest ctx.rn), storeRd]) []
  | .umull => flagging emitter ctx.sBit (mulLong ctx (.mul (.reg ctx.rs)) false) []
  | .umlal => flagging emitter ctx.sBit (mulLong ctx (.mul (.reg ctx.rs)) true) []
  | .smull => flagging emitter ctx.sBit (mulLong ctx (.imul (.reg ctx.rs)) false) []
  | .smlal => flagging emitter ctx.sBit (mulLong ctx (.imul (.reg ctx.rs)) true) []
  | .mulR =>
      flagging emitter ctx.sBit
        (breakIfPc ctx.rm ++ breakIfPc ctx.rs ++ breakIfPc ctx.rd ++
          [.mov eax (guest ctx.rm), .cdq, .imul (.reg ctx.rs), storeRd, .alu .or eax eax]) []
  | .swp =>
      plain [.mov ecx (guest ctx.rn), .push ecx, .call .load32, .pop ecx, .mov edx (guest ctx.rm),
        storeRd, .call .store32]
  | .swpb =>
      plain [.mov ecx (guest ctx.rn), .push ecx, .call .load8u, .pop ecx, .mov edx (guest ctx.rm),
        storeRd, .call .store8]
  | .mrsCpsr => plain (breakIfPc ctx.rd ++ [.call .storecpsr, storeRd])
  | .mrsSpsr => plain (breakIfPc ctx.rd ++ [.mov eax (.field .spsr), storeRd])
  | .msrCpsrI => plain (msrCode ctx false fun dst => .mov dst (.imm32 ctx.imm))
  | .msrSpsrI => plain (msrCode ctx true fun dst => .mov dst (.imm32 ctx.imm))
  | .msrCpsrR => plain (msrCode ctx false fun dst => .mov dst (guest ctx.rm))
  | .msrSpsrR => plain (msrCode ctx true fun dst => .mov dst (guest ctx.rm))
  | .tstI =>
      flagging emitter true
        (breakIfPc ctx.rn ++ [.alu .test (guest ctx.rn) (.imm32 ctx.imm)]) []
  | .tstR =>
      flagging emitter true (breakIfPc ctx.rn ++ shifted ++ [.alu .test (guest ctx.rn) eax]) []
  | .teqI =>
      -- the register is taken from `rm`
      flagging emitter true
        (breakIfPc ctx.rn ++ [.mov eax (guest ctx.rm), .alu .xor eax (.imm32 ctx.imm)]) []
  | .teqR =>
      flagging emitter true (breakIfPc ctx.rn ++ shifted ++ [.alu .xor eax (guest ctx.rn)]) []
  | .cmpI =>
      flagging emitter true
        (breakIfPc ctx.rn ++ [.alu .cmp (guest ctx.rn) (.imm32 ctx.imm)]) [.cmc]
  | .cmnI =>
      flagging emitter true
        (breakIfPc ctx.rn ++ [.mov eax (.imm32 ctx.imm), .alu .add eax (guest ctx.rn)]) []
  | .cmpR =>
      flagging emitter true (breakIfPc ctx.rn ++ shifted ++ [.alu .cmp (guest ctx.rn) eax]) [.cmc]
  | .cmnR =>
      flagging emitter true (breakIfPc ctx.rn ++ shifted ++ [.alu .add eax (guest ctx.rn)]) []
  | .stm => plain ((if ctx.sBit then [debugBreak] else []) ++ stmTransfer ctx emitter)
  | .stmW =>
      plain ((if ctx.sBit then [debugBreak] else []) ++ stmTransfer ctx emitter ++
        updateDest ctx (transferList ctx).length)
  | .ldm | .ldmW => plain (ldmCode ctx)
  | .swi => plain [.mov ecx (.imm32 ctx.imm), .call .swi]
  | _ => plain [debugBreak]

/-- The jump over an instruction whose condition does not hold, and what is
emitted before it.  The carry means the opposite in the last two conditions on
it. -/
def condJump : Condition → List HostInstr × JumpCond
  | .eq => ([], .nz)
  | .ne => ([], .z)
  | .cs => ([], .nc)
  | .cc => ([], .c)
  | .mi => ([], .ns)
  | .pl => ([], .s)
  | .vs => ([], .no)
  | .vc => ([], .o)
  | .hi => ([.cmc], .be)
  | .ls => ([.cmc], .nbe)
  | .ge => ([], .l)
  | .lt => ([], .ge)
  | .gt => ([], .le)
  | _ => ([], .g)

/-- A condition that is tested. -/
def conditional : Bool := ctx.cond ≠ .al ∧ ctx.cond ≠ .nv

/-- `flags_actual` after the cycle counter. -/
def flagsHeld (flagsUpdated : Bool) : Bool := flagsUpdated && !emitter.lookaheadS

/-- The cycle counter; `inc` is used where the flags are not needed. -/
def countCycle : HostInstr := if emitter.lookaheadS then .inc .ebx else .leaEbx

/-- What comes before the body: the counter, and for a conditional instruction
the test with the jump over so many bytes. -/
def preamble (flagsUpdated : Bool) (skipped : Nat) : List HostInstr :=
  countCycle emitter ::
    if conditional ctx then
      loadFlagsUnless (flagsHeld emitter flagsUpdated) ++ (condJump ctx.cond).1 ++
        [.jcc (condJump ctx.cond).2 skipped]
    else []

/-- `compile_instruction`.  It asserts that the jump distance fits a byte. -/
def compileInstruction (flagsUpdated : Bool) : Emitted :=
  let body := compileBody ctx emitter (flagsHeld emitter flagsUpdated || conditional ctx)
  ⟨preamble ctx emitter flagsUpdated (bytes body.code) ++ body.code, body.flagsUpdated⟩

/-! ### Pages -/

/-- `lookahead_s` in front of an instruction. -/
def lookahead (next : Context) : Bool :=
  next.sBit && next.instruction ∉ [.adcI, .adcR, .adcRR, .sbcI, .sbcR, .sbcRR] &&
    next.shift ≠ .rrx

/-- The loop of `compile` over the rest of a page. -/
def compileLoop (instBits : Nat) : (inst : Nat) → (flagsUpdated : Bool) → List Context →
    List HostInstr
  | _, _, [] => []
  | inst, flagsUpdated, ctx :: page =>
      let lookaheadS := match page with
        | [] => false
        | next :: _ => lookahead next
      let emitted := compileInstruction ctx ⟨instBits, inst, lookaheadS⟩ flagsUpdated
      emitted.code ++ compileLoop instBits (inst + 1) emitted.flagsUpdated page

/-- `epilogue`: go on with the next page. -/
def epilogue : List HostInstr :=
  loadR15Ecx ++ [.alu .add ecx (.imm32 512), .mov (guest 15) ecx, .jmpBranch]

/-- The code of a page before its epilogue. -/
def compilePage (instBits : Nat) (page : List Context) : List HostInstr :=
  compileLoop instBits 0 false page

end Compiler

end Ndse
