import Ndse.Library.ByteMemory
import Ndse.Library.CarryArithmetic
import Ndse.Library.FlatCode
import Ndse.Processor

/-!
# The host machine

The part of the host that translated code uses: five general registers, the
stack, the arithmetic flags, and `ebp`, which points at a register context.
The functions of the emulator that translated code calls are parameters, except
for the two that access the status register.
-/

namespace Ndse

open CarryArithmetic

/-! ### Registers and operands -/

inductive HostReg
  | eax | ecx | edx | ebx | esi
deriving DecidableEq, Repr

/-- `OFFSET(z)`: the fields of a context. -/
inductive Field
  | reg (index : Fin 16)
  | cpsr | spsr | x86Flags | bpre | controlRegister
deriving DecidableEq, Repr

namespace Field

def offset : Field → Nat
  | reg index => 4 * index.val
  | cpsr => 64
  | spsr => 68
  | x86Flags => 72
  | bpre => 76
  | controlRegister => 80

end Field

namespace EmulationContext

def get (context : EmulationContext) : Field → BitVec 32
  | .reg index => context.regs index
  | .cpsr => context.cpsr
  | .spsr => context.spsr
  | .x86Flags => context.x86Flags
  | .bpre => context.bpre
  | .controlRegister => context.controlRegister

def set (context : EmulationContext) (field : Field) (value : BitVec 32) : EmulationContext :=
  match field with
  | .reg index => { context with regs := Function.update context.regs index value }
  | .cpsr => { context with cpsr := value }
  | .spsr => { context with spsr := value }
  | .x86Flags => { context with x86Flags := value }
  | .bpre => { context with bpre := value }
  | .controlRegister => { context with controlRegister := value }

@[simp]
theorem get_reg (context : EmulationContext) (index : Fin 16) :
    context.get (.reg index) = context.regs index := rfl

@[simp]
theorem get_x86Flags (context : EmulationContext) : context.get .x86Flags = context.x86Flags := rfl

@[simp]
theorem set_reg_regs (context : EmulationContext) (index : Fin 16) (value : BitVec 32) :
    (context.set (.reg index) value).regs = Function.update context.regs index value := rfl

@[simp]
theorem set_reg_x86Flags (context : EmulationContext) (index : Fin 16) (value : BitVec 32) :
    (context.set (.reg index) value).x86Flags = context.x86Flags := rfl

@[simp]
theorem set_x86Flags_regs (context : EmulationContext) (value : BitVec 32) :
    (context.set .x86Flags value).regs = context.regs := rfl

@[simp]
theorem set_x86Flags_x86Flags (context : EmulationContext) (value : BitVec 32) :
    (context.set .x86Flags value).x86Flags = value := rfl

@[simp]
theorem get_bpre (context : EmulationContext) : context.get .bpre = context.bpre := rfl

@[simp]
theorem set_reg_bpre (context : EmulationContext) (index : Fin 16) (value : BitVec 32) :
    (context.set (.reg index) value).bpre = context.bpre := rfl

@[simp]
theorem set_bpre_regs (context : EmulationContext) (value : BitVec 32) :
    (context.set .bpre value).regs = context.regs := rfl

@[simp]
theorem set_bpre_bpre (context : EmulationContext) (value : BitVec 32) :
    (context.set .bpre value).bpre = value := rfl

end EmulationContext

/-- Operands: a register, `[ebp+OFFSET(field)]`, and the two immediate forms. -/
inductive Operand
  | reg (register : HostReg)
  | field (field : Field)
  | imm8 (value : BitVec 32)
  | imm32 (value : BitVec 32)
deriving DecidableEq, Repr

/-! ### Instructions -/

inductive AluOp
  | add | adc | sub | sbb | and | or | xor | cmp | test
deriving DecidableEq, Repr

inductive ShiftOp
  | shl | shr | sar | ror
deriving DecidableEq, Repr

/-- The conditions of the conditional jumps. -/
inductive JumpCond
  | nz | z | nc | c | ns | s | no | o | be | nbe | l | ge | le | g
deriving DecidableEq, Repr

/-- The functions translated code calls. -/
inductive Helper
  | store32 | store16 | store8 | store32Array
  | load32 | load16u | load16s | load8u | load32Array
  | loadcpsr | storecpsr
  | pushcallstack | popcallstack | remapTcm | swi | debugMagic
deriving DecidableEq, Repr

inductive HostInstr
  | mov (dst src : Operand)
  | alu (op : AluOp) (dst src : Operand)
  | not (dst : Operand)
  | neg (dst : Operand)
  | inc (dst : HostReg)
  | dec (dst : Operand)
  | mul (src : Field)
  | imul (src : Field)
  | cdq
  | movsxEaxAl
  | cmovaEcxEsi
  | shift (op : ShiftOp) (amount : BitVec 32)
  | shiftCl (op : ShiftOp)
  | shlEcx
  | shrEsi (amount : BitVec 32)
  | rcl (dst : HostReg)
  | rcr (dst : HostReg)
  | rorAl
  | cmc
  | setoAl
  | lahf
  | sahf
  | leaEbx
  | leaEax (field : Field)
  | push (src : Operand)
  | pushEbp
  | pushEsp
  | pop (dst : Operand)
  | popEax (index : Fin 16)
  | addEsp (amount : BitVec 32)
  | subEsp (amount : BitVec 32)
  | movEbpEax
  | nop
  | call (helper : Helper)
  | jcc (cond : JumpCond) (displacement : Int)
  | jmp (displacement : Int)
  | jmpBranch
  | iret
deriving DecidableEq, Repr

namespace HostInstr

/-- The bytes of each encoding the compiler emits. -/
def size : HostInstr → Nat
  | mov (.reg _) (.imm32 _) => 5
  | mov (.field _) (.imm32 _) => 7
  | mov (.reg _) (.reg _) => 2
  | mov _ _ => 3
  | alu _ (.reg .eax) (.imm32 _) => 5
  | alu _ (.reg _) (.imm32 _) => 6
  | alu _ (.field _) (.imm32 _) => 7
  | alu _ (.field _) (.imm8 _) => 4
  | alu _ (.reg _) (.reg _) => 2
  | alu _ _ _ => 3
  | not (.reg _) => 2
  | not _ => 3
  | neg (.reg _) => 2
  | neg _ => 3
  | inc _ => 1
  | dec (.reg _) => 1
  | dec _ => 3
  | mul _ => 3
  | imul _ => 3
  | cdq => 1
  | movsxEaxAl => 3
  | cmovaEcxEsi => 3
  | shift _ _ => 3
  | shiftCl _ => 2
  | shlEcx => 2
  | shrEsi _ => 3
  | rcl _ => 2
  | rcr _ => 2
  | rorAl => 2
  | cmc => 1
  | setoAl => 3
  | lahf => 1
  | sahf => 1
  | leaEbx => 3
  | leaEax _ => 3
  | push (.imm8 _) => 2
  | push (.imm32 _) => 5
  | push (.reg _) => 1
  | push (.field _) => 3
  | pushEbp => 1
  | pushEsp => 1
  | pop (.reg _) => 1
  | pop _ => 3
  | popEax _ => 3
  | addEsp _ => 3
  | subEsp _ => 3
  | movEbpEax => 2
  | nop => 1
  | call _ => 5
  | jcc _ _ => 2
  | jmp _ => 2
  | jmpBranch => 5
  | iret => 1

theorem size_pos (instr : HostInstr) : 0 < instr.size := by
  cases instr
  case mov | alu | not | neg | dec | push | pop =>
    -- the size depends on the operands
    unfold size
    split <;> decide
  all_goals simp only [size, Nat.zero_lt_succ]

end HostInstr

/-! ### Flags -/

structure HostFlags where
  cf : Bool
  pf : Bool
  af : Bool
  zf : Bool
  sf : Bool
  of : Bool
deriving DecidableEq, Repr

/-- Even parity of the low byte. -/
def evenParity (value : BitVec 32) : Bool :=
  !((List.range 8).map value.getLsbD).foldl Bool.xor false

/-- The carry between the low nibbles. -/
def nibbleCarry (a b result : BitVec 32) : Bool := (a ^^^ b ^^^ result).getLsbD 4

namespace HostFlags

/-- Sign, zero and parity follow the result. -/
def ofResult (result : BitVec 32) (cf af of : Bool) : HostFlags where
  cf := cf
  pf := evenParity result
  af := af
  zf := result == 0
  sf := result.msb
  of := of

/-- The byte `lahf` loads. -/
def toByte (flags : HostFlags) : BitVec 8 :=
  BitVec.ofBoolListLE
    [flags.cf, true, flags.pf, false, flags.af, false, flags.zf, flags.sf]

end HostFlags

/-! ### Arithmetic -/

def aluResult (op : AluOp) (flags : HostFlags) (a b : BitVec 32) : BitVec 32 :=
  match op with
  | .add => addCarry a b false
  | .adc => addCarry a b flags.cf
  | .sub => subBorrow a b false
  | .cmp => subBorrow a b false
  | .sbb => subBorrow a b flags.cf
  | .and => a &&& b
  | .test => a &&& b
  | .or => a ||| b
  | .xor => a ^^^ b

/-- Logical operations clear carry and overflow and leave the auxiliary carry
undefined. -/
def aluFlags (op : AluOp) (flags junk : HostFlags) (a b : BitVec 32) : HostFlags :=
  let result := aluResult op flags a b
  match op with
  | .add => .ofResult result (carryOut a b false) (nibbleCarry a b result) (addOverflow a b false)
  | .adc =>
      .ofResult result (carryOut a b flags.cf) (nibbleCarry a b result)
        (addOverflow a b flags.cf)
  | .sub | .cmp =>
      .ofResult result (borrowOut a b false) (nibbleCarry a b result) (subOverflow a b false)
  | .sbb =>
      .ofResult result (borrowOut a b flags.cf) (nibbleCarry a b result)
        (subOverflow a b flags.cf)
  | .and | .test | .or | .xor => .ofResult result false junk.af false

def AluOp.writes : AluOp → Bool
  | .cmp | .test => false
  | _ => true

def shiftResult (op : ShiftOp) (value : BitVec 32) (count : Nat) : BitVec 32 :=
  match op with
  | .shl => value <<< count
  | .shr => value >>> count
  | .sar => value.sshiftRight count
  | .ror => value.rotateRight count

/-- The flags after a shift by a masked count.  The overflow flag is defined
for a count of one only; a count of zero changes nothing. -/
def shiftFlags (op : ShiftOp) (flags junk : HostFlags) (value : BitVec 32) (count : Nat) :
    HostFlags :=
  let result := shiftResult op value count
  if count = 0 then flags
  else
    match op with
    | .shl =>
        let cf := value.getLsbD (32 - count)
        .ofResult result cf junk.af (if count = 1 then result.msb != cf else junk.of)
    | .shr =>
        .ofResult result (value.getLsbD (count - 1)) junk.af
          (if count = 1 then value.msb else junk.of)
    | .sar =>
        .ofResult result (value.getLsbD (count - 1)) junk.af
          (if count = 1 then false else junk.of)
    | .ror =>
        { flags with
          cf := result.msb
          of := if count = 1 then result.msb != result.getLsbD 30 else junk.of }

/-- `rcl r, 1`: the bits move through the carry. -/
def rotateLeftCarry (value : BitVec 32) (carry : Bool) : BitVec 32 :=
  (value <<< 1) ||| (BitVec.ofBool carry).setWidth 32

/-- `rcr r, 1`. -/
def rotateRightCarry (value : BitVec 32) (carry : Bool) : BitVec 32 :=
  (value >>> 1) ||| ((BitVec.ofBool carry).setWidth 32 <<< 31)

/-! ### State and surroundings -/

@[ext]
structure HostState (World : Type) where
  regs : HostReg → BitVec 32
  esp : BitVec 32
  ebp : CpuMode
  flags : HostFlags
  stack : BitVec 32 → BitVec 32
  processor : Processor
  world : World

/-- What a called function leaves in the registers it need not preserve. -/
structure Clobbered where
  eax : BitVec 32
  ecx : BitVec 32
  edx : BitVec 32
  flags : HostFlags

/-- The arguments of a call: the registers, and the words above the return
address. -/
structure CallArgs where
  ecx : BitVec 32
  edx : BitVec 32
  words : List (BitVec 32)

/-- The surroundings of translated code: where the contexts lie, the functions
of the emulator as functions of their arguments and of what is outside of the
contexts, and what the hardware and the called functions leave undefined. -/
structure HostEnv (World : Type) where
  address : CpuMode → BitVec 32
  address_injective : Function.Injective address
  store32 : World → BitVec 32 → BitVec 32 → World
  store16 : World → BitVec 32 → BitVec 32 → World
  store8 : World → BitVec 32 → BitVec 32 → World
  store32Array : World → BitVec 32 → List (BitVec 32) → World
  load32 : World → BitVec 32 → World × BitVec 32
  load16u : World → BitVec 32 → World × BitVec 32
  load16s : World → BitVec 32 → World × BitVec 32
  load8u : World → BitVec 32 → World × BitVec 32
  load32Array : World → BitVec 32 → Nat → World × List (BitVec 32)
  pushcallstack : World → BitVec 32 → World
  popcallstack : World → BitVec 32 → World
  remapTcm : World → BitVec 32 → BitVec 32 → World
  swi : World → Processor → BitVec 32 → World × Processor
  debugMagic : World → Processor → BitVec 32 → World × Option (BitVec 32)
  clobbered : Helper → CallArgs → World → Processor → Clobbered
  undefined : HostInstr → BitVec 32 → BitVec 32 → HostFlags

/-- Surroundings in which the functions of the emulator do nothing. -/
def HostEnv.idle : HostEnv Unit where
  address
    | .user => 0x1000
    | .supervisor => 0x1100
    | .abort => 0x1200
    | .undefined => 0x1300
    | .interrupt => 0x1400
    | .fastint => 0x1500
  address_injective := by
    intro one other
    cases one <;> cases other <;> simp
  store32 := fun world _ _ => world
  store16 := fun world _ _ => world
  store8 := fun world _ _ => world
  store32Array := fun world _ _ => world
  load32 := fun world _ => (world, 0)
  load16u := fun world _ => (world, 0)
  load16s := fun world _ => (world, 0)
  load8u := fun world _ => (world, 0)
  load32Array := fun world _ num => (world, List.replicate num 0)
  pushcallstack := fun world _ => world
  popcallstack := fun world _ => world
  remapTcm := fun world _ _ => world
  swi := fun world processor _ => (world, processor)
  debugMagic := fun world _ _ => (world, none)
  clobbered := fun _ _ _ _ => ⟨0, 0, 0, ⟨false, false, false, false, false, false⟩⟩
  undefined := fun _ _ _ => ⟨false, false, false, false, false, false⟩

namespace HostState

variable {World : Type}

def setReg (state : HostState World) (register : HostReg) (value : BitVec 32) :
    HostState World :=
  { state with regs := Function.update state.regs register value }

def setFlags (state : HostState World) (flags : HostFlags) : HostState World :=
  { state with flags := flags }

def setEsp (state : HostState World) (esp : BitVec 32) : HostState World :=
  { state with esp := esp }

def setStack (state : HostState World) (address value : BitVec 32) : HostState World :=
  { state with stack := Function.update state.stack address value }

/-- The context `ebp` points at. -/
def context (state : HostState World) : EmulationContext := state.processor.context state.ebp

def setContext (state : HostState World) (context : EmulationContext) : HostState World :=
  { state with
    processor :=
      { state.processor with
        context := Function.update state.processor.context state.ebp context } }

def read (state : HostState World) : Operand → BitVec 32
  | .reg register => state.regs register
  | .field field => state.context.get field
  | .imm8 value => value
  | .imm32 value => value

def write (state : HostState World) (dst : Operand) (value : BitVec 32) : HostState World :=
  match dst with
  | .reg register => state.setReg register value
  | .field field => state.setContext (state.context.set field value)
  | .imm8 _ => state
  | .imm32 _ => state

def push (state : HostState World) (value : BitVec 32) : HostState World :=
  (state.setEsp (state.esp - 4)).setStack (state.esp - 4) value

/-! ### Reading back -/

section

variable (state : HostState World) (register : HostReg) (value : BitVec 32) (flags : HostFlags)
  (context : EmulationContext)

@[simp] theorem setReg_regs :
    (state.setReg register value).regs = Function.update state.regs register value := rfl
@[simp] theorem setReg_flags : (state.setReg register value).flags = state.flags := rfl
@[simp] theorem setReg_context : (state.setReg register value).context = state.context := rfl
@[simp] theorem setReg_processor : (state.setReg register value).processor = state.processor := rfl
@[simp] theorem setReg_ebp : (state.setReg register value).ebp = state.ebp := rfl
@[simp] theorem setReg_esp : (state.setReg register value).esp = state.esp := rfl
@[simp] theorem setReg_stack : (state.setReg register value).stack = state.stack := rfl
@[simp] theorem setReg_world : (state.setReg register value).world = state.world := rfl

@[simp] theorem setFlags_regs : (state.setFlags flags).regs = state.regs := rfl
@[simp] theorem setFlags_flags : (state.setFlags flags).flags = flags := rfl
@[simp] theorem setFlags_context : (state.setFlags flags).context = state.context := rfl
@[simp] theorem setFlags_processor : (state.setFlags flags).processor = state.processor := rfl
@[simp] theorem setFlags_ebp : (state.setFlags flags).ebp = state.ebp := rfl
@[simp] theorem setFlags_esp : (state.setFlags flags).esp = state.esp := rfl
@[simp] theorem setFlags_stack : (state.setFlags flags).stack = state.stack := rfl
@[simp] theorem setFlags_world : (state.setFlags flags).world = state.world := rfl

@[simp] theorem setEsp_regs : (state.setEsp value).regs = state.regs := rfl
@[simp] theorem setEsp_flags : (state.setEsp value).flags = state.flags := rfl
@[simp] theorem setEsp_context : (state.setEsp value).context = state.context := rfl
@[simp] theorem setEsp_processor : (state.setEsp value).processor = state.processor := rfl
@[simp] theorem setEsp_ebp : (state.setEsp value).ebp = state.ebp := rfl
@[simp] theorem setEsp_esp : (state.setEsp value).esp = value := rfl
@[simp] theorem setEsp_stack : (state.setEsp value).stack = state.stack := rfl
@[simp] theorem setEsp_world : (state.setEsp value).world = state.world := rfl

variable (address : BitVec 32)

@[simp] theorem setStack_regs : (state.setStack address value).regs = state.regs := rfl
@[simp] theorem setStack_flags : (state.setStack address value).flags = state.flags := rfl
@[simp] theorem setStack_context : (state.setStack address value).context = state.context := rfl
@[simp] theorem setStack_processor :
    (state.setStack address value).processor = state.processor := rfl
@[simp] theorem setStack_ebp : (state.setStack address value).ebp = state.ebp := rfl
@[simp] theorem setStack_esp : (state.setStack address value).esp = state.esp := rfl
@[simp] theorem setStack_stack :
    (state.setStack address value).stack = Function.update state.stack address value := rfl
@[simp] theorem setStack_world : (state.setStack address value).world = state.world := rfl

@[simp] theorem setContext_regs : (state.setContext context).regs = state.regs := rfl
@[simp] theorem setContext_flags : (state.setContext context).flags = state.flags := rfl
@[simp] theorem setContext_ebp : (state.setContext context).ebp = state.ebp := rfl
@[simp] theorem setContext_esp : (state.setContext context).esp = state.esp := rfl
@[simp] theorem setContext_stack : (state.setContext context).stack = state.stack := rfl
@[simp] theorem setContext_world : (state.setContext context).world = state.world := rfl

@[simp] theorem setReg_setContext_processor :
    ((state.setReg register value).setContext context).processor =
      (state.setContext context).processor := rfl
@[simp] theorem setFlags_setContext_processor :
    ((state.setFlags flags).setContext context).processor =
      (state.setContext context).processor := rfl
@[simp] theorem setEsp_setContext_processor :
    ((state.setEsp value).setContext context).processor =
      (state.setContext context).processor := rfl
@[simp] theorem setStack_setContext_processor :
    ((state.setStack address value).setContext context).processor =
      (state.setContext context).processor := rfl

@[simp] theorem setContext_context : (state.setContext context).context = context := by
  simp [setContext, HostState.context]

theorem setContext_processor_context (mode : CpuMode) :
    (state.setContext context).processor.context mode =
      if mode = state.ebp then context else state.processor.context mode := by
  simp [setContext, Function.update_apply]

@[simp] theorem setContext_processor_regs (mode : CpuMode) :
    ((state.setContext context).processor.context mode).regs =
      if mode = state.ebp then context.regs else (state.processor.context mode).regs := by
  rw [setContext_processor_context]
  split <;> rfl

end

@[simp]
theorem read_reg (state : HostState World) (register : HostReg) :
    state.read (.reg register) = state.regs register := rfl

@[simp]
theorem read_field (state : HostState World) (field : Field) :
    state.read (.field field) = state.context.get field := rfl

@[simp]
theorem read_imm8 (state : HostState World) (value : BitVec 32) :
    state.read (.imm8 value) = value := rfl

@[simp]
theorem read_imm32 (state : HostState World) (value : BitVec 32) :
    state.read (.imm32 value) = value := rfl

@[simp]
theorem write_reg (state : HostState World) (register : HostReg) (value : BitVec 32) :
    state.write (.reg register) value = state.setReg register value := rfl

@[simp]
theorem write_field (state : HostState World) (field : Field) (value : BitVec 32) :
    state.write (.field field) value = state.setContext (state.context.set field value) := rfl

/-- The context register at a host address. -/
def contextAt (env : HostEnv World) (pointer : BitVec 32) : Option (CpuMode × Fin 16) :=
  [CpuMode.user, .supervisor, .abort, .undefined, .interrupt, .fastint].findSome? fun mode =>
    (List.finRange 16).findSome? fun index =>
      if pointer = env.address mode + BitVec.ofNat 32 (4 * index.val) then some (mode, index)
      else none

/-- A word of host memory, in a context or on the stack. -/
def peek (env : HostEnv World) (state : HostState World) (pointer : BitVec 32) : BitVec 32 :=
  match contextAt env pointer with
  | some (mode, index) => (state.processor.context mode).regs index
  | none => state.stack pointer

def poke (env : HostEnv World) (state : HostState World) (pointer value : BitVec 32) :
    HostState World :=
  match contextAt env pointer with
  | some (mode, index) =>
      { state with
        processor :=
          { state.processor with
            context := Function.update state.processor.context mode
              ((state.processor.context mode).set (.reg index) value) } }
  | none => state.setStack pointer value

/-- Store words from a pointer on. -/
def pokeWords (env : HostEnv World) (state : HostState World) (pointer : BitVec 32) :
    List (BitVec 32) → HostState World
  | [] => state
  | word :: words => pokeWords env (state.poke env pointer word) (pointer + 4) words

/-- The mode of the context a host address points at. -/
def modeAt (env : HostEnv World) (pointer : BitVec 32) : Option CpuMode :=
  [CpuMode.user, .supervisor, .abort, .undefined, .interrupt, .fastint].find? fun mode =>
    pointer = env.address mode

/-! ### Calls -/

/-- The three words of the array functions: address, number and data. -/
def arrayArgs (state : HostState World) : List (BitVec 32) :=
  [state.stack state.esp, state.stack (state.esp + 4), state.stack (state.esp + 8)]

def callArgs (state : HostState World) : Helper → CallArgs
  | .store32Array => ⟨(state.regs .ecx), (state.regs .edx), state.arrayArgs⟩
  | .load32Array => ⟨(state.regs .ecx), (state.regs .edx), state.arrayArgs⟩
  | _ => ⟨(state.regs .ecx), (state.regs .edx), []⟩

/-- What a called function does to the processor, to the stack and outside, and
the value it returns. -/
def helperEffect (env : HostEnv World) (state : HostState World) (helper : Helper) :
    HostState World × Option (BitVec 32) :=
  let addr := state.stack state.esp
  let num := (state.stack (state.esp + 4)).toNat
  let data := state.stack (state.esp + 8)
  match helper with
  | .store32 =>
      ({ state with world := env.store32 state.world (state.regs .ecx) (state.regs .edx) }, none)
  | .store16 =>
      ({ state with world := env.store16 state.world (state.regs .ecx) (state.regs .edx) }, none)
  | .store8 =>
      ({ state with world := env.store8 state.world (state.regs .ecx) (state.regs .edx) }, none)
  | .store32Array =>
      let words := (List.range num).map fun i => state.peek env (data + BitVec.ofNat 32 (4 * i))
      ({ state with world := env.store32Array state.world addr words }, none)
  | .load32 =>
      let loaded := env.load32 state.world (state.regs .ecx)
      ({ state with world := loaded.1 }, some loaded.2)
  | .load16u =>
      let loaded := env.load16u state.world (state.regs .ecx)
      ({ state with world := loaded.1 }, some loaded.2)
  | .load16s =>
      let loaded := env.load16s state.world (state.regs .ecx)
      ({ state with world := loaded.1 }, some loaded.2)
  | .load8u =>
      let loaded := env.load8u state.world (state.regs .ecx)
      ({ state with world := loaded.1 }, some loaded.2)
  | .load32Array =>
      let loaded := env.load32Array state.world addr num
      ({ state with world := loaded.1 }.pokeWords env data loaded.2, none)
  | .loadcpsr =>
      let processor := (loadcpsr state.processor (state.regs .ecx) (state.regs .edx)).1
      ({ state with processor := processor }, some (env.address processor.mode))
  | .storecpsr => (state, some (storecpsr state.processor))
  | .pushcallstack =>
      ({ state with world := env.pushcallstack state.world (state.regs .ecx) }, none)
  | .popcallstack => ({ state with world := env.popcallstack state.world (state.regs .ecx) }, none)
  | .remapTcm =>
      ({ state with world := env.remapTcm state.world (state.regs .ecx) (state.regs .edx) }, none)
  | .swi =>
      let result := env.swi state.world state.processor (state.regs .ecx)
      ({ state with world := result.1, processor := result.2 }, none)
  | .debugMagic =>
      -- some magic words return a value in `r0`
      let result := env.debugMagic state.world state.processor (state.regs .ecx)
      ({ state with
        world := result.1
        processor := match result.2 with
          | some value => state.processor.writeReg 0 value
          | none => state.processor }, none)

def call (env : HostEnv World) (state : HostState World) (helper : Helper) : HostState World :=
  let clobbered := env.clobbered helper (state.callArgs helper) state.world state.processor
  let result := state.helperEffect env helper
  (((result.1.setReg .eax (result.2.getD clobbered.eax)).setReg .ecx clobbered.ecx).setReg .edx
    clobbered.edx).setFlags clobbered.flags

end HostState

/-! ### Executing instructions -/

def JumpCond.holds (flags : HostFlags) : JumpCond → Bool
  | .nz => !flags.zf
  | .z => flags.zf
  | .nc => !flags.cf
  | .c => flags.cf
  | .ns => !flags.sf
  | .s => flags.sf
  | .no => !flags.of
  | .o => flags.of
  | .be => flags.cf || flags.zf
  | .nbe => !(flags.cf || flags.zf)
  | .l => flags.sf != flags.of
  | .ge => flags.sf == flags.of
  | .le => flags.zf || flags.sf != flags.of
  | .g => !flags.zf && flags.sf == flags.of

namespace HostInstr

variable {World : Type}

/-- The part of the machine without control flow. -/
def apply (env : HostEnv World) (instr : HostInstr) (state : HostState World) :
    HostState World :=
  match instr with
  | mov dst src => state.write dst (state.read src)
  | alu op dst src =>
      let a := state.read dst
      let b := state.read src
      let flags := aluFlags op state.flags (env.undefined instr a b) a b
      if op.writes then (state.write dst (aluResult op state.flags a b)).setFlags flags
      else state.setFlags flags
  | not dst => state.write dst (~~~state.read dst)
  | neg dst =>
      let b := state.read dst
      (state.write dst (aluResult .sub state.flags 0 b)).setFlags
        (aluFlags .sub state.flags state.flags 0 b)
  | inc dst =>
      let a := state.regs dst
      (state.setReg dst (a + 1)).setFlags
        { aluFlags .add state.flags state.flags a 1 with cf := state.flags.cf }
  | dec dst =>
      let a := state.read dst
      (state.write dst (a - 1)).setFlags
        { aluFlags .sub state.flags state.flags a 1 with cf := state.flags.cf }
  | mul src =>
      let a := state.regs .eax
      let b := state.context.get src
      let product := a.setWidth 64 * b.setWidth 64
      let high := product.extractLsb' 32 32
      ((state.setReg .eax (product.setWidth 32)).setReg .edx high).setFlags
        { env.undefined instr a b with cf := high != 0, of := high != 0 }
  | imul src =>
      let a := state.regs .eax
      let b := state.context.get src
      let product := a.signExtend 64 * b.signExtend 64
      let wide := product != (product.setWidth 32).signExtend 64
      ((state.setReg .eax (product.setWidth 32)).setReg .edx (product.extractLsb' 32 32)).setFlags
        { env.undefined instr a b with cf := wide, of := wide }
  | cdq => state.setReg .edx (if (state.regs .eax).msb then BitVec.allOnes 32 else 0)
  | movsxEaxAl => state.setReg .eax (((state.regs .eax).setWidth 8).signExtend 32)
  | cmovaEcxEsi =>
      if state.flags.cf || state.flags.zf then state else state.setReg .ecx (state.regs .esi)
  | shift op amount =>
      let value := state.regs .eax
      let count := amount.toNat % 32
      (state.setReg .eax (shiftResult op value count)).setFlags
        (shiftFlags op state.flags (env.undefined instr value amount) value count)
  | shiftCl op =>
      let value := state.regs .eax
      let amount := state.regs .ecx
      let count := amount.toNat % 32
      (state.setReg .eax (shiftResult op value count)).setFlags
        (shiftFlags op state.flags (env.undefined instr value amount) value count)
  | shlEcx =>
      let value := state.regs .ecx
      (state.setReg .ecx (shiftResult .shl value 1)).setFlags
        (shiftFlags .shl state.flags (env.undefined instr value 1) value 1)
  | shrEsi amount =>
      let value := state.regs .esi
      let count := amount.toNat % 32
      (state.setReg .esi (shiftResult .shr value count)).setFlags
        (shiftFlags .shr state.flags (env.undefined instr value amount) value count)
  | rcl dst =>
      let value := state.regs dst
      let result := rotateLeftCarry value state.flags.cf
      (state.setReg dst result).setFlags
        { state.flags with cf := value.msb, of := result.msb != value.msb }
  | rcr dst =>
      let value := state.regs dst
      (state.setReg dst (rotateRightCarry value state.flags.cf)).setFlags
        { state.flags with cf := value.getLsbD 0, of := value.msb != state.flags.cf }
  | rorAl =>
      let low := ((state.regs .eax).setWidth 8).rotateRight 1
      (state.setReg .eax (ByteMemory.setField (state.regs .eax) 0 low)).setFlags
        { state.flags with cf := low.msb, of := low.msb != low.getLsbD 6 }
  | cmc => state.setFlags { state.flags with cf := !state.flags.cf }
  | setoAl =>
      state.setReg .eax
        (ByteMemory.setField (state.regs .eax) 0 ((BitVec.ofBool state.flags.of).setWidth 8))
  | lahf => state.setReg .eax (ByteMemory.setField (state.regs .eax) 8 state.flags.toByte)
  | sahf =>
      state.setFlags
        { state.flags with
          cf := (state.regs .eax).getLsbD 8
          pf := (state.regs .eax).getLsbD 10
          af := (state.regs .eax).getLsbD 12
          zf := (state.regs .eax).getLsbD 14
          sf := (state.regs .eax).getLsbD 15 }
  | leaEbx => state.setReg .ebx (state.regs .ebx + 1)
  | leaEax field =>
      state.setReg .eax (env.address state.ebp + BitVec.ofNat 32 field.offset)
  | push src => state.push (state.read src)
  | pushEbp => state.push (env.address state.ebp)
  | pushEsp => state.push state.esp
  | pop dst => (state.setEsp (state.esp + 4)).write dst (state.stack state.esp)
  | popEax index =>
      (state.setEsp (state.esp + 4)).poke env
        (state.regs .eax + BitVec.ofNat 32 (4 * index.val)) (state.stack state.esp)
  | addEsp amount =>
      (state.setEsp (state.esp + amount)).setFlags
        (aluFlags .add state.flags state.flags state.esp amount)
  | subEsp amount =>
      (state.setEsp (state.esp - amount)).setFlags
        (aluFlags .sub state.flags state.flags state.esp amount)
  | nop => state
  | call helper => state.call env helper
  | movEbpEax =>
      { state with ebp := (HostState.modeAt env (state.regs .eax)).getD state.ebp }
  | jcc _ _ => state
  | jmp _ => state
  | jmpBranch => state
  | iret => state

/-- One instruction.  The jump into the branch function and the trap leave the
code; so does a context pointer that is none. -/
def exec (env : HostEnv World) (instr : HostInstr) (state : HostState World) :
    Option (HostState World × Int) :=
  match instr with
  | jcc cond displacement =>
      some (state, if cond.holds state.flags then displacement else 0)
  | jmp displacement => some (state, displacement)
  | jmpBranch => none
  | iret => none
  | movEbpEax =>
      (HostState.modeAt env (state.regs .eax)).map fun mode => ({ state with ebp := mode }, 0)
  | instr => some (instr.apply env state, 0)

end HostInstr

/-- The host as a machine for flat code. -/
def hostIsa {World : Type} (env : HostEnv World) :
    FlatCode.Isa HostInstr (HostState World) where
  size := HostInstr.size
  size_pos := HostInstr.size_pos
  exec := HostInstr.exec env

end Ndse
