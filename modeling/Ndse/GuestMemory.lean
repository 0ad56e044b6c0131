import Ndse.PhysMem

/-!
# Memory blocks and their writers

A physical page holds its bytes, a word of flags and up to four translations,
one for each processor and instruction set.  Everything that writes to a page
marks it dirty for both processors.  Pages with an access handler belong to the
input/output regions, whose own stores are no writers of ordinary memory; they
leave the state here as it is.
-/

namespace Ndse

/-- `IS_ARM` and `IS_THUMB`. -/
inductive InstructionSet
  | arm | thumb
deriving DecidableEq, Repr

/-- `U::INSTRUCTION_SIZE_LG2`. -/
def InstructionSet.instructionSizeLg2 : InstructionSet → Nat
  | .arm => 2
  | .thumb => 1

/-- The bytes of a page. -/
abbrev PageBytes := BitVec 9 → BitVec 8

/-- `compiled_block<U>`, known by the bytes it was compiled from. -/
structure CompiledBlock where
  isa : InstructionSet
  source : PageBytes

/-! ### Flags -/

namespace PageFlag

def readProt : BitVec 32 := 0x01
def writeProt : BitVec 32 := 0x02
def execProt : BitVec 32 := 0x04
def invalid : BitVec 32 := 0x08
def dirtyJ7 : BitVec 32 := 0x10
def dirtyJ9 : BitVec 32 := 0x20
def dirtyReactor : BitVec 32 := 0x40
def dirtyVram : BitVec 32 := 0x80
def dirtySram : BitVec 32 := 0x100
def dirty : BitVec 32 := dirtyJ7 ||| dirtyJ9 ||| dirtyReactor ||| dirtyVram ||| dirtySram
def accessHandler : BitVec 32 := 0x1000
def writeProt8 : BitVec 32 := 0x2000

/-- `dirty_flag<T>::VALUE`. -/
def dirtyFor : Cpu → BitVec 32
  | .arm9 => dirtyJ9
  | .arm7 => dirtyJ7

end PageFlag

/-! ### One memory block -/

/-- `memory_block`. -/
structure BlockState where
  flags : BitVec 32
  jit : Cpu → InstructionSet → Option CompiledBlock
  recompiles : Nat
  mem : PageBytes

namespace BlockState

/-- Test some flags. -/
def has (block : BlockState) (mask : BitVec 32) : Prop := block.flags &&& mask ≠ 0

instance (block : BlockState) (mask : BitVec 32) : Decidable (block.has mask) :=
  inferInstanceAs (Decidable (_ ≠ _))

/-- `memory_block::dirty`. -/
def dirty (block : BlockState) : BlockState :=
  { block with flags := block.flags ||| PageFlag.dirty }

/-- `memory_block::recompile`. -/
def recompile (block : BlockState) (cpu : Cpu) (isa : InstructionSet) : BlockState :=
  { block with
    recompiles := block.recompiles + 1
    jit := Function.update block.jit cpu
      (Function.update (block.jit cpu) isa (some ⟨isa, block.mem⟩)) }

/-- Compile again what was compiled before. -/
def recompileExisting (block : BlockState) (cpu : Cpu) (isa : InstructionSet) : BlockState :=
  if (block.jit cpu isa).isSome then block.recompile cpu isa else block

/-- Clear the dirty flag of one processor. -/
def clean (block : BlockState) (cpu : Cpu) : BlockState :=
  { block with flags := block.flags &&& ~~~PageFlag.dirtyFor cpu }

/-- What a dirty page does for one processor before it is entered or flushed. -/
def recompileDirty (block : BlockState) (cpu : Cpu) : BlockState :=
  if block.has (PageFlag.dirtyFor cpu) then
    ((block.clean cpu).recompileExisting cpu .arm).recompileExisting cpu .thumb
  else block

/-- `memory_block::flush`. -/
def flush (block : BlockState) : BlockState :=
  (block.recompileDirty .arm7).recompileDirty .arm9

/-- Store bytes from an offset on. -/
def pokeBytes (mem : PageBytes) (offset : BitVec 9) : List (BitVec 8) → PageBytes
  | [] => mem
  | byte :: bytes => pokeBytes (Function.update mem offset byte) (offset + 1) bytes

/-- The bytes of a page change. -/
def poke (block : BlockState) (offset : BitVec 9) (bytes : List (BitVec 8)) : BlockState :=
  { block with mem := pokeBytes block.mem offset bytes }

end BlockState

/-- The low bytes of a word, in little endian order. -/
def wordBytes (size : Nat) (value : BitVec 32) : List (BitVec 8) :=
  (List.range size).map fun i => value.extractLsb' (8 * i) 8

/-- A little endian word of some bytes of a page. -/
def peekWord (mem : PageBytes) (offset : BitVec 9) (size : Nat) : BitVec 32 :=
  (List.range size).foldr
    (fun i value => (value <<< 8) ||| (mem (offset + BitVec.ofNat 9 i)).setWidth 32) 0

/-! ### The memory of the machine -/

/-- The page tables of both processors and all memory blocks. -/
structure GuestMemory where
  map : Cpu → Nat → MemoryBlock PhysRegion
  blocks : MemoryBlock PhysRegion → BlockState

namespace GuestMemory

/-- `memory_map<T>::addr2page`. -/
def addr2page (memory : GuestMemory) (cpu : Cpu) (addr : BitVec 32) : MemoryBlock PhysRegion :=
  memory.map cpu (addr >>> 9).toNat

/-- Change one block. -/
def modify (memory : GuestMemory) (block : MemoryBlock PhysRegion)
    (change : BlockState → BlockState) : GuestMemory :=
  { memory with blocks := Function.update memory.blocks block (change (memory.blocks block)) }

theorem modify_blocks (memory : GuestMemory) (page : MemoryBlock PhysRegion)
    (change : BlockState → BlockState) (other : MemoryBlock PhysRegion) :
    (memory.modify page change).blocks other =
      if other = page then change (memory.blocks page) else memory.blocks other :=
  Function.update_apply _ _ _ _

@[simp]
theorem modify_addr2page (memory : GuestMemory) (page : MemoryBlock PhysRegion)
    (change : BlockState → BlockState) (cpu : Cpu) (addr : BitVec 32) :
    (memory.modify page change).addr2page cpu addr = memory.addr2page cpu addr :=
  rfl

/-- `addr & PAGING::ADDRESS_MASK`, with the low bits of an alignment cleared. -/
def pageOffset (addr align : BitVec 32) : BitVec 9 := (addr &&& ~~~align).setWidth 9

/-- The common body of the stores: what the page is protected against, the
alignment and the number of bytes. -/
def store (memory : GuestMemory) (cpu : Cpu) (addr value protection align : BitVec 32)
    (size : Nat) : GuestMemory :=
  let b := memory.addr2page cpu addr
  if (memory.blocks b).has PageFlag.accessHandler then memory
  else if (memory.blocks b).has protection then memory
  else memory.modify b fun block =>
    (block.poke (pageOffset addr align) (wordBytes size value)).dirty

/-- `HLE::store32`. -/
def store32 (memory : GuestMemory) (cpu : Cpu) (addr value : BitVec 32) : GuestMemory :=
  memory.store cpu addr value (PageFlag.invalid ||| PageFlag.writeProt) 3 4

/-- `HLE::store16`. -/
def store16 (memory : GuestMemory) (cpu : Cpu) (addr value : BitVec 32) : GuestMemory :=
  memory.store cpu addr value (PageFlag.invalid ||| PageFlag.writeProt) 1 2

/-- `HLE::store8`. -/
def store8 (memory : GuestMemory) (cpu : Cpu) (addr value : BitVec 32) : GuestMemory :=
  memory.store cpu addr value
    (PageFlag.invalid ||| PageFlag.writeProt ||| PageFlag.writeProt8) 0 1

/-- The loop of `HLE::store32_array`: a page is marked dirty when the loop leaves
it, and the loop stops at a page that cannot be written. -/
def storeArrayLoop (cpu : Cpu) : List (BitVec 32) → GuestMemory → MemoryBlock PhysRegion →
    (addr : BitVec 32) → (subaddr : Nat) → GuestMemory
  | [], memory, b, _, _ => memory.modify b BlockState.dirty
  | value :: data, memory, b, addr, subaddr =>
      let memory := memory.modify b (·.poke (BitVec.ofNat 9 subaddr) (wordBytes 4 value))
      if subaddr + 4 = 512 then
        let memory := memory.modify b BlockState.dirty
        let addr := addr + 512
        let b := memory.addr2page cpu addr
        if (memory.blocks b).has (PageFlag.invalid ||| PageFlag.writeProt) then memory
        else storeArrayLoop cpu data memory b addr 0
      else storeArrayLoop cpu data memory b addr (subaddr + 4)

/-- `HLE::store32_array`. -/
def store32Array (memory : GuestMemory) (cpu : Cpu) (addr : BitVec 32)
    (data : List (BitVec 32)) : GuestMemory :=
  let b := memory.addr2page cpu addr
  if (memory.blocks b).has PageFlag.accessHandler then memory
  else if (memory.blocks b).has (PageFlag.invalid ||| PageFlag.writeProt) then memory
  else storeArrayLoop cpu data memory b addr (pageOffset addr 3).toNat

/-- The transfer of one unit by `start_dma`; `ioLoad` is what a region with an
access handler returns. -/
def dmaTransfer (memory : GuestMemory) (ioLoad : BitVec 32 → BitVec 32)
    (src dst : BitVec 32) (size : Nat) : GuestMemory :=
  let bs := memory.addr2page .arm9 src
  let bd := memory.addr2page .arm9 dst
  if (memory.blocks bs).has (PageFlag.invalid ||| PageFlag.readProt) then memory
  else if (memory.blocks bd).has (PageFlag.invalid ||| PageFlag.writeProt) then memory
  else if (src ||| dst) &&& BitVec.ofNat 32 (size - 1) ≠ 0 then memory
  else
    let value :=
      if (memory.blocks bs).has PageFlag.accessHandler then ioLoad src
      else peekWord (memory.blocks bs).mem (pageOffset src 0) size
    let memory :=
      if (memory.blocks bd).has PageFlag.accessHandler then memory
      else memory.modify bd (·.poke (pageOffset dst 0) (wordBytes size value))
    memory.modify bd BlockState.dirty

/-- How an address moves on: up, down or not at all. -/
def dmaAdvance (mode addr : BitVec 32) (size : Nat) (upward : List (BitVec 32)) : BitVec 32 :=
  if mode ∈ upward then addr + BitVec.ofNat 32 size
  else if mode = 1 then addr - BitVec.ofNat 32 size
  else addr

/-- The loop of `start_dma`, whose count is the low part of the control word. -/
def dmaLoop (ioLoad : BitVec 32 → BitVec 32) (memory : GuestMemory)
    (src dst ctrl : BitVec 32) : (count : Nat) → GuestMemory
  | 0 => memory
  | count + 1 =>
      if (ctrl &&& 0x801FFFFF).toNat > 0x80000000 then
        let size := if ctrl &&& (1 <<< 26) ≠ 0 then 4 else 2
        dmaLoop ioLoad (memory.dmaTransfer ioLoad src dst size)
          (dmaAdvance ((ctrl >>> 23) &&& 3) src size [0])
          (dmaAdvance ((ctrl >>> 21) &&& 3) dst size [0, 3]) (ctrl - 1) count
      else memory

/-- `start_dma`. -/
def startDma (memory : GuestMemory) (ioLoad : BitVec 32 → BitVec 32)
    (src dst ctrl : BitVec 32) : GuestMemory :=
  dmaLoop ioLoad memory src dst ctrl (ctrl &&& 0x1FFFFF).toNat

/-- The stream functors of the loaders, `stream_elf`, `stream_raw` and
`stream_nds`, on one page: read from the file, which may end early, and return
what is left of it. -/
def streamProcess (memory : GuestMemory) (b : MemoryBlock PhysRegion) (offset : BitVec 9)
    (size : Nat) (file : List (BitVec 8)) : GuestMemory × List (BitVec 8) :=
  if (memory.blocks b).has PageFlag.invalid then (memory, file)
  else (memory.modify b fun block => (block.poke offset (file.take size)).dirty, file.drop size)

/-- The followup pages of `memory_map<T>::process_memory`. -/
def streamPages (cpu : Cpu) (memory : GuestMemory) (addr : BitVec 32) (len : Nat)
    (file : List (BitVec 8)) : GuestMemory :=
  if len = 0 then memory
  else
    let size := min len 512
    let (next, file) := memory.streamProcess (memory.addr2page cpu addr) 0 size file
    streamPages cpu next (addr + BitVec.ofNat 32 size) (len - size) file
termination_by len

/-- `memory_map<T>::process_memory` with a stream functor. -/
def processMemory (memory : GuestMemory) (cpu : Cpu) (addr : BitVec 32) (len : Nat)
    (file : List (BitVec 8)) : GuestMemory :=
  let size := min len (512 - (pageOffset addr 0).toNat)
  let (next, file) := memory.streamProcess (memory.addr2page cpu addr) (pageOffset addr 0) size file
  streamPages cpu next (addr + BitVec.ofNat 32 size) (len - size) file

/-! ### The count of a transfer -/

theorem dmaCount_eq (ctrl : BitVec 32) : (ctrl &&& 0x1FFFFF).toNat = ctrl.toNat % 2 ^ 21 := by
  rw [BitVec.toNat_and]
  exact Nat.and_two_pow_sub_one_eq_mod ctrl.toNat 21

/-- The loop runs only while the count is positive. -/
theorem dmaCount_pos {ctrl : BitVec 32} (runs : (ctrl &&& 0x801FFFFF).toNat > 0x80000000) :
    0 < (ctrl &&& 0x1FFFFF).toNat := by
  by_contra done
  have zero : ctrl &&& 0x1FFFFF = 0 := by
    apply BitVec.eq_of_toNat_eq
    simpa using done
  have split : ctrl &&& 0x801FFFFF = ctrl &&& 0x80000000 := by
    rw [show (0x801FFFFF : BitVec 32) = 0x80000000 ||| 0x1FFFFF from rfl,
      BitVec.and_or_distrib_left, zero]
    exact BitVec.or_zero
  rw [split, BitVec.toNat_and] at runs
  have bound : ctrl.toNat &&& (0x80000000 : BitVec 32).toNat ≤ 0x80000000 := Nat.and_le_right
  omega

theorem dmaCount_sub_one {ctrl : BitVec 32} (positive : 0 < (ctrl &&& 0x1FFFFF).toNat) :
    ((ctrl - 1) &&& 0x1FFFFF).toNat = (ctrl &&& 0x1FFFFF).toNat - 1 := by
  rw [dmaCount_eq] at positive ⊢
  rw [dmaCount_eq, BitVec.toNat_sub]
  have bound := ctrl.isLt
  have one : (1 : BitVec 32).toNat = 1 := rfl
  omega

/-- The count in the control word is fuel enough: the loop stops by itself. -/
theorem dmaLoop_eq_of_le (ioLoad : BitVec 32 → BitVec 32) (memory : GuestMemory)
    (src dst ctrl : BitVec 32) {count : Nat} (enough : (ctrl &&& 0x1FFFFF).toNat ≤ count) :
    dmaLoop ioLoad memory src dst ctrl count =
      dmaLoop ioLoad memory src dst ctrl (ctrl &&& 0x1FFFFF).toNat := by
  induction count generalizing memory src dst ctrl with
  | zero => rw [Nat.le_zero.mp enough]
  | succ count ih =>
      by_cases runs : (ctrl &&& 0x801FFFFF).toNat > 0x80000000
      · have positive := dmaCount_pos runs
        obtain ⟨fuel, fuelEq⟩ := Nat.exists_eq_add_one_of_ne_zero positive.ne'
        have next := dmaCount_sub_one positive
        rw [fuelEq, dmaLoop, dmaLoop, if_pos runs, if_pos runs, ih _ _ _ _ (by omega), next,
          fuelEq, Nat.add_sub_cancel]
      · cases fuel : (ctrl &&& 0x1FFFFF).toNat <;> simp only [dmaLoop, if_neg runs]

end GuestMemory

end Ndse
