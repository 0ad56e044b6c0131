import Ndse.GuestMemory
import Ndse.Library.ByteMemory

/-!
# Input/output registers

The register files `REGISTERS9_1` and `REGISTERS7_1` of both processors, with
the channel between them and the serial bus.  What a store asks of the rest of
the machine is returned as a list of requests, in the order they are made.
-/

namespace Ndse

open ByteMemory

/-! ### The message queue -/

/-- `fifo<16>`. -/
structure Fifo where
  readpos : BitVec 32
  writepos : BitVec 32
  queue : BitVec 4 → BitVec 32

namespace Fifo

def size (fifo : Fifo) : BitVec 32 := (fifo.writepos - fifo.readpos) % 16

def empty (fifo : Fifo) : Bool := fifo.writepos == fifo.readpos

def full (fifo : Fifo) : Bool := !fifo.empty && fifo.size == 0

def write (fifo : Fifo) (data : BitVec 32) : Fifo :=
  { fifo with
    queue := Function.update fifo.queue ((fifo.writepos % 16).setWidth 4) data
    writepos := fifo.writepos + 1 }

def read (fifo : Fifo) : BitVec 32 × Fifo :=
  (fifo.queue ((fifo.readpos % 16).setWidth 4), { fifo with readpos := fifo.readpos + 1 })

end Fifo

/-! ### Register files -/

/-- What the stores ask of the other parts of the machine.  `start_dma` is
given the place of its registers. -/
inductive IoRequest
  | startDma (registers : BitVec 13)
  | remapVram
  | fire (cpu : Cpu) (interrupt : Fin 32)
  | debugBreak
deriving DecidableEq, Repr

/-- The bytes of a register file. -/
abbrev RegisterBytes := BitVec 13 → BitVec 8

/-- One register file: the pages of the region, and `ioregs`. -/
structure IoRegs where
  mem : RegisterBytes
  flags : BitVec 4 → BitVec 32
  ipc : BitVec 32
  ipcFifocnt : BitVec 32
  ipcFifo : Fifo
  readcbs : List (BitVec 32 → BitVec 32 → BitVec 32)
  writecbs : List (BitVec 32 → BitVec 32 → BitVec 32)

/-- `addr & 0x1FFF`. -/
def addr4k (addr : BitVec 32) : BitVec 13 := addr.setWidth 13

/-- The word an address lies in. -/
def wordOffset (addr : BitVec 32) : BitVec 13 := addr4k addr &&& ~~~3#13

namespace IoRegs

def setIpc (regs : IoRegs) (remoteIpc : BitVec 32) : IoRegs :=
  { regs with ipc := (regs.ipc &&& ~~~0xF#32) ||| ((remoteIpc >>> 8) &&& 0xF) }

def getFifostate (regs : IoRegs) : BitVec 32 :=
  (if regs.ipcFifo.empty then 1 else 0) ||| (if regs.ipcFifo.full then 2 else 0)

def getFifocnt (regs : IoRegs) : BitVec 32 :=
  (regs.ipcFifocnt &&& 0xFFFFFFFC) ||| regs.getFifostate

/-- `push_fifo` traps on a full queue and writes all the same. -/
def pushFifo (regs : IoRegs) (value : BitVec 32) : IoRegs × List IoRequest :=
  ({ regs with ipcFifo := regs.ipcFifo.write value },
    if regs.ipcFifo.full then [.debugBreak] else [])

/-- `pop_fifo`, without a value on an empty queue. -/
def popFifo (regs : IoRegs) : Option (BitVec 32) × IoRegs :=
  if regs.ipcFifo.empty then (none, regs)
  else (some regs.ipcFifo.read.1, { regs with ipcFifo := regs.ipcFifo.read.2 })

def flagFifo (regs : IoRegs) (state : BitVec 32) : IoRegs :=
  { regs with ipcFifocnt := (regs.ipcFifocnt &&& 0xFFFFFCFF) ||| (state <<< 8) }

def readcb (regs : IoRegs) (addr value : BitVec 32) : BitVec 32 :=
  regs.readcbs.foldl (fun value callback => callback addr value) value

def writecb (regs : IoRegs) (addr value : BitVec 32) : BitVec 32 :=
  regs.writecbs.foldl (fun value callback => callback addr value) value

/-- `current`, the word at an address. -/
def current (regs : IoRegs) (addr : BitVec 32) : BitVec 32 :=
  readWord regs.mem (wordOffset addr)

/-- Assign `current`. -/
def assign (regs : IoRegs) (addr value : BitVec 32) : IoRegs :=
  { regs with mem := writeBytes regs.mem (wordOffset addr) 4 value }

/-- `b->dirty()` on the page of an address. -/
def dirty (regs : IoRegs) (addr : BitVec 32) : IoRegs :=
  let page := (addr4k addr).extractLsb' 9 4
  { regs with
    flags := Function.update regs.flags page (regs.flags page ||| PageFlag.dirty) }

/-- The end of both `store32`: a new value is assigned and marks the page. -/
def replace (regs : IoRegs) (addr value : BitVec 32) : IoRegs :=
  if regs.current addr ≠ value then (regs.assign addr value).dirty addr else regs

end IoRegs

/-- The serial bus of `REGISTERS7_1` with the touch screen on it. -/
structure SpiBus where
  spicnt : BitVec 32
  spidata : BitVec 32
  spidatanum : BitVec 32
  spiIn : BitVec 2 → BitVec 32
  tx : BitVec 32
  ty : BitVec 32
  dtx : BitVec 32
  dty : BitVec 32

namespace SpiBus

def setSpicnt (bus : SpiBus) (value : BitVec 32) : SpiBus :=
  { bus with spicnt := value &&& 0xFFFF }

/-- The start of `set_spidat`: a start byte opens a transfer, others follow. -/
def receive (bus : SpiBus) (value : BitVec 32) : SpiBus :=
  if value &&& 0x80 ≠ 0 then
    { bus with spidata := 0, spidatanum := 1, spiIn := Function.update bus.spiIn 0 value }
  else if bus.spidatanum < 4 then
    { bus with
      spidata := 0
      spidatanum := bus.spidatanum + 1
      spiIn := Function.update bus.spiIn (bus.spidatanum.setWidth 2) value }
  else { bus with spidata := 0, spidatanum := bus.spidatanum + 1 }

/-- The channel switch of the touch screen: `resbyte` and what it resets. -/
def touchscreen (bus : SpiBus) : SpiBus × BitVec 32 × List IoRequest :=
  let differential := bus.spiIn 0 &&& 0x4 = 0
  let chn := (bus.spiIn 0 >>> 4) &&& 0x7
  if chn = 0 then (bus, 0x2F8, if differential then [.debugBreak] else [])
  else if chn = 7 then (bus, 0x384, if differential then [.debugBreak] else [])
  else if chn = 1 then
    if differential then
      (if bus.spidatanum = 3 then { bus with dty := 0 } else bus, (bus.dty * 0xE) &&& 0xFFF, [])
    else (bus, bus.ty, [])
  else if chn = 5 then
    if differential then
      (if bus.spidatanum = 3 then { bus with dtx := 0 } else bus, bus.dtx, [])
    else (bus, bus.tx, [])
  else (bus, 0, [])

def setSpidat (bus : SpiBus) (value : BitVec 32) : SpiBus × List IoRequest :=
  let bus := bus.receive value
  if (bus.spicnt >>> 8) &&& 3 = 2 then
    let (bus, resbyte, requests) := bus.touchscreen
    if bus.spidatanum = 2 then ({ bus with spidata := resbyte >>> 5 }, requests)
    else if bus.spidatanum = 3 then
      ({ bus with spidata := (resbyte <<< 3) &&& 0xFF }, requests)
    else (bus, requests)
  else (bus, [])

end SpiBus

/-- Both register files and the bus. -/
structure IoState where
  regs : Cpu → IoRegs
  spi : SpiBus

namespace IoState

/-- The static register files as constructed. -/
def boot : IoState where
  regs := fun _ =>
    { mem := fun _ => 0
      flags := fun _ => PageFlag.accessHandler
      ipc := 0
      ipcFifocnt := 0
      ipcFifo := ⟨0, 0, fun _ => 0⟩
      readcbs := []
      writecbs := [] }
  spi := ⟨0, 0, 0, fun _ => 0, 0, 0, 0, 0⟩

/-- Change one register file. -/
def modify (state : IoState) (cpu : Cpu) (change : IoRegs → IoRegs) : IoState :=
  { state with regs := Function.update state.regs cpu (change (state.regs cpu)) }

/-- The bytes of both register files. -/
def memory (state : IoState) : Cpu → RegisterBytes := fun cpu => (state.regs cpu).mem

/-- The case `0x188` of both `store32`, up to the assignment. -/
def sendFifo (state : IoState) (cpu remote : Cpu) (value : BitVec 32) :
    IoState × List IoRequest :=
  let pushed := (state.regs cpu).pushFifo value
  let state := state.modify cpu fun _ => pushed.1
  (state.modify remote (·.flagFifo (state.regs cpu).getFifostate),
    pushed.2 ++ [.fire remote 18])

/-- `store16` without a special case: read, replace the halfword and store the
word.  The union is read at the halfword, not at the word; its upper half then
lies in the next word, and at the end of a page outside of it. -/
def rebuildHalf (state : IoState) (cpu : Cpu)
    (store32 : IoState → BitVec 32 → BitVec 32 → IoState × List IoRequest)
    (addr value : BitVec 32) : IoState × List IoRequest :=
  let e := readWord (state.regs cpu).mem (addr4k addr &&& ~~~1#13)
  store32 state (addr &&& ~~~3#32)
    (setField e (16 * ((addr >>> 1) &&& 1).toNat) (value.setWidth 16))

/-- `store8`: read, replace the byte and store the word. -/
def rebuildByte (state : IoState) (cpu : Cpu)
    (store32 : IoState → BitVec 32 → BitVec 32 → IoState × List IoRequest)
    (addr value : BitVec 32) : IoState × List IoRequest :=
  let e := readWord (state.regs cpu).mem (wordOffset addr)
  store32 state (addr &&& ~~~3#32) (setField e (8 * (addr &&& 3).toNat) (value.setWidth 8))

end IoState

/-- `e.h[i]`. -/
def halfOf (word : BitVec 32) (i : Nat) : BitVec 32 := (word.extractLsb' (16 * i) 16).setWidth 32

/-- `e.b[i]`. -/
def byteOf (word : BitVec 32) (i : Nat) : BitVec 32 := (word.extractLsb' (8 * i) 8).setWidth 32

/-! ### `REGISTERS9_1` -/

namespace Registers9

def store32 (state : IoState) (addr value : BitVec 32) : IoState × List IoRequest :=
  let value := (state.regs .arm9).writecb addr value
  if addr4k addr ∈ [0xB8, 0xC4, 0xD0, 0xDC] then
    (state.modify .arm9 (·.assign addr value), [.startDma (addr4k addr - 8)])
  else
    let (state, requests) :=
      if addr4k addr = 0x180 then (state.modify .arm7 (·.setIpc value), [])
      else if addr4k addr = 0x188 then state.sendFifo .arm9 .arm7 value
      else (state, [])
    let remapVram := addr4k addr ∈ [0x240, 0x244, 0x248]
    (state.modify .arm9 (·.replace addr value),
      if remapVram ∧ (state.regs .arm9).current addr ≠ value then requests ++ [.remapVram]
      else requests)

def store16 (state : IoState) (addr value : BitVec 32) : IoState × List IoRequest :=
  state.rebuildHalf .arm9 store32 addr value

def store8 (state : IoState) (addr value : BitVec 32) : IoState × List IoRequest :=
  state.rebuildByte .arm9 store32 addr value

def load32 (state : IoState) (addr : BitVec 32) : IoState × BitVec 32 :=
  let current :=
    if addr4k addr = 0x180 then (state.regs .arm9).ipc
    else if addr4k addr = 0x184 then (state.regs .arm9).getFifocnt
    else (state.regs .arm9).current addr
  let current := (state.regs .arm9).readcb addr current
  (state.modify .arm9 (·.assign addr current), current)

def load16u (state : IoState) (addr : BitVec 32) : IoState × BitVec 32 :=
  let loaded := load32 state (addr &&& ~~~3#32)
  (loaded.1, halfOf loaded.2 ((addr >>> 1) &&& 1).toNat)

def load8u (state : IoState) (addr : BitVec 32) : IoState × BitVec 32 :=
  let loaded := load32 state (addr &&& ~~~3#32)
  (loaded.1, byteOf loaded.2 (addr &&& 3).toNat)

end Registers9

/-! ### `REGISTERS7_1` -/

namespace Registers7

/-- The cases of `store16` for the serial bus, which assign the halfword. -/
def storeSpi (state : IoState) (addr value : BitVec 32) (spi : SpiBus)
    (requests : List IoRequest) : IoState × List IoRequest :=
  let half := addr4k addr &&& ~~~1#13
  let regs := state.regs .arm7
  let current := (regs.mem (half + 1) ++ regs.mem half).setWidth 32
  let stored := { state with spi := spi }
  if current ≠ value then
    (stored.modify .arm7 fun regs =>
      { regs with mem := writeBytes regs.mem half 2 value }.dirty addr, requests)
  else (stored, requests)

def storeSpicnt (state : IoState) (addr value : BitVec 32) : IoState × List IoRequest :=
  storeSpi state addr value (state.spi.setSpicnt value) []

def storeSpidat (state : IoState) (addr value : BitVec 32) : IoState × List IoRequest :=
  storeSpi state addr value (state.spi.setSpidat value).1 (state.spi.setSpidat value).2

def store32 (state : IoState) (addr value : BitVec 32) : IoState × List IoRequest :=
  let value := (state.regs .arm7).writecb addr value
  if addr4k addr = 0x1C0 then
    -- the two `store16` made here are the two serial cases
    let (state, first) := storeSpicnt state addr (halfOf value 0)
    let (state, second) := storeSpidat state (addr + 2) (halfOf value 1)
    (state, first ++ second)
  else
    let (state, requests) :=
      if addr4k addr = 0x180 then (state.modify .arm9 (·.setIpc value), [])
      else if addr4k addr = 0x188 then state.sendFifo .arm7 .arm9 value
      else (state, [])
    (state.modify .arm7 (·.replace addr value), requests)

def store16 (state : IoState) (addr value : BitVec 32) : IoState × List IoRequest :=
  if addr4k addr = 0x1C0 then storeSpicnt state addr value
  else if addr4k addr = 0x1C2 then storeSpidat state addr value
  else state.rebuildHalf .arm7 store32 addr value

def store8 (state : IoState) (addr value : BitVec 32) : IoState × List IoRequest :=
  state.rebuildByte .arm7 store32 addr value

def load32 (state : IoState) (addr : BitVec 32) : IoState × BitVec 32 :=
  let current :=
    if addr4k addr = 0x180 then (state.regs .arm7).ipc
    else if addr4k addr = 0x184 then (state.regs .arm7).getFifocnt
    else if addr4k addr = 0x1C0 then
      -- `load16u` gives 0 for the control and the data for the other half
      state.spi.spidata.setWidth 16 ++ (0 : BitVec 16)
    else (state.regs .arm7).current addr
  let current := (state.regs .arm7).readcb addr current
  (state.modify .arm7 (·.assign addr current), current)

def load16u (state : IoState) (addr : BitVec 32) : IoState × BitVec 32 :=
  if addr4k addr = 0x1C0 then (state, 0)
  else if addr4k addr = 0x1C2 then (state, state.spi.spidata)
  else
    let loaded := load32 state (addr &&& ~~~3#32)
    (loaded.1, halfOf loaded.2 ((addr >>> 1) &&& 1).toNat)

def load8u (state : IoState) (addr : BitVec 32) : IoState × BitVec 32 :=
  let loaded := load32 state (addr &&& ~~~3#32)
  (loaded.1, byteOf loaded.2 (addr &&& 3).toNat)

end Registers7

/-! ### `TRANSFER9` and `TRANSFER7` -/

/-- The `load32` of the page a processor receives words on.  No word is read
from an empty queue, which traps; the flags are refreshed all the same. -/
def IoState.receiveFifo (state : IoState) (cpu remote : Cpu) (addr : BitVec 32) :
    IoState × Option (BitVec 32) × List IoRequest :=
  if addr.setWidth 9 = (0 : BitVec 9) then
    let (value, popped) := (state.regs remote).popFifo
    let state := state.modify remote fun _ => popped
    let fifostate := (state.regs remote).getFifostate
    (state.modify cpu (·.flagFifo fifostate), value,
      (if value = none then [.debugBreak] else []) ++
        if fifostate &&& 1 ≠ 0 then [.fire remote 17] else [])
  else (state, some 0, [.debugBreak])

def Transfer9.load32 (state : IoState) (addr : BitVec 32) :
    IoState × Option (BitVec 32) × List IoRequest :=
  state.receiveFifo .arm9 .arm7 addr

def Transfer7.load32 (state : IoState) (addr : BitVec 32) :
    IoState × Option (BitVec 32) × List IoRequest :=
  state.receiveFifo .arm7 .arm9 addr

end Ndse
