import Ndse.IoRegistersNarrow
import Ndse.Library.LabelledRun
import Ndse.Library.RingQueue

/-!
# The queues between the processors

Each processor sends words into a queue of its own and receives the words of
the other one on a page that pops them.  The status bits of its own queue are
computed when they are read.  Those of the other queue are a copy that the
accesses on either side refresh.
-/

namespace Ndse

open LabelledRun RingQueue ByteMemory

/-- The processor at the other end of the channel. -/
def Cpu.remote : Cpu → Cpu
  | .arm9 => .arm7
  | .arm7 => .arm9

@[simp]
theorem Cpu.remote_remote (cpu : Cpu) : cpu.remote.remote = cpu := by
  cases cpu <;> rfl

@[simp]
theorem Cpu.remote_ne (cpu : Cpu) : cpu.remote ≠ cpu := by
  cases cpu <;> decide

theorem Cpu.eq_or_eq_remote (cpu other : Cpu) : other = cpu ∨ other = cpu.remote := by
  cases cpu <;> cases other <;> decide

inductive AccessWidth
  | word | half | byte
deriving DecidableEq, Repr

/-- An access of a processor to its register file, or to the page it receives
words on. -/
inductive IpcAccess
  | store (cpu : Cpu) (width : AccessWidth) (addr value : BitVec 32)
  | load (cpu : Cpu) (width : AccessWidth) (addr : BitVec 32)
  | receive (cpu : Cpu) (addr : BitVec 32)

namespace IoState

def store (state : IoState) (cpu : Cpu) (width : AccessWidth) (addr value : BitVec 32) :
    IoState × List IoRequest :=
  match width with
  | .word => state.store32 cpu addr value
  | .half => state.store16 cpu addr value
  | .byte => state.store8 cpu addr value

def load (state : IoState) (cpu : Cpu) (width : AccessWidth) (addr : BitVec 32) :
    IoState × BitVec 32 :=
  match width with
  | .word => state.load32 cpu addr
  | .half => state.load16u cpu addr
  | .byte => state.load8u cpu addr

def receive (state : IoState) : Cpu → BitVec 32 → IoState × Option (BitVec 32) × List IoRequest
  | .arm9 => Transfer9.load32 state
  | .arm7 => Transfer7.load32 state

def access (state : IoState) : IpcAccess → IoState
  | .store cpu width addr value => (state.store cpu width addr value).1
  | .load cpu width addr => (state.load cpu width addr).1
  | .receive cpu addr => (state.receive cpu addr).1

end IoState

/-! ### What an access does to the queues -/

/-- `get_fifostate` of a queue. -/
def Fifo.state (fifo : Fifo) : BitVec 32 :=
  (if fifo.empty then 1 else 0) ||| (if fifo.full then 2 else 0)

/-- What `flag_fifo` makes of the control word. -/
def flagged (fifocnt state : BitVec 32) : BitVec 32 := (fifocnt &&& 0xFFFFFCFF) ||| (state <<< 8)

/-- The part of a register file that a read of the queues or of their control
depends on. -/
structure ChannelEnd where
  ipcFifo : Fifo
  ipcFifocnt : BitVec 32
  readcbs : List (BitVec 32 → BitVec 32 → BitVec 32)

def IoRegs.channel (regs : IoRegs) : ChannelEnd :=
  ⟨regs.ipcFifo, regs.ipcFifocnt, regs.readcbs⟩

namespace IoState

def channel (state : IoState) (cpu : Cpu) : ChannelEnd := (state.regs cpu).channel

theorem channel_modify (state : IoState) (cpu : Cpu) {change : IoRegs → IoRegs}
    (same : ∀ regs, (change regs).channel = regs.channel) :
    (state.modify cpu change).channel = state.channel := by
  funext other
  by_cases own : other = cpu
  · subst own
    simp [channel, modify, same]
  · simp [channel, modify, own]

theorem channel_assign (regs : IoRegs) (addr value : BitVec 32) :
    (regs.assign addr value).channel = regs.channel := rfl

theorem channel_setIpc (regs : IoRegs) (value : BitVec 32) :
    (regs.setIpc value).channel = regs.channel := rfl

theorem channel_replace (regs : IoRegs) (addr value : BitVec 32) :
    (regs.replace addr value).channel = regs.channel := by
  rw [IoRegs.replace]
  split <;> rfl

theorem channel_storeSpi (state : IoState) (addr value : BitVec 32) (spi : SpiBus)
    (requests : List IoRequest) :
    (Registers7.storeSpi state addr value spi requests).1.channel = state.channel := by
  rw [Registers7.storeSpi]
  split
  · have moved : ({ state with spi := spi } : IoState).channel = state.channel := rfl
    dsimp only
    rw [← moved]
    apply channel_modify
    intro regs
    rfl
  · rfl

/-- Only the word at `0x188` sends. -/
theorem channel_store32 (state : IoState) (cpu : Cpu) {addr : BitVec 32} (value : BitVec 32)
    (silent : addr4k addr ≠ 0x188) :
    (state.store32 cpu addr value).1.channel = state.channel := by
  cases cpu with
  | arm9 =>
      rw [store32, Registers9.store32]
      split
      · exact channel_modify _ _ fun _ => channel_assign _ _ _
      · rw [channel_modify _ _ fun _ => channel_replace _ _ _]
        split
        · exact channel_modify _ _ fun _ => channel_setIpc _ _
        · rfl
  | arm7 =>
      rw [store32, Registers7.store32]
      split
      · exact (channel_storeSpi _ _ _ _ _).trans (channel_storeSpi _ _ _ _ _)
      · rw [channel_modify _ _ fun _ => channel_replace _ _ _]
        split
        · exact channel_modify _ _ fun _ => channel_setIpc _ _
        · rfl

theorem channel_store (state : IoState) (cpu : Cpu) (width : AccessWidth) {addr : BitVec 32}
    (value : BitVec 32) (silent : wordOffset addr ≠ 0x188) :
    (state.store cpu width addr value).1.channel = state.channel := by
  have silentBase : addr4k (addr &&& ~~~3#32) ≠ 0x188 := by rwa [addr4k_base]
  cases width with
  | word =>
      apply channel_store32
      intro sends
      apply silent
      rw [wordOffset, sends]
      decide
  | half =>
      cases cpu with
      | arm9 => exact channel_store32 state .arm9 _ silentBase
      | arm7 =>
          simp only [store, store16, Registers7.store16]
          split_ifs
          · exact channel_storeSpi _ _ _ _ _
          · exact channel_storeSpi _ _ _ _ _
          · exact channel_store32 state .arm7 _ silentBase
  | byte =>
      cases cpu with
      | arm9 => exact channel_store32 state .arm9 _ silentBase
      | arm7 => exact channel_store32 state .arm7 _ silentBase

theorem channel_load32 (state : IoState) (cpu : Cpu) (addr : BitVec 32) :
    (state.load32 cpu addr).1.channel = state.channel := by
  cases cpu <;> exact channel_modify _ _ fun _ => channel_assign _ _ _

theorem channel_load (state : IoState) (cpu : Cpu) (width : AccessWidth) (addr : BitVec 32) :
    (state.load cpu width addr).1.channel = state.channel := by
  cases width with
  | word => exact channel_load32 state cpu addr
  | half =>
      cases cpu with
      | arm9 => exact channel_load32 state .arm9 _
      | arm7 =>
          simp only [load, load16u, Registers7.load16u]
          split_ifs
          · rfl
          · rfl
          · exact channel_load32 state .arm7 _
  | byte =>
      cases cpu with
      | arm9 => exact channel_load32 state .arm9 _
      | arm7 => exact channel_load32 state .arm7 _

/-- A send writes the own queue and refreshes the copy of the other side. -/
theorem channel_sendFifo (state : IoState) {cpu remote : Cpu} (apart : remote ≠ cpu)
    (value : BitVec 32) :
    (state.sendFifo cpu remote value).1.channel cpu =
        { state.channel cpu with ipcFifo := (state.regs cpu).ipcFifo.write value } ∧
      (state.sendFifo cpu remote value).1.channel remote =
        { state.channel remote with
          ipcFifocnt := flagged (state.regs remote).ipcFifocnt
            ((state.regs cpu).ipcFifo.write value).state } := by
  simp only [channel, sendFifo, modify, Function.update_self, Function.update_of_ne apart,
    Function.update_of_ne apart.symm]
  exact ⟨rfl, rfl⟩

/-- A receive pops the queue of the other side and refreshes the own copy. -/
theorem channel_receiveFifo (state : IoState) {cpu remote : Cpu} (apart : remote ≠ cpu)
    {addr : BitVec 32} (atStart : addr.setWidth 9 = (0 : BitVec 9))
    (filled : (state.regs remote).ipcFifo.empty = false) :
    (state.receiveFifo cpu remote addr).2.1 = some (state.regs remote).ipcFifo.read.1 ∧
      (state.receiveFifo cpu remote addr).1.channel remote =
        { state.channel remote with ipcFifo := (state.regs remote).ipcFifo.read.2 } ∧
      (state.receiveFifo cpu remote addr).1.channel cpu =
        { state.channel cpu with
          ipcFifocnt := flagged (state.regs cpu).ipcFifocnt
            (state.regs remote).ipcFifo.read.2.state } := by
  have popped : (state.regs remote).popFifo = (some (state.regs remote).ipcFifo.read.1,
      { state.regs remote with ipcFifo := (state.regs remote).ipcFifo.read.2 }) := by
    rw [IoRegs.popFifo, filled]
    rfl
  rw [receiveFifo, if_pos atStart, popped]
  refine ⟨rfl, ?_, ?_⟩
  · simp only [channel, modify, Function.update_self, Function.update_of_ne apart]
    rfl
  · simp only [channel, modify, Function.update_self, Function.update_of_ne apart.symm]
    rfl

/-- The word a store to `0x188` sends, as the callbacks leave it. -/
def sentWord (state : IoState) (cpu : Cpu) (addr value : BitVec 32) : BitVec 32 :=
  (state.regs cpu).writecb addr value

theorem channel_send (state : IoState) (cpu : Cpu) {addr : BitVec 32} (value : BitVec 32)
    (sends : addr4k addr = 0x188) :
    (state.store cpu .word addr value).1.channel =
      (state.sendFifo cpu cpu.remote (state.sentWord cpu addr value)).1.channel := by
  have notSync : addr4k addr ≠ 0x180 := by
    rw [sends]
    decide
  cases cpu with
  | arm9 =>
      have notDma : addr4k addr ∉ [0xB8, 0xC4, 0xD0, 0xDC] := by
        rw [sends]
        decide
      simp only [store, store32, Registers9.store32, if_neg notDma, if_neg notSync, if_pos sends]
      exact channel_modify _ _ fun _ => channel_replace _ _ _
  | arm7 =>
      have notSerial : addr4k addr ≠ 0x1C0 := by
        rw [sends]
        decide
      simp only [store, store32, Registers7.store32, if_neg notSerial, if_neg notSync,
        if_pos sends]
      exact channel_modify _ _ fun _ => channel_replace _ _ _

theorem receive_eq (state : IoState) (cpu : Cpu) (addr : BitVec 32) :
    state.receive cpu addr = state.receiveFifo cpu cpu.remote addr := by
  cases cpu <;> rfl

/-- A send traps on a full queue and nowhere else. -/
theorem send_traps_iff (state : IoState) (cpu : Cpu) {addr : BitVec 32} (value : BitVec 32)
    (sends : addr4k addr = 0x188) :
    .debugBreak ∈ (state.store cpu .word addr value).2 ↔
      (state.regs cpu).ipcFifo.full = true := by
  have pushed : .debugBreak ∈ (state.sendFifo cpu cpu.remote (state.sentWord cpu addr value)).2 ↔
      (state.regs cpu).ipcFifo.full = true := by
    simp [sendFifo, IoRegs.pushFifo]
  cases cpu with
  | arm9 => simpa [store, store32, Registers9.store32, sends, Cpu.remote, sentWord] using pushed
  | arm7 => simpa [store, store32, Registers7.store32, sends, Cpu.remote, sentWord] using pushed

/-- A receive traps on an empty queue and nowhere else. -/
theorem receive_traps_iff (state : IoState) (cpu : Cpu) {addr : BitVec 32}
    (atStart : addr.setWidth 9 = (0 : BitVec 9)) :
    .debugBreak ∈ (state.receive cpu addr).2.2 ↔
      (state.regs cpu.remote).ipcFifo.empty = true := by
  rw [receive_eq, receiveFifo, if_pos atStart]
  cases filled : (state.regs cpu.remote).ipcFifo.empty <;> simp [IoRegs.popFifo, filled]

end IoState

/-! ### The queue as a list -/

namespace Fifo

/-- The queue holds `items`, the next one to read first. -/
def Holds (fifo : Fifo) (items : List (BitVec 32)) : Prop :=
  Outstanding fifo.readpos fifo.writepos fifo.queue items

theorem slot_eq (position : BitVec 32) : (position % 16).setWidth 4 = slot 4 position := by
  apply BitVec.eq_of_toNat_eq
  simp [slot]

variable {fifo : Fifo} {item : BitVec 32} {items : List (BitVec 32)}

theorem holds_of_empty (empty : fifo.empty = true) : fifo.Holds [] := by
  have together : fifo.writepos = fifo.readpos := by simpa [Fifo.empty] using empty
  rw [Holds, together]
  exact outstanding_nil _ _

namespace Holds

theorem empty_iff (holds : fifo.Holds items) : fifo.empty = true ↔ items = [] := by
  rw [Fifo.empty, beq_iff_eq]
  exact holds.eq_iff_nil (by decide)

theorem size_eq (holds : fifo.Holds items) : fifo.size.toNat = items.length % 16 := by
  rw [Fifo.size, BitVec.toNat_umod, holds.toNat_sub (by decide)]
  rfl

/-- An empty queue and a full one have the same size. -/
theorem full_iff (holds : fifo.Holds items) : fifo.full = true ↔ items.length = 16 := by
  have nonempty : fifo.empty = false ↔ items ≠ [] := by
    rw [← Bool.not_eq_true, holds.empty_iff]
  have wrapped : fifo.size = 0 ↔ items.length % 16 = 0 := by
    rw [← BitVec.toNat_inj, holds.size_eq]
    rfl
  have fits : items.length ≤ 16 := holds.fits
  rw [Fifo.full, Bool.and_eq_true, Bool.not_eq_true', nonempty, beq_iff_eq, wrapped,
    ← List.length_pos_iff]
  omega

theorem write (holds : fifo.Holds items) (room : fifo.full = false) (data : BitVec 32) :
    (fifo.write data).Holds (items ++ [data]) := by
  have fits : items.length ≤ 16 := holds.fits
  have notFull : items.length ≠ 16 := by
    rw [ne_eq, ← holds.full_iff, room]
    exact Bool.false_ne_true
  rw [Holds, Fifo.write, slot_eq]
  exact holds.enqueue (by decide) (lt_of_le_of_ne fits notFull) data

theorem read (holds : fifo.Holds (item :: items)) :
    fifo.read.1 = item ∧ fifo.read.2.Holds items := by
  constructor
  · rw [Fifo.read, slot_eq]
    exact holds.front
  · exact holds.dequeue

end Holds

end Fifo

/-! ### Delivery -/

/-- The register files with the words that went into each queue and out of it
so far. -/
structure Channel where
  io : IoState
  sent : Cpu → List (BitVec 32)
  received : Cpu → List (BitVec 32)

namespace Channel

/-- Nothing sent and nothing received. -/
def start (io : IoState) : Channel := ⟨io, fun _ => [], fun _ => []⟩

def step (channel : Channel) (access : IpcAccess) : Channel where
  io := channel.io.access access
  sent :=
    match access with
    | .store cpu .word addr value =>
        if addr4k addr = 0x188 then
          Function.update channel.sent cpu
            (channel.sent cpu ++ [channel.io.sentWord cpu addr value])
        else channel.sent
    | _ => channel.sent
  received :=
    match access with
    | .receive cpu addr =>
        Function.update channel.received cpu.remote
          (channel.received cpu.remote ++ (channel.io.receive cpu addr).2.1.toList)
    | _ => channel.received

/-- Words are sent by whole stores to a queue that is not full and received
from a queue that is not empty.  Any other access leaves the word at `0x188`
alone. -/
def Allowed (channel : Channel) : IpcAccess → Prop
  | .store cpu width addr _ =>
      wordOffset addr ≠ 0x188 ∨
        width = .word ∧ addr4k addr = 0x188 ∧ (channel.io.regs cpu).ipcFifo.full = false
  | .load _ _ _ => True
  | .receive cpu addr =>
      addr.setWidth 9 = (0 : BitVec 9) ∧ (channel.io.regs cpu.remote).ipcFifo.empty = false

instance (channel : Channel) : DecidablePred channel.Allowed
  | .store _ _ _ _ => inferInstanceAs (Decidable (_ ∨ _))
  | .load _ _ _ => inferInstanceAs (Decidable True)
  | .receive _ _ => inferInstanceAs (Decidable (_ ∧ _))

/-- The words received of a sender are the first ones sent, and its queue
holds the others. -/
def Accounts (channel : Channel) (sender : Cpu) (fifo : Fifo) : Prop :=
  ∃ items, fifo.Holds items ∧ channel.sent sender = channel.received sender ++ items

/-- What the channel promises about the words of a sender. -/
structure Delivers (channel : Channel) (sender : Cpu) : Prop where
  inOrder : channel.received sender <+: channel.sent sender
  bounded : (channel.sent sender).length ≤ (channel.received sender).length + 16
  empty_iff : (channel.io.regs sender).ipcFifo.empty = true ↔
    (channel.sent sender).length = (channel.received sender).length
  full_iff : (channel.io.regs sender).ipcFifo.full = true ↔
    (channel.sent sender).length = (channel.received sender).length + 16

/-- A receive hands over one word, the next one that the other processor
sent. -/
def Serves (channel : Channel) : IpcAccess → Prop
  | .receive cpu addr => ∃ word,
      (channel.io.receive cpu addr).2.1 = some word ∧
        (channel.step (.receive cpu addr)).received cpu.remote =
          channel.received cpu.remote ++ [word] ∧
        channel.received cpu.remote ++ [word] <+: channel.sent cpu.remote
  | _ => True

theorem Accounts.delivers {channel : Channel} {sender : Cpu}
    (accounts : channel.Accounts sender (channel.io.regs sender).ipcFifo) :
    channel.Delivers sender := by
  obtain ⟨items, holds, split⟩ := accounts
  have lengths : (channel.sent sender).length =
      (channel.received sender).length + items.length := by
    rw [split, List.length_append]
  have fits : items.length ≤ 16 := holds.fits
  constructor
  · rw [split]
    exact List.prefix_append _ _
  · omega
  · rw [holds.empty_iff, ← List.length_eq_zero_iff]
    omega
  · rw [holds.full_iff]
    omega

theorem addr4k_ne_of_silent {addr : BitVec 32} (silent : wordOffset addr ≠ 0x188) :
    addr4k addr ≠ 0x188 := by
  intro sends
  apply silent
  rw [wordOffset, sends]
  decide

/-- Stores elsewhere leave the queues, the copies and the words sent. -/
theorem step_silent (channel : Channel) (cpu : Cpu) (width : AccessWidth) {addr : BitVec 32}
    (value : BitVec 32) (silent : wordOffset addr ≠ 0x188) :
    (channel.step (.store cpu width addr value)).io.channel = channel.io.channel ∧
      (channel.step (.store cpu width addr value)).sent = channel.sent := by
  refine ⟨IoState.channel_store _ _ _ _ silent, ?_⟩
  cases width with
  | word => exact if_neg (addr4k_ne_of_silent silent)
  | half => rfl
  | byte => rfl

theorem Accounts.congr {channel next : Channel} {sender : Cpu} {fifo : Fifo}
    (accounts : channel.Accounts sender fifo) (sent : next.sent sender = channel.sent sender)
    (received : next.received sender = channel.received sender) : next.Accounts sender fifo := by
  obtain ⟨items, holds, split⟩ := accounts
  exact ⟨items, holds, by rw [sent, received, split]⟩

/-- The queues account for the words sent and received. -/
def Sound (channel : Channel) : Prop :=
  ∀ sender, channel.Accounts sender (channel.io.channel sender).ipcFifo

theorem Sound.silent {channel next : Channel} (sound : channel.Sound)
    (same : next.io.channel = channel.io.channel) (sent : next.sent = channel.sent)
    (received : next.received = channel.received) : next.Sound := by
  intro sender
  rw [same]
  exact (sound sender).congr (congrFun sent sender) (congrFun received sender)

theorem Sound.send {channel : Channel} (sound : channel.Sound) (cpu : Cpu) {addr : BitVec 32}
    (value : BitVec 32) (sends : addr4k addr = 0x188)
    (room : (channel.io.regs cpu).ipcFifo.full = false) :
    (channel.step (.store cpu .word addr value)).Sound := by
  have queues : (channel.step (.store cpu .word addr value)).io.channel = _ :=
    IoState.channel_send channel.io cpu value sends
  obtain ⟨own, other⟩ := IoState.channel_sendFifo channel.io cpu.remote_ne
    (channel.io.sentWord cpu addr value)
  have sent : (channel.step (.store cpu .word addr value)).sent = Function.update channel.sent cpu
      (channel.sent cpu ++ [channel.io.sentWord cpu addr value]) := if_pos sends
  intro sender
  rw [queues]
  rcases cpu.eq_or_eq_remote sender with rfl | rfl
  · rw [own]
    obtain ⟨items, holds, split⟩ := sound sender
    refine ⟨items ++ [channel.io.sentWord sender addr value], holds.write room _, ?_⟩
    rw [sent, Function.update_self, split, List.append_assoc]
    rfl
  · rw [other]
    refine (sound cpu.remote).congr ?_ rfl
    rw [sent, Function.update_of_ne cpu.remote_ne]

/-- The word at the front of a queue is the next one that was sent. -/
theorem Sound.front {channel : Channel} (sound : channel.Sound) {sender : Cpu}
    (filled : (channel.io.regs sender).ipcFifo.empty = false) :
    ∃ items, (channel.io.regs sender).ipcFifo.read.2.Holds items ∧
      channel.sent sender =
        channel.received sender ++ (channel.io.regs sender).ipcFifo.read.1 :: items := by
  obtain ⟨items, holds, split⟩ := sound sender
  cases items with
  | nil =>
      have empty : (channel.io.regs sender).ipcFifo.empty = true := holds.empty_iff.mpr rfl
      exact absurd filled (by simp [empty])
  | cons item items =>
      obtain ⟨first, rest⟩ := holds.read
      refine ⟨items, rest, ?_⟩
      rw [split, ← first]
      rfl

/-- An allowed receive moves one word. -/
theorem received_receive (channel : Channel) (cpu : Cpu) {addr : BitVec 32}
    (atStart : addr.setWidth 9 = (0 : BitVec 9))
    (filled : (channel.io.regs cpu.remote).ipcFifo.empty = false) :
    (channel.io.receive cpu addr).2.1 = some (channel.io.regs cpu.remote).ipcFifo.read.1 ∧
      (channel.step (.receive cpu addr)).received =
        Function.update channel.received cpu.remote (channel.received cpu.remote ++
          [(channel.io.regs cpu.remote).ipcFifo.read.1]) := by
  have taken : (channel.io.receive cpu addr).2.1 =
      some (channel.io.regs cpu.remote).ipcFifo.read.1 := by
    rw [channel.io.receive_eq]
    exact (IoState.channel_receiveFifo channel.io cpu.remote_ne atStart filled).1
  refine ⟨taken, ?_⟩
  simp only [step, taken, Option.toList_some]

theorem Sound.receive {channel : Channel} (sound : channel.Sound) (cpu : Cpu) {addr : BitVec 32}
    (atStart : addr.setWidth 9 = (0 : BitVec 9))
    (filled : (channel.io.regs cpu.remote).ipcFifo.empty = false) :
    (channel.step (.receive cpu addr)).Sound := by
  have queues : (channel.step (.receive cpu addr)).io.channel = _ :=
    congrArg (fun result => IoState.channel result.1) (channel.io.receive_eq cpu addr)
  obtain ⟨_, other, own⟩ :=
    IoState.channel_receiveFifo channel.io cpu.remote_ne atStart filled
  obtain ⟨_, received⟩ := channel.received_receive cpu atStart filled
  intro sender
  rw [queues]
  rcases cpu.eq_or_eq_remote sender with rfl | rfl
  · rw [own]
    refine (sound sender).congr rfl ?_
    rw [received, Function.update_of_ne sender.remote_ne.symm]
  · rw [other]
    obtain ⟨items, rest, split⟩ := sound.front filled
    refine ⟨items, rest, ?_⟩
    rw [received, Function.update_self, List.append_assoc]
    exact split

theorem Sound.serves {channel : Channel} (sound : channel.Sound) {access : IpcAccess}
    (allowed : channel.Allowed access) : channel.Serves access := by
  cases access with
  | store cpu width addr value => trivial
  | load cpu width addr => trivial
  | receive cpu addr =>
      obtain ⟨taken, received⟩ := channel.received_receive cpu allowed.1 allowed.2
      obtain ⟨items, _, split⟩ := sound.front allowed.2
      refine ⟨_, taken, ?_, items, ?_⟩
      · rw [received, Function.update_self]
      · rw [split, List.append_assoc]
        rfl

theorem Sound.step {channel : Channel} (sound : channel.Sound) {access : IpcAccess}
    (allowed : channel.Allowed access) : (channel.step access).Sound := by
  cases access with
  | store cpu width addr value =>
      rcases allowed with silent | ⟨rfl, sends, room⟩
      · obtain ⟨same, sent⟩ := channel.step_silent cpu width value silent
        exact sound.silent same sent rfl
      · exact sound.send cpu value sends room
  | load cpu width addr =>
      exact sound.silent (IoState.channel_load channel.io cpu width addr) rfl rfl
  | receive cpu addr => exact sound.receive cpu allowed.1 allowed.2

theorem sound_start {io : IoState} (empty : ∀ cpu, (io.regs cpu).ipcFifo.empty = true) :
    (start io).Sound :=
  fun sender => ⟨[], Fifo.holds_of_empty (empty sender), rfl⟩

end Channel

/-- In every run that starts with empty queues, whatever their positions, the
words received from either processor are the first ones it sent; at most 16
are outstanding, and the queue is empty or full when 0 or 16 are.  Every
receive hands over one more of them. -/
theorem fifo_delivers (io : IoState) (accesses : List IpcAccess)
    (empty : ∀ cpu, (io.regs cpu).ipcFifo.empty = true)
    (allowed : EveryStep Channel.step Channel.Allowed (Channel.start io) accesses) :
    Always Channel.step (fun channel => ∀ sender, channel.Delivers sender)
        (Channel.start io) accesses ∧
      EveryStep Channel.step Channel.Serves (Channel.start io) accesses := by
  have initial : (Channel.start io).Sound := Channel.sound_start empty
  have keep : ∀ (channel : Channel) (access : IpcAccess), channel.Sound →
      channel.Allowed access → (channel.step access).Sound :=
    fun _ _ sound allowed => sound.step allowed
  have sound : Always Channel.step Channel.Sound (Channel.start io) accesses :=
    always_of_invariant keep initial allowed
  refine ⟨fun visited isPrefix sender => (sound visited isPrefix sender).delivers, ?_⟩
  exact everyStep_of_invariant keep (fun _ _ sound allowed => sound.serves allowed) initial
    allowed

/-- A word sent by each processor and received by the other. -/
def exchange : List IpcAccess :=
  [.store .arm9 .word 0x04000188 0x12345678, .store .arm7 .word 0x04000188 0x9ABCDEF0,
    .receive .arm7 0x04100000, .receive .arm9 0x04100000]

theorem fifo_delivers_exchange :
    (Always Channel.step (fun channel => ∀ sender, channel.Delivers sender)
        (Channel.start .boot) exchange ∧
      EveryStep Channel.step Channel.Serves (Channel.start .boot) exchange) ∧
    (exchange.foldl Channel.step (Channel.start .boot)).received .arm9 = [0x12345678] ∧
    (exchange.foldl Channel.step (Channel.start .boot)).received .arm7 = [0x9ABCDEF0] := by
  refine ⟨?_, by decide, by decide⟩
  exact fifo_delivers .boot exchange (fun cpu => by cases cpu <;> rfl) (by decide)

end Ndse
