import Ndse.IpcFifo

/-!
# The synchronisation word

Each processor shows the other a nibble in bits 8 to 11 of the word at `0x180`
and sees the other's in bits 0 to 3.  A store hands the nibble of the whole
word over, so a store that misses its byte hands over what the rest of the
rebuilt word holds there, and a load puts the word the other side has made in
place of the own one.
-/

namespace Ndse

open LabelledRun ByteMemory

/-! ### Accesses to the word -/

/-- An access to the word at `0x180`. -/
def IpcAccess.OnSync : IpcAccess → Prop
  | .store _ .word addr _ | .load _ .word addr => addr4k addr = 0x180
  | .store _ _ addr _ | .load _ _ addr => wordOffset addr = 0x180
  | .receive _ _ => False

/-- The nibble a store writes to bits 8 to 11 when it covers the byte at
`0x181`. -/
def outputNibble (width : AccessWidth) (addr value : BitVec 32) : Option (BitVec 4) :=
  match width with
  | .word => some (value.extractLsb' 8 4)
  | .half => if lane addr < 2 then some (value.extractLsb' 8 4) else none
  | .byte => if lane addr = 1 then some (value.extractLsb' 0 4) else none

/-- The parts a load returns of a word with the other nibble in bits 0 to 3
and the own one in bits 8 to 11. -/
def LoadShows (width : AccessWidth) (addr loaded : BitVec 32) (own remote : BitVec 4) : Prop :=
  match width with
  | .word => loaded.extractLsb' 0 4 = remote ∧ loaded.extractLsb' 8 4 = own
  | .half => lane addr < 2 → loaded.extractLsb' 0 4 = remote ∧ loaded.extractLsb' 8 4 = own
  | .byte => (lane addr = 0 → loaded.extractLsb' 0 4 = remote) ∧
      (lane addr = 1 → loaded.extractLsb' 0 4 = own)

/-- What a load returns of a word. -/
def loadedPart (width : AccessWidth) (addr word : BitVec 32) : BitVec 32 :=
  match width with
  | .word => word
  | .half => halfOf word (lane addr / 2)
  | .byte => byteOf word (lane addr)

/-- The load returns the byte at `0x181`. -/
def LoadCovers (width : AccessWidth) (addr : BitVec 32) : Prop :=
  match width with
  | .word => True
  | .half => lane addr < 2
  | .byte => lane addr = 1

namespace IoState

/-- The word at `0x180` as it is stored. -/
def syncWord (state : IoState) (cpu : Cpu) : BitVec 32 := readWord (state.memory cpu) 0x180

/-- The word a store to the synchronisation word stores. -/
def rebuiltSync (state : IoState) (cpu : Cpu) (width : AccessWidth) (addr value : BitVec 32) :
    BitVec 32 :=
  match width with
  | .word => value
  | .half => state.rebuiltHalf cpu addr value
  | .byte => setField (state.syncWord cpu) (8 * lane addr) (value.setWidth 8)

/-- The nibble that a store to the rest of the word finds for bits 8 to 11. -/
def restNibble (state : IoState) (cpu : Cpu) (width : AccessWidth) : BitVec 4 :=
  match width with
  | .half => (state.syncWord cpu).extractLsb' 24 4
  | _ => (state.syncWord cpu).extractLsb' 8 4

theorem not_serial_of_sync {addr : BitVec 32} (sync : wordOffset addr = 0x180) :
    addr4k addr ≠ 0x1C0 ∧ addr4k addr ≠ 0x1C2 := by
  constructor <;>
  · intro serial
    rw [wordOffset, serial] at sync
    exact absurd sync (by decide)

theorem store_sync (state : IoState) {cpu : Cpu} {width : AccessWidth} {addr value : BitVec 32}
    (sync : (IpcAccess.store cpu width addr value).OnSync) :
    ∃ base, addr4k base = 0x180 ∧
      state.store cpu width addr value =
        state.store32 cpu base (state.rebuiltSync cpu width addr value) := by
  cases width with
  | word => exact ⟨addr, sync, rfl⟩
  | half =>
      refine ⟨addr &&& ~~~3#32, (addr4k_base addr).trans sync, ?_⟩
      exact store16_eq state value fun _ => not_serial_of_sync sync
  | byte =>
      refine ⟨addr &&& ~~~3#32, (addr4k_base addr).trans sync, ?_⟩
      have rebuilt := store8_of_plain state cpu addr value
      rw [show wordOffset addr = 0x180 from sync] at rebuilt
      exact rebuilt

/-- A store that covers the nibble hands it over. -/
theorem rebuiltSync_of_some (state : IoState) (cpu : Cpu) {width : AccessWidth}
    {addr value : BitVec 32} {nibble : BitVec 4}
    (covers : outputNibble width addr value = some nibble) :
    (state.rebuiltSync cpu width addr value).extractLsb' 8 4 = nibble := by
  cases width with
  | word => exact Option.some.inj covers
  | half =>
      rw [outputNibble] at covers
      split at covers
      · next low =>
        rw [rebuiltSync, state.rebuiltHalf_of_low cpu value low, ← Option.some.inj covers,
          extractLsb'_setField_of_inside _ _ (by decide) (by decide) (by decide)]
        exact BitVec.extractLsb'_setWidth_of_le (by decide)
      · cases covers
  | byte =>
      rw [outputNibble] at covers
      split at covers
      · next second =>
        rw [rebuiltSync, second, ← Option.some.inj covers,
          extractLsb'_setField_of_inside _ _ (by decide) (by decide) (by decide)]
        exact BitVec.extractLsb'_setWidth_of_le (by decide)
      · cases covers

/-- A store to the rest of the word hands over what it finds for the nibble. -/
theorem rebuiltSync_of_none (state : IoState) {cpu : Cpu} {width : AccessWidth}
    {addr value : BitVec 32} (sync : (IpcAccess.store cpu width addr value).OnSync)
    (rest : outputNibble width addr value = none) :
    (state.rebuiltSync cpu width addr value).extractLsb' 8 4 = state.restNibble cpu width := by
  cases width with
  | word => cases rest
  | half =>
      rw [outputNibble] at rest
      split at rest
      · cases rest
      · next low =>
        have copied := (state.rebuiltHalf_of_high cpu value (not_lt.mp low)).1
        rw [show wordOffset addr = 0x180 from sync] at copied
        have nibbles := congrArg (·.extractLsb' 8 4) copied
        rw [lowHalf, highHalf, extractLsb'_extractLsb' _ (by decide),
          extractLsb'_extractLsb' _ (by decide)] at nibbles
        exact nibbles
  | byte =>
      rw [outputNibble] at rest
      split at rest
      · cases rest
      · next other =>
        exact extractLsb'_setField_of_outside _ _ (by decide) (by omega)

/-! ### What the accesses do to the nibbles -/

/-- No callback is registered. -/
def Quiet (state : IoState) : Prop := ∀ cpu, NoCallbacks state cpu

/-- `set_ipc` leaves nothing but the nibble handed over. -/
theorem setIpc_ipc {regs : IoRegs} {seen : BitVec 4} (sees : regs.ipc = seen.setWidth 32)
    (value : BitVec 32) : (regs.setIpc value).ipc = (value.extractLsb' 8 4).setWidth 32 := by
  have cleared : seen.setWidth 32 &&& ~~~0xF#32 = 0#32 := by
    apply BitVec.eq_of_toNat_eq
    have rounded := toNat_and_not_mask (seen.setWidth 32) 4
    have short := seen.isLt
    rw [BitVec.toNat_setWidth_of_le (by decide), Nat.div_eq_of_lt short] at rounded
    exact rounded
  have taken : (value >>> 8) &&& 0xF = (value.extractLsb' 8 4).setWidth 32 := by
    apply BitVec.eq_of_toNat_eq
    rw [BitVec.toNat_setWidth_of_le (by decide)]
    exact toNat_and_mask (value >>> 8) 4 (by decide)
  rw [IoRegs.setIpc, sees, cleared, taken, BitVec.zero_or]

theorem store32_ipc (state : IoState) (cpu : Cpu) {addr : BitVec 32} (value : BitVec 32)
    (sync : addr4k addr = 0x180) (quiet : state.Quiet) :
    (state.store32 cpu addr value).1 =
      (state.modify cpu.remote (·.setIpc value)).modify cpu (·.replace addr value) := by
  have callbacks := (quiet cpu).2
  cases cpu with
  | arm9 => simp [store32, Registers9.store32, sync, IoRegs.writecb, callbacks, Cpu.remote]
  | arm7 => simp [store32, Registers7.store32, sync, IoRegs.writecb, callbacks, Cpu.remote]

theorem quiet_modify {state : IoState} (quiet : state.Quiet) (cpu : Cpu)
    {change : IoRegs → IoRegs}
    (same : ∀ regs, (change regs).readcbs = regs.readcbs ∧
      (change regs).writecbs = regs.writecbs) : (state.modify cpu change).Quiet := by
  intro other
  by_cases own : other = cpu
  · subst own
    simpa [NoCallbacks, modify, same] using quiet other
  · simpa [NoCallbacks, modify, own] using quiet other

theorem replace_ipc (regs : IoRegs) (addr value : BitVec 32) :
    (regs.replace addr value).ipc = regs.ipc := by
  rw [IoRegs.replace]
  split <;> rfl

/-- The effect of a store on the nibbles: the other side sees that of the word
stored. -/
structure HandsOver (state next : IoState) (cpu : Cpu) (word : BitVec 32) : Prop where
  quiet : next.Quiet
  own : (next.regs cpu).ipc = (state.regs cpu).ipc
  remote : (next.regs cpu.remote).ipc = (word.extractLsb' 8 4).setWidth 32

theorem handsOver_store32 {state : IoState} {cpu : Cpu} {addr : BitVec 32} (value : BitVec 32)
    (sync : addr4k addr = 0x180) (quiet : state.Quiet) {seen : BitVec 4}
    (sees : (state.regs cpu.remote).ipc = seen.setWidth 32) :
    HandsOver state (state.store32 cpu addr value).1 cpu value := by
  rw [store32_ipc state cpu value sync quiet]
  constructor
  · apply quiet_modify
    · exact quiet_modify quiet _ fun _ => ⟨rfl, rfl⟩
    · exact fun regs => replace_callbacks regs addr value
  · simp only [modify, Function.update_self, replace_ipc, Function.update_of_ne cpu.remote_ne.symm]
  · simp only [modify, Function.update_self, Function.update_of_ne cpu.remote_ne]
    exact setIpc_ipc sees value

theorem handsOver_store {state : IoState} {cpu : Cpu} {width : AccessWidth}
    {addr value : BitVec 32} (sync : (IpcAccess.store cpu width addr value).OnSync)
    (quiet : state.Quiet) {seen : BitVec 4}
    (sees : (state.regs cpu.remote).ipc = seen.setWidth 32) :
    HandsOver state (state.store cpu width addr value).1 cpu
      (state.rebuiltSync cpu width addr value) := by
  obtain ⟨base, atSync, stored⟩ := state.store_sync sync
  rw [stored]
  exact handsOver_store32 _ atSync quiet sees

theorem load32_sync (state : IoState) (cpu : Cpu) {addr : BitVec 32}
    (sync : addr4k addr = 0x180) (quiet : state.Quiet) :
    state.load32 cpu addr =
      (state.modify cpu (·.assign addr (state.regs cpu).ipc), (state.regs cpu).ipc) := by
  have callbacks := (quiet cpu).1
  cases cpu with
  | arm9 => simp [load32, Registers9.load32, sync, IoRegs.readcb, callbacks]
  | arm7 => simp [load32, Registers7.load32, sync, IoRegs.readcb, callbacks]

/-- A load gives the part it addresses of the word the other side has made. -/
theorem load_sync (state : IoState) {cpu : Cpu} {width : AccessWidth} {addr : BitVec 32}
    (sync : (IpcAccess.load cpu width addr).OnSync) (quiet : state.Quiet) :
    (∃ base, (state.load cpu width addr).1 =
        state.modify cpu (·.assign base (state.regs cpu).ipc)) ∧
      (state.load cpu width addr).2 = loadedPart width addr (state.regs cpu).ipc := by
  cases width with
  | word =>
      rw [load, load32_sync state cpu sync quiet]
      exact ⟨⟨addr, rfl⟩, rfl⟩
  | half =>
      have base := load32_sync state cpu ((addr4k_base addr).trans sync) quiet
      rw [load, load16u_eq state fun _ => not_serial_of_sync sync, base]
      exact ⟨⟨_, rfl⟩, rfl⟩
  | byte =>
      have base := load32_sync state cpu ((addr4k_base addr).trans sync) quiet
      rw [load, load8u_eq, base]
      exact ⟨⟨_, rfl⟩, rfl⟩

end IoState

/-! ### Output nibbles along a run -/

/-- The register files with the nibble each processor last wrote to bits 8
to 11. -/
structure SyncPair where
  io : IoState
  output : Cpu → BitVec 4

namespace SyncPair

def boot : SyncPair := ⟨.boot, fun _ => 0⟩

def step (pair : SyncPair) (access : IpcAccess) : SyncPair where
  io := pair.io.access access
  output :=
    match access with
    | .store cpu width addr value =>
        match outputNibble width addr value with
        | some nibble => Function.update pair.output cpu nibble
        | none => pair.output
    | _ => pair.output

/-- A load gives the output nibbles of both sides, and after the access the
word of each side shows the nibble of the other. -/
structure Exchanges (pair : SyncPair) (access : IpcAccess) : Prop where
  loads : ∀ cpu width addr, access = .load cpu width addr →
    LoadShows width addr (pair.io.load cpu width addr).2 (pair.output cpu)
      (pair.output cpu.remote)
  shown : ∀ cpu addr, addr4k addr = 0x180 →
    ((pair.step access).io.load32 cpu addr).2.extractLsb' 0 4 =
      (pair.step access).output cpu.remote

/-- A store to the rest of the word finds the own output nibble for bits 8
to 11, and a load of the byte at `0x181` comes while that nibble is zero. -/
def NibbleKept (pair : SyncPair) : IpcAccess → Prop
  | .store cpu width addr value =>
      outputNibble width addr value = none → pair.io.restNibble cpu width = pair.output cpu
  | .load cpu width addr => LoadCovers width addr → pair.output cpu = 0
  | .receive _ _ => True

/-- Each side sees the output nibble of the other one and nothing else. -/
structure Sees (pair : SyncPair) : Prop where
  quiet : pair.io.Quiet
  nibble : ∀ cpu, (pair.io.regs cpu).ipc = (pair.output cpu.remote).setWidth 32

theorem sees_boot : boot.Sees := ⟨fun _ => ⟨rfl, rfl⟩, fun _ => rfl⟩

theorem extractLsb'_seen (seen : BitVec 4) :
    (seen.setWidth 32).extractLsb' 0 4 = seen ∧ (seen.setWidth 32).extractLsb' 8 4 = 0 := by
  have short := seen.isLt
  constructor
  · apply BitVec.eq_of_toNat_eq
    simp
    omega
  · apply BitVec.eq_of_toNat_eq
    simp [Nat.shiftRight_eq_div_pow]
    omega

/-- A load gives both nibbles when the own one is zero or not loaded. -/
theorem loadShows_iff (pair : SyncPair) (sees : pair.Sees) {cpu : Cpu} {width : AccessWidth}
    {addr : BitVec 32} (sync : (IpcAccess.load cpu width addr).OnSync) :
    LoadShows width addr (pair.io.load cpu width addr).2 (pair.output cpu)
        (pair.output cpu.remote) ↔
      (LoadCovers width addr → pair.output cpu = 0) := by
  have loaded := (pair.io.load_sync sync sees.quiet).2
  obtain ⟨low, high⟩ := extractLsb'_seen (pair.output cpu.remote)
  rw [sees.nibble] at loaded
  generalize (pair.output cpu.remote).setWidth 32 = word at loaded low high
  cases width with
  | word =>
      rw [LoadShows, LoadCovers, loaded, loadedPart, low, high]
      simp [eq_comm]
  | half =>
      rw [LoadShows, LoadCovers, loaded, loadedPart]
      apply imp_congr_right
      intro lower
      have first : halfOf word (lane addr / 2) = (word.extractLsb' 0 16).setWidth 32 := by
        rw [show lane addr / 2 = 0 by omega, halfOf]
      rw [first, BitVec.extractLsb'_setWidth_of_le (by decide),
        BitVec.extractLsb'_setWidth_of_le (by decide), extractLsb'_extractLsb' _ (by decide),
        extractLsb'_extractLsb' _ (by decide), low, high]
      simp [eq_comm]
  | byte =>
      rw [LoadShows, LoadCovers, loaded, loadedPart, byteOf,
        BitVec.extractLsb'_setWidth_of_le (by decide), extractLsb'_extractLsb' _ (by decide)]
      constructor
      · intro shows second
        have own := shows.2 second
        rw [second] at own
        exact own.symm.trans high
      · intro zero
        refine ⟨fun first => ?_, fun second => ?_⟩
        · rw [first]
          exact low
        · rw [second, zero second]
          exact high

/-- The nibble a store hands over is the output nibble after it when a store to
the rest of the word finds the own one. -/
theorem rebuilt_iff (pair : SyncPair) {cpu : Cpu} {width : AccessWidth} {addr value : BitVec 32}
    (sync : (IpcAccess.store cpu width addr value).OnSync) :
    (pair.io.rebuiltSync cpu width addr value).extractLsb' 8 4 =
        (pair.step (.store cpu width addr value)).output cpu ↔
      pair.NibbleKept (.store cpu width addr value) := by
  rw [NibbleKept, step]
  cases covers : outputNibble width addr value with
  | some nibble => simp [pair.io.rebuiltSync_of_some cpu covers]
  | none => simp [pair.io.rebuiltSync_of_none sync covers]

theorem step_output_remote (pair : SyncPair) (cpu : Cpu) (width : AccessWidth)
    (addr value : BitVec 32) :
    (pair.step (.store cpu width addr value)).output cpu.remote = pair.output cpu.remote := by
  rw [step]
  cases outputNibble width addr value <;> simp

/-- Without callbacks a side shows the nibble of the other one when its word
holds that. -/
theorem shown_iff {pair : SyncPair} (quiet : pair.io.Quiet) (cpu : Cpu) :
    (∀ addr, addr4k addr = 0x180 →
        (pair.io.load32 cpu addr).2.extractLsb' 0 4 = pair.output cpu.remote) ↔
      (pair.io.regs cpu).ipc.extractLsb' 0 4 = pair.output cpu.remote := by
  constructor
  · intro shown
    have loaded := shown 0x180 rfl
    rwa [pair.io.load32_sync cpu rfl quiet] at loaded
  · intro holds addr sync
    rw [pair.io.load32_sync cpu sync quiet]
    exact holds

/-- Under the invariant a store exchanges the nibbles exactly when it keeps the
own one, and then the invariant holds again. -/
theorem store_iff {pair : SyncPair} (sees : pair.Sees) {cpu : Cpu} {width : AccessWidth}
    {addr value : BitVec 32} (sync : (IpcAccess.store cpu width addr value).OnSync) :
    (pair.Exchanges (.store cpu width addr value) ↔
        pair.NibbleKept (.store cpu width addr value)) ∧
      (pair.NibbleKept (.store cpu width addr value) →
        (pair.step (.store cpu width addr value)).Sees) := by
  have handed := IoState.handsOver_store sync sees.quiet (sees.nibble cpu.remote)
  have own : ((pair.step (.store cpu width addr value)).io.regs cpu).ipc =
      (pair.output cpu.remote).setWidth 32 := handed.own.trans (sees.nibble cpu)
  have shownRemote : ((pair.step (.store cpu width addr value)).io.regs cpu.remote).ipc =
      ((pair.io.rebuiltSync cpu width addr value).extractLsb' 8 4).setWidth 32 := handed.remote
  have quiet : (pair.step (.store cpu width addr value)).io.Quiet := handed.quiet
  have kept := pair.step_output_remote cpu width addr value
  constructor
  · rw [← pair.rebuilt_iff sync]
    constructor
    · intro exchanges
      have shown := (shown_iff quiet cpu.remote).mp (exchanges.shown cpu.remote)
      rwa [shownRemote, (extractLsb'_seen _).1, Cpu.remote_remote] at shown
    · intro same
      refine ⟨fun _ _ _ impossible => (nomatch impossible), fun reader => ?_⟩
      rw [shown_iff quiet]
      rcases cpu.eq_or_eq_remote reader with rfl | rfl
      · rw [own, kept, (extractLsb'_seen _).1]
      · rw [shownRemote, Cpu.remote_remote, (extractLsb'_seen _).1, same]
  · rw [← pair.rebuilt_iff sync]
    intro same
    refine ⟨quiet, fun reader => ?_⟩
    rcases cpu.eq_or_eq_remote reader with rfl | rfl
    · rw [own, kept]
    · rw [shownRemote, Cpu.remote_remote, same]

/-- A load keeps the invariant and exchanges the nibbles when the own one is
zero or not loaded. -/
theorem load_iff {pair : SyncPair} (sees : pair.Sees) {cpu : Cpu} {width : AccessWidth}
    {addr : BitVec 32} (sync : (IpcAccess.load cpu width addr).OnSync) :
    (pair.Exchanges (.load cpu width addr) ↔ pair.NibbleKept (.load cpu width addr)) ∧
      (pair.step (.load cpu width addr)).Sees := by
  obtain ⟨base, made⟩ := (pair.io.load_sync sync sees.quiet).1
  have next : (pair.step (.load cpu width addr)).io =
      pair.io.modify cpu (·.assign base (pair.io.regs cpu).ipc) := made
  have seesNext : (pair.step (.load cpu width addr)).Sees := by
    constructor
    · rw [next]
      exact IoState.quiet_modify sees.quiet _ fun _ => ⟨rfl, rfl⟩
    · intro reader
      have outputs : (pair.step (.load cpu width addr)).output = pair.output := rfl
      rw [next, outputs]
      by_cases own : reader = cpu
      · subst own
        simpa [IoState.modify, IoRegs.assign] using sees.nibble reader
      · simpa [IoState.modify, own] using sees.nibble reader
  refine ⟨⟨fun exchanges => ?_, fun kept => ⟨?_, fun reader => ?_⟩⟩, seesNext⟩
  · exact (pair.loadShows_iff sees sync).mp (exchanges.loads cpu width addr rfl)
  · rintro _ _ _ ⟨⟩
    exact (pair.loadShows_iff sees sync).mpr kept
  · rw [shown_iff seesNext.quiet, seesNext.nibble, (extractLsb'_seen _).1]

theorem exchanges_iff (pair : SyncPair) (access : IpcAccess) (sees : pair.Sees)
    (sync : access.OnSync) : pair.Exchanges access ↔ pair.NibbleKept access := by
  cases access with
  | store cpu width addr value => exact (store_iff sees sync).1
  | load cpu width addr => exact (load_iff sees sync).1
  | receive _ _ => exact absurd sync id

theorem sees_step (pair : SyncPair) (access : IpcAccess) (sees : pair.Sees)
    (sync : access.OnSync) (kept : pair.NibbleKept access) : (pair.step access).Sees := by
  cases access with
  | store cpu width addr value => exact (store_iff sees sync).2 kept
  | load cpu width addr => exact (load_iff sees sync).2
  | receive _ _ => exact absurd sync id

end SyncPair

/-- From construction every access exchanges the output nibbles exactly when
every load of the own nibble finds it zero and every store to the rest of the
word finds it where it takes it from. -/
theorem sync_exchanges_iff (accesses : List IpcAccess)
    (sync : ∀ access ∈ accesses, access.OnSync) :
    EveryStep SyncPair.step SyncPair.Exchanges .boot accesses ↔
      EveryStep SyncPair.step SyncPair.NibbleKept .boot accesses := by
  refine everyStep_iff_of_related
    (fun (pair other : SyncPair) access (related : other = pair ∧ pair.Sees) isSync => ?_)
    (fun pair other access related isSync kept => ?_) ⟨rfl, SyncPair.sees_boot⟩ sync
  · obtain ⟨rfl, sees⟩ := related
    exact other.exchanges_iff access sees isSync
  · obtain ⟨rfl, sees⟩ := related
    exact ⟨rfl, other.sees_step access sees isSync kept⟩

/-- The ARM9 shows 5 and the ARM7 loads it, having shown nothing itself. -/
def greeting : List IpcAccess :=
  [.store .arm9 .half 0x04000180 0x0500, .load .arm7 .word 0x04000180]

theorem sync_exchanges_iff_greeting :
    EveryStep SyncPair.step SyncPair.Exchanges .boot greeting ↔
      EveryStep SyncPair.step SyncPair.NibbleKept .boot greeting :=
  sync_exchanges_iff greeting (by simp [greeting, IpcAccess.OnSync]; decide)

/-- A processor does not read its own nibble back. -/
theorem sync_exchanges_fails_ownNibble :
    ¬ ∀ accesses : List IpcAccess, (∀ access ∈ accesses, access.OnSync) →
      EveryStep SyncPair.step SyncPair.Exchanges .boot accesses := by
  intro exchanges
  have steps := exchanges [.store .arm9 .word 0x04000180 0x0500, .load .arm9 .word 0x04000180]
    (by simp [IpcAccess.OnSync]; decide)
  have shows := steps.2.1.loads .arm9 .word 0x04000180 rfl
  exact absurd shows.2 (by decide)

end Ndse
