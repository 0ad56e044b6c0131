import Ndse.MemoryAccess

/-!
# Transfers of a channel

The three registers of a channel lie in a page of memory.  `start_dma` works on
them in place: each iteration transfers a unit, moves both addresses on and
counts the control word down.
-/

namespace Ndse

namespace GuestMemory

/-- A register of the channel. -/
def dmaWord (memory : GuestMemory) (page : MemoryBlock PhysRegion) (offset : BitVec 9) :
    BitVec 32 :=
  peekWord (memory.blocks page).mem offset 4

def setDmaWord (memory : GuestMemory) (page : MemoryBlock PhysRegion) (offset : BitVec 9)
    (value : BitVec 32) : GuestMemory :=
  memory.modify page (·.poke offset (wordBytes 4 value))

/-- The size of the units that the control word asks for. -/
def dmaSize (ctrl : BitVec 32) : Nat := if ctrl &&& (1 <<< 26) ≠ 0 then 4 else 2

/-- The body of the loop in `start_dma`. -/
def dmaIteration (ioLoad : BitVec 32 → BitVec 32) (page : MemoryBlock PhysRegion)
    (base : BitVec 9) (memory : GuestMemory) : GuestMemory :=
  let src := memory.dmaWord page base
  let dst := memory.dmaWord page (base + 4)
  let ctrl := memory.dmaWord page (base + 8)
  let size := dmaSize ctrl
  let memory := memory.dmaTransfer ioLoad src dst size
  let memory := memory.setDmaWord page (base + 4)
    (dmaAdvance ((ctrl >>> 21) &&& 3) (memory.dmaWord page (base + 4)) size [0, 3])
  let memory := memory.setDmaWord page base
    (dmaAdvance ((ctrl >>> 23) &&& 3) (memory.dmaWord page base) size [0])
  memory.setDmaWord page (base + 8) (memory.dmaWord page (base + 8) - 1)

/-- `start_dma(base)` for at most so many iterations; it also counts them. -/
def startDmaAt (ioLoad : BitVec 32 → BitVec 32) (page : MemoryBlock PhysRegion)
    (base : BitVec 9) : (fuel : Nat) → GuestMemory → Option (Nat × GuestMemory)
  | 0, _ => none
  | fuel + 1, memory =>
      if (memory.dmaWord page (base + 8) &&& 0x801FFFFF).toNat > 0x80000000 then
        (startDmaAt ioLoad page base fuel (memory.dmaIteration ioLoad page base)).map
          fun run => (run.1 + 1, run.2)
      else some (0, memory.setDmaWord page (base + 8) 0)

/-! ### What a channel is for -/

/-- How far an address moves with each unit. -/
def dmaStride (mode : BitVec 32) (size : Nat) (upward : List (BitVec 32)) : BitVec 32 :=
  if upward.contains mode then BitVec.ofNat 32 size
  else if mode = 1 then -BitVec.ofNat 32 size
  else 0

def srcStride (ctrl : BitVec 32) : BitVec 32 :=
  dmaStride ((ctrl >>> 23) &&& 3) (dmaSize ctrl) [0]

def dstStride (ctrl : BitVec 32) : BitVec 32 :=
  dmaStride ((ctrl >>> 21) &&& 3) (dmaSize ctrl) [0, 3]

/-- The number of units. -/
def dmaCount (ctrl : BitVec 32) : Nat := (ctrl &&& 0x1FFFFF).toNat

/-- Copy some bytes within a page to another page. -/
def copyUnit (memory : GuestMemory) (size : Nat) (src dst : BitVec 32) : GuestMemory :=
  memory.modify (memory.addr2page .arm9 dst) fun block =>
    (block.poke (pageOffset dst 0)
      ((List.range size).map fun i => memory.byteAt .arm9 (src + BitVec.ofNat 32 i))).dirty

/-- Copy units one after another. -/
def copyUnits (memory : GuestMemory) (size : Nat) (src srcStride dst dstStride : BitVec 32)
    (count : Nat) : GuestMemory :=
  (List.range count).foldl (fun memory k =>
    memory.copyUnit size (src + BitVec.ofNat 32 k * srcStride)
      (dst + BitVec.ofNat 32 k * dstStride)) memory

/-- The unit is aligned, and its two pages are ordinary ones apart from the page
of the registers. -/
structure Transferable (memory : GuestMemory) (page : MemoryBlock PhysRegion) (size : Nat)
    (src dst : BitVec 32) : Prop where
  aligned : (src ||| dst) &&& BitVec.ofNat 32 (size - 1) = 0
  readable : ¬(memory.blocks (memory.addr2page .arm9 src)).has
    (PageFlag.invalid ||| PageFlag.readProt ||| PageFlag.accessHandler)
  writable : ¬(memory.blocks (memory.addr2page .arm9 dst)).has
    (PageFlag.invalid ||| PageFlag.writeProt ||| PageFlag.accessHandler)
  src_ne : memory.addr2page .arm9 src ≠ page
  dst_ne : memory.addr2page .arm9 dst ≠ page

instance (memory : GuestMemory) (page : MemoryBlock PhysRegion) (size : Nat)
    (src dst : BitVec 32) : Decidable (memory.Transferable page size src dst) :=
  decidable_of_iff
    ((src ||| dst) &&& BitVec.ofNat 32 (size - 1) = 0 ∧
      ¬(memory.blocks (memory.addr2page .arm9 src)).has
        (PageFlag.invalid ||| PageFlag.readProt ||| PageFlag.accessHandler) ∧
      ¬(memory.blocks (memory.addr2page .arm9 dst)).has
        (PageFlag.invalid ||| PageFlag.writeProt ||| PageFlag.accessHandler) ∧
      memory.addr2page .arm9 src ≠ page ∧ memory.addr2page .arm9 dst ≠ page)
    ⟨fun ⟨a, b, c, d, e⟩ => ⟨a, b, c, d, e⟩, fun ⟨a, b, c, d, e⟩ => ⟨a, b, c, d, e⟩⟩

/-- The channel is enabled, and every unit can be transferred. -/
structure Programmed (memory : GuestMemory) (page : MemoryBlock PhysRegion)
    (src dst ctrl : BitVec 32) : Prop where
  enabled : ctrl.getLsbD 31 = true
  units : ∀ k < dmaCount ctrl, memory.Transferable page (dmaSize ctrl)
    (src + BitVec.ofNat 32 k * srcStride ctrl) (dst + BitVec.ofNat 32 k * dstStride ctrl)

/-- The programmed copy has been made. -/
structure Transferred (memory after : GuestMemory) (page : MemoryBlock PhysRegion)
    (base : BitVec 9) (src dst ctrl : BitVec 32) : Prop where
  map : after.map = memory.map
  copied : ∀ block, block ≠ page → after.blocks block =
    (memory.copyUnits (dmaSize ctrl) src (srcStride ctrl) dst (dstStride ctrl)
      (dmaCount ctrl)).blocks block
  dirty : ∀ k < dmaCount ctrl,
    after.PageDirty (memory.addr2page .arm9 (dst + BitVec.ofNat 32 k * dstStride ctrl))
  src : after.dmaWord page base = src + BitVec.ofNat 32 (dmaCount ctrl) * srcStride ctrl
  dst : after.dmaWord page (base + 4) = dst + BitVec.ofNat 32 (dmaCount ctrl) * dstStride ctrl
  ctrl : after.dmaWord page (base + 8) = 0
  rest : ∀ offset, (∀ k < 12, offset ≠ base + BitVec.ofNat 9 k) →
    (after.blocks page).mem offset = (memory.blocks page).mem offset

/-! ### The control word -/

variable {memory other after : GuestMemory} {page : MemoryBlock PhysRegion} {base : BitVec 9}
variable {src dst ctrl : BitVec 32}

/-- Counting down leaves what is above the count. -/
theorem ctrl_sub_one_mode (positive : 0 < dmaCount ctrl) : (ctrl - 1) >>> 21 = ctrl >>> 21 := by
  apply BitVec.eq_of_toNat_eq
  rw [dmaCount, dmaCount_eq] at positive
  have bound := ctrl.isLt
  have one : (1 : BitVec 32).toNat = 1 := rfl
  rw [BitVec.toNat_ushiftRight, BitVec.toNat_ushiftRight, BitVec.toNat_sub, one,
    Nat.shiftRight_eq_div_pow, Nat.shiftRight_eq_div_pow]
  omega

theorem dmaSize_congr {ctrl other : BitVec 32} (mode : other >>> 21 = ctrl >>> 21) :
    dmaSize other = dmaSize ctrl := by
  have bit (word : BitVec 32) : word &&& (1 <<< 26) ≠ 0 ↔ (word >>> 21).getLsbD 5 = true := by
    rw [show (1 <<< 26 : BitVec 32) = BitVec.twoPow 32 26 from rfl, BitVec.and_twoPow,
      BitVec.getLsbD_ushiftRight]
    cases word.getLsbD 26 with
    | false => simp
    | true => exact iff_of_true (by decide) rfl
  rw [dmaSize, dmaSize]
  simp only [bit, mode]

theorem srcStride_congr {ctrl other : BitVec 32} (mode : other >>> 21 = ctrl >>> 21) :
    srcStride other = srcStride ctrl := by
  have split (word : BitVec 32) : word >>> 23 = word >>> 21 >>> 2 :=
    (BitVec.shiftRight_add word 21 2)
  rw [srcStride, srcStride, dmaSize_congr mode, split, split, mode]

theorem dstStride_congr {ctrl other : BitVec 32} (mode : other >>> 21 = ctrl >>> 21) :
    dstStride other = dstStride ctrl := by
  rw [dstStride, dstStride, dmaSize_congr mode, mode]

theorem enabled_congr {ctrl other : BitVec 32} (mode : other >>> 21 = ctrl >>> 21) :
    other.getLsbD 31 = ctrl.getLsbD 31 := by
  have bit := congrArg (BitVec.getLsbD · 10) mode
  simpa only [BitVec.getLsbD_ushiftRight] using bit

theorem dmaAdvance_eq (mode addr : BitVec 32) (size : Nat) (upward : List (BitVec 32)) :
    dmaAdvance mode addr size upward = addr + dmaStride mode size upward := by
  rw [dmaAdvance, dmaStride]
  by_cases up : mode ∈ upward
  · rw [if_pos up, if_pos (List.contains_iff_mem.mpr up)]
  · rw [if_neg up, if_neg (mt List.contains_iff_mem.mp up)]
    split
    · exact sub_eq_add_neg _ _
    · exact (BitVec.add_zero _).symm

/-- An enabled channel runs while its count is positive. -/
theorem runs_iff (enabled : ctrl.getLsbD 31 = true) :
    (ctrl &&& 0x801FFFFF).toNat > 0x80000000 ↔ 0 < dmaCount ctrl := by
  constructor
  · exact dmaCount_pos
  · intro positive
    have top : ctrl &&& 0x80000000 = 0x80000000 := by
      rw [show (0x80000000 : BitVec 32) = BitVec.twoPow 32 31 from rfl, BitVec.and_twoPow,
        if_pos enabled]
    have split : ctrl &&& 0x801FFFFF = 0x80000000 ||| (ctrl &&& 0x1FFFFF) := by
      rw [show (0x801FFFFF : BitVec 32) = 0x80000000 ||| 0x1FFFFF from rfl,
        BitVec.and_or_distrib_left, top]
    rw [dmaCount] at positive
    have small : (ctrl &&& 0x1FFFFF).toNat < 2 ^ 31 := by
      rw [dmaCount_eq]
      omega
    rw [split, BitVec.toNat_or]
    have sum := Nat.two_pow_add_eq_or_of_lt small 1
    rw [Nat.mul_one] at sum
    change 2 ^ 31 ||| (ctrl &&& 0x1FFFFF).toNat > 2 ^ 31
    omega

/-! ### Words of the register page -/

theorem setDmaWord_mem (memory : GuestMemory) (page : MemoryBlock PhysRegion)
    (offset : BitVec 9) (value : BitVec 32) :
    ((memory.setDmaWord page offset value).blocks page).mem =
      BlockState.pokeBytes (memory.blocks page).mem offset (wordBytes 4 value) := by
  rw [setDmaWord, modify_blocks, if_pos rfl]
  rfl

theorem setDmaWord_blocks (memory : GuestMemory) {page block : MemoryBlock PhysRegion}
    (offset : BitVec 9) (value : BitVec 32) (apart : block ≠ page) :
    (memory.setDmaWord page offset value).blocks block = memory.blocks block := by
  rw [setDmaWord, modify_blocks, if_neg apart]

theorem dmaWord_of_bytes {offset : BitVec 9} {byte : Nat → BitVec 8}
    (bytes : ∀ k < 4, (memory.blocks page).mem (offset + BitVec.ofNat 9 k) = byte k) :
    memory.dmaWord page offset = byte 3 ++ byte 2 ++ byte 1 ++ byte 0 := by
  rw [dmaWord, peekWord_four, ← bytes 3 (by decide), ← bytes 2 (by decide),
    ← bytes 1 (by decide), ← bytes 0 (by decide), BitVec.add_zero]
  rfl

theorem getElem_wordBytes {size k : Nat} (value : BitVec 32)
    (within : k < (wordBytes size value).length) :
    (wordBytes size value)[k] = value.extractLsb' (8 * k) 8 := by
  simp [wordBytes]

theorem dmaWord_setDmaWord (memory : GuestMemory) (page : MemoryBlock PhysRegion)
    (offset : BitVec 9) (value : BitVec 32) :
    (memory.setDmaWord page offset value).dmaWord page offset = value := by
  have length := length_wordBytes 4 value
  have written (k : Nat) (inside : k < 4) :
      ((memory.setDmaWord page offset value).blocks page).mem (offset + BitVec.ofNat 9 k) =
        value.extractLsb' (8 * k) 8 := by
    have within : k < (wordBytes 4 value).length := inside.trans_eq length.symm
    have short : (wordBytes 4 value).length ≤ 512 := length.trans_le (by decide)
    rw [setDmaWord_mem, BlockState.pokeBytes_inside _ _ _ short within,
      getElem_wordBytes]
  exact (dmaWord_of_bytes written).trans (BitFields.append_bytes value)

/-- Words that do not overlap. -/
theorem dmaWord_setDmaWord_of_apart (memory : GuestMemory) (page : MemoryBlock PhysRegion)
    {offset place : BitVec 9} (value : BitVec 32)
    (apart : ∀ j < 4, ∀ k < 4, offset + BitVec.ofNat 9 k ≠ place + BitVec.ofNat 9 j) :
    (memory.setDmaWord page offset value).dmaWord page place = memory.dmaWord page place := by
  have kept (j : Nat) (inside : j < 4) :
      ((memory.setDmaWord page offset value).blocks page).mem (place + BitVec.ofNat 9 j) =
        (memory.blocks page).mem (place + BitVec.ofNat 9 j) := by
    rw [setDmaWord_mem]
    apply BlockState.pokeBytes_of_outside
    intro k bound
    exact apart j inside k (bound.trans_eq (length_wordBytes 4 value))
  exact (dmaWord_of_bytes kept).trans (dmaWord_of_bytes fun _ _ => rfl).symm

/-- The registers of a channel do not overlap. -/
theorem dmaWord_setDmaWord_register (memory : GuestMemory) (page : MemoryBlock PhysRegion)
    (base value : BitVec _) {one other : BitVec 9}
    (apart : ∀ j < 4, ∀ k < 4, one + BitVec.ofNat 9 k ≠ other + BitVec.ofNat 9 j) :
    (memory.setDmaWord page (base + one) value).dmaWord page (base + other) =
      memory.dmaWord page (base + other) := by
  apply dmaWord_setDmaWord_of_apart
  intro j first k second same
  rw [BitVec.add_assoc, BitVec.add_assoc] at same
  exact apart j first k second (add_left_cancel same)

theorem dmaWord_base_setDmaWord (memory : GuestMemory) (page : MemoryBlock PhysRegion)
    (base value : BitVec _) {one : BitVec 9}
    (apart : ∀ j < 4, ∀ k < 4, one + BitVec.ofNat 9 k ≠ 0 + BitVec.ofNat 9 j) :
    (memory.setDmaWord page (base + one) value).dmaWord page base = memory.dmaWord page base := by
  have kept := dmaWord_setDmaWord_register memory page base value apart
  rwa [show base + 0 = base from BitVec.add_zero base] at kept

theorem dmaWord_setDmaWord_base (memory : GuestMemory) (page : MemoryBlock PhysRegion)
    (base value : BitVec _) {other : BitVec 9}
    (apart : ∀ j < 4, ∀ k < 4, 0 + BitVec.ofNat 9 k ≠ other + BitVec.ofNat 9 j) :
    (memory.setDmaWord page base value).dmaWord page (base + other) =
      memory.dmaWord page (base + other) := by
  have kept := dmaWord_setDmaWord_register memory page base value apart
  rwa [show base + 0 = base from BitVec.add_zero base] at kept

theorem setDmaWord_rest (memory : GuestMemory) (page : MemoryBlock PhysRegion)
    {offset place : BitVec 9} (value : BitVec 32)
    (outside : ∀ k < 4, offset + BitVec.ofNat 9 k ≠ place) :
    ((memory.setDmaWord page offset value).blocks page).mem place =
      (memory.blocks page).mem place := by
  rw [setDmaWord_mem]
  apply BlockState.pokeBytes_of_outside
  intro k inside
  exact outside k (inside.trans_eq (length_wordBytes 4 value))

/-! ### One unit -/

theorem extract_append_low {w : Nat} (high : BitVec w) (low : BitVec 8) :
    (high ++ low).extractLsb' 0 8 = low := by
  apply BitVec.eq_of_getLsbD_eq
  intro bit inside
  rw [BitVec.getLsbD_extractLsb', decide_eq_true inside, Bool.true_and, Nat.zero_add,
    BitFields.getLsbD_append_low inside]

theorem extract_append_high {w : Nat} (high : BitVec w) (low : BitVec 8) (start : Nat) :
    (high ++ low).extractLsb' (8 + start) 8 = high.extractLsb' start 8 := by
  apply BitVec.eq_of_getLsbD_eq
  intro bit inside
  rw [BitVec.getLsbD_extractLsb', BitVec.getLsbD_extractLsb', Nat.add_assoc,
    BitFields.getLsbD_append_high (Nat.le_add_right _ _), Nat.add_sub_cancel_left]

/-- The bytes of a word that is loaded. -/
theorem peekWord_byte {size k : Nat} (unit : size = 2 ∨ size = 4) (mem : PageBytes)
    (offset : BitVec 9) (inside : k < size) :
    (peekWord mem offset size).extractLsb' (8 * k) 8 = mem (offset + BitVec.ofNat 9 k) := by
  cases unit with
  | inl half =>
      rw [half] at inside
      rw [half, peekWord_two, BitVec.extractLsb'_setWidth_of_le (by omega)]
      match k with
      | 0 => rw [extract_append_low, BitVec.add_zero]
      | 1 => exact (extract_append_high _ _ 0).trans BitVec.extractLsb'_eq_self
  | inr word =>
      rw [word] at inside
      rw [word, peekWord_four]
      match k with
      | 0 => exact (extract_append_low _ _).trans (congrArg mem (BitVec.add_zero offset).symm)
      | 1 => exact (extract_append_high _ _ 0).trans (extract_append_low _ _)
      | 2 =>
          refine (extract_append_high _ _ 8).trans ?_
          exact (extract_append_high _ _ 0).trans (extract_append_low _ _)
      | 3 =>
          refine (extract_append_high _ _ 16).trans ((extract_append_high _ _ 8).trans ?_)
          exact (extract_append_high _ _ 0).trans BitVec.extractLsb'_eq_self

theorem wordBytes_peekWord {size : Nat} (unit : size = 2 ∨ size = 4) (mem : PageBytes)
    (offset : BitVec 9) :
    wordBytes size (peekWord mem offset size) =
      (List.range size).map fun i => mem (offset + BitVec.ofNat 9 i) :=
  List.map_congr_left fun _ member => peekWord_byte unit mem offset (List.mem_range.mp member)

theorem dmaSize_cases (ctrl : BitVec 32) : dmaSize ctrl = 2 ∨ dmaSize ctrl = 4 := by
  rw [dmaSize]
  split
  · exact Or.inr rfl
  · exact Or.inl rfl

/-- An aligned address is followed by its unit in the page. -/
theorem Transferable.within {size : Nat} (unit : size = 2 ∨ size = 4)
    (transferable : memory.Transferable page size src dst) :
    src.toNat % 512 + size ≤ 512 ∧ dst.toNat % 512 + size ≤ 512 := by
  have aligned := transferable.aligned
  rw [BitVec.and_or_distrib_right] at aligned
  have divides (addr : BitVec 32) (low : addr &&& BitVec.ofNat 32 (size - 1) = 0) :
      addr.toNat % 512 + size ≤ 512 := by
    have value := congrArg BitVec.toNat low
    rw [BitVec.toNat_and] at value
    cases unit with
    | inl half =>
        rw [half] at value ⊢
        have rest : addr.toNat % 2 ^ 1 = 0 := (Nat.and_two_pow_sub_one_eq_mod _ 1).symm.trans value
        omega
    | inr word =>
        rw [word] at value ⊢
        have rest : addr.toNat % 2 ^ 2 = 0 := (Nat.and_two_pow_sub_one_eq_mod _ 2).symm.trans value
        omega
  have both := BitVec.or_eq_zero_iff.mp aligned
  exact ⟨divides src both.1, divides dst both.2⟩

/-- A unit that can be transferred is copied. -/
theorem Transferable.dmaTransfer_eq {size : Nat} (unit : size = 2 ∨ size = 4)
    (transferable : memory.Transferable page size src dst) (ioLoad : BitVec 32 → BitVec 32) :
    memory.dmaTransfer ioLoad src dst size = memory.copyUnit size src dst := by
  have bytes : wordBytes size (peekWord (memory.blocks (memory.addr2page .arm9 src)).mem
      (pageOffset src 0) size) =
        (List.range size).map fun i => memory.byteAt .arm9 (src + BitVec.ofNat 32 i) := by
    rw [wordBytes_peekWord unit]
    apply List.map_congr_left
    intro i member
    have inside := List.mem_range.mp member
    have within := (transferable.within unit).1
    rw [byteAt, place, addr2page_within memory .arm9 i (by omega),
      pageOffset_within i (by omega)]
  have noHandler : ¬(memory.blocks (memory.addr2page .arm9 src)).has PageFlag.accessHandler :=
    fun has => transferable.readable (has_of_subset (by decide) has)
  have noReadProt : ¬(memory.blocks (memory.addr2page .arm9 src)).has
      (PageFlag.invalid ||| PageFlag.readProt) :=
    fun has => transferable.readable (has_of_subset (by decide) has)
  have noDestHandler : ¬(memory.blocks (memory.addr2page .arm9 dst)).has PageFlag.accessHandler :=
    fun has => transferable.writable (has_of_subset (by decide) has)
  have noWriteProt : ¬(memory.blocks (memory.addr2page .arm9 dst)).has
      (PageFlag.invalid ||| PageFlag.writeProt) :=
    fun has => transferable.writable (has_of_subset (by decide) has)
  rw [dmaTransfer, if_neg noReadProt, if_neg noWriteProt, if_neg (not_not.mpr transferable.aligned),
    if_neg noHandler]
  dsimp only
  rw [if_neg noDestHandler, bytes, copyUnit, modify_poke_dirty]

theorem copyUnit_sameProtection (memory : GuestMemory) (size : Nat) (src dst : BitVec 32) :
    SameProtection memory (memory.copyUnit size src dst) := by
  rw [copyUnit, modify_poke_dirty]
  exact (sameProtection_poke _ _ _ _).trans (sameButDirty_dirty _ _).toSameProtection

theorem SameProtection.transferable_iff (same : SameProtection memory other) (size : Nat) :
    other.Transferable page size src dst ↔ memory.Transferable page size src dst := by
  have pages : other.addr2page = memory.addr2page := by
    funext cpu addr
    rw [addr2page, addr2page, same.map]
  constructor
  · rintro ⟨aligned, readable, writable, src_ne, dst_ne⟩
    rw [pages] at readable writable src_ne dst_ne
    rw [same.has_iff (by decide)] at readable writable
    exact ⟨aligned, readable, writable, src_ne, dst_ne⟩
  · rintro ⟨aligned, readable, writable, src_ne, dst_ne⟩
    rw [← same.has_iff (by decide)] at readable writable
    rw [← pages] at readable writable src_ne dst_ne
    exact ⟨aligned, readable, writable, src_ne, dst_ne⟩

/-! ### Apart from the register page -/

/-- The memories agree outside of a page. -/
structure AgreeOff (page : MemoryBlock PhysRegion) (memory other : GuestMemory) : Prop where
  map : other.map = memory.map
  blocks : ∀ block, block ≠ page → other.blocks block = memory.blocks block

theorem AgreeOff.transferable (agree : AgreeOff page memory other) {size : Nat}
    (transferable : memory.Transferable page size src dst) :
    other.Transferable page size src dst := by
  have pages : other.addr2page = memory.addr2page := by
    funext cpu addr
    rw [addr2page, addr2page, agree.map]
  obtain ⟨aligned, readable, writable, src_ne, dst_ne⟩ := transferable
  rw [← agree.blocks _ src_ne] at readable
  rw [← agree.blocks _ dst_ne] at writable
  rw [← pages] at readable writable src_ne dst_ne
  exact ⟨aligned, readable, writable, src_ne, dst_ne⟩

/-- A unit apart from the page has the same bytes in both. -/
theorem AgreeOff.copyUnit (agree : AgreeOff page memory other) {size : Nat}
    (unit : size = 2 ∨ size = 4) (transferable : memory.Transferable page size src dst) :
    AgreeOff page (memory.copyUnit size src dst) (other.copyUnit size src dst) where
  map := agree.map
  blocks := by
    have pages : other.addr2page = memory.addr2page := by
      funext cpu addr
      rw [addr2page, addr2page, agree.map]
    have bytes (i : Nat) (inside : i < size) :
        other.byteAt .arm9 (src + BitVec.ofNat 32 i) =
          memory.byteAt .arm9 (src + BitVec.ofNat 32 i) := by
      have within := (transferable.within unit).1
      have here : memory.addr2page .arm9 (src + BitVec.ofNat 32 i) ≠ page := by
        rw [addr2page_within memory .arm9 i (by omega)]
        exact transferable.src_ne
      rw [byteAt, byteAt, place, place, pages, agree.blocks _ here]
    have all := List.map_congr_left fun i (member : i ∈ List.range size) =>
      bytes i (List.mem_range.mp member)
    intro block apart
    rw [GuestMemory.copyUnit, GuestMemory.copyUnit, all, modify_blocks, modify_blocks, pages,
      agree.blocks _ transferable.dst_ne, agree.blocks _ apart]

/-- The registers of the channel. -/
structure Registers (memory : GuestMemory) (page : MemoryBlock PhysRegion) (base : BitVec 9)
    (src dst ctrl : BitVec 32) : Prop where
  src : memory.dmaWord page base = src
  dst : memory.dmaWord page (base + 4) = dst
  ctrl : memory.dmaWord page (base + 8) = ctrl

/-- Nothing but the registers differs in the page. -/
def RestKept (page : MemoryBlock PhysRegion) (base : BitVec 9) (memory other : GuestMemory) :
    Prop :=
  ∀ offset, (∀ k < 12, offset ≠ base + BitVec.ofNat 9 k) →
    (other.blocks page).mem offset = (memory.blocks page).mem offset

theorem setDmaWord_restKept (memory : GuestMemory) (page : MemoryBlock PhysRegion)
    (base : BitVec 9) {start : BitVec 9} (inside : start.toNat + 4 ≤ 12) (value : BitVec 32) :
    RestKept page base memory (memory.setDmaWord page (base + start) value) := by
  intro offset outside
  apply setDmaWord_rest
  intro k bound same
  have place : start + BitVec.ofNat 9 k = BitVec.ofNat 9 (start.toNat + k) := by
    rw [BitVec.ofNat_add, BitVec.ofNat_toNat, BitVec.setWidth_eq]
  rw [BitVec.add_assoc, place] at same
  exact outside (start.toNat + k) (by omega) same.symm

/-- The three words written by an iteration. -/
theorem setDmaWords_spec (memory : GuestMemory) (page : MemoryBlock PhysRegion) (base : BitVec 9)
    (src dst ctrl : BitVec 32) :
    let after := ((memory.setDmaWord page (base + 4) dst).setDmaWord page base src).setDmaWord
      page (base + 8) ctrl
    AgreeOff page memory after ∧ Registers after page base src dst ctrl ∧
      RestKept page base memory after := by
  refine ⟨⟨rfl, fun block apart => ?_⟩, ⟨?_, ?_, dmaWord_setDmaWord _ _ _ _⟩, ?_⟩
  · rw [setDmaWord_blocks _ _ _ apart, setDmaWord_blocks _ _ _ apart,
      setDmaWord_blocks _ _ _ apart]
  · rw [dmaWord_base_setDmaWord _ _ _ _ (by decide), dmaWord_setDmaWord]
  · rw [dmaWord_setDmaWord_register _ _ _ _ (by decide),
      dmaWord_setDmaWord_base _ _ _ _ (by decide), dmaWord_setDmaWord]
  · intro offset outside
    have kept (memory : GuestMemory) (start : BitVec 9) (inside : start.toNat + 4 ≤ 12)
        (value : BitVec 32) := setDmaWord_restKept memory page base inside value offset outside
    have start := kept (memory.setDmaWord page (base + 4) dst) 0 (by decide) src
    rw [show base + 0 = base from BitVec.add_zero base] at start
    rw [kept _ 8 (by decide), start, kept _ 4 (by decide)]

/-- One iteration. -/
theorem dmaIteration_spec (ioLoad : BitVec 32 → BitVec 32)
    (registers : Registers memory page base src dst ctrl)
    (transferable : memory.Transferable page (dmaSize ctrl) src dst) :
    AgreeOff page (memory.copyUnit (dmaSize ctrl) src dst)
        (memory.dmaIteration ioLoad page base) ∧
      Registers (memory.dmaIteration ioLoad page base) page base (src + srcStride ctrl)
        (dst + dstStride ctrl) (ctrl - 1) ∧
      RestKept page base memory (memory.dmaIteration ioLoad page base) := by
  have copied := transferable.dmaTransfer_eq (dmaSize_cases ctrl) ioLoad
  have untouched : (memory.copyUnit (dmaSize ctrl) src dst).blocks page = memory.blocks page := by
    rw [copyUnit, modify_blocks, if_neg transferable.dst_ne.symm]
  have word (offset : BitVec 9) : (memory.copyUnit (dmaSize ctrl) src dst).dmaWord page offset =
      memory.dmaWord page offset := by
    rw [dmaWord, dmaWord, untouched]
  have run : memory.dmaIteration ioLoad page base =
      (((memory.copyUnit (dmaSize ctrl) src dst).setDmaWord page (base + 4)
        (dst + dstStride ctrl)).setDmaWord page base (src + srcStride ctrl)).setDmaWord page
          (base + 8) (ctrl - 1) := by
    rw [dmaIteration, registers.src, registers.dst, registers.ctrl, copied, word, registers.dst,
      dmaWord_base_setDmaWord _ _ _ _ (by decide), word, registers.src,
      dmaWord_setDmaWord_base _ _ _ _ (by decide),
      dmaWord_setDmaWord_register _ _ _ _ (by decide), word, registers.ctrl, dmaAdvance_eq,
      dmaAdvance_eq]
    rfl
  obtain ⟨agree, moved, rest⟩ := setDmaWords_spec (memory.copyUnit (dmaSize ctrl) src dst) page
    base (src + srcStride ctrl) (dst + dstStride ctrl) (ctrl - 1)
  rw [run]
  refine ⟨agree, moved, fun offset outside => ?_⟩
  rw [rest offset outside, untouched]

/-! ### A whole transfer -/

theorem strided_zero (addr stride : BitVec 32) : addr + BitVec.ofNat 32 0 * stride = addr := by
  rw [show BitVec.ofNat 32 0 = 0#32 from rfl, BitVec.zero_mul, BitVec.add_zero]

theorem strided_succ (addr stride : BitVec 32) (k : Nat) :
    addr + BitVec.ofNat 32 (k + 1) * stride = addr + stride + BitVec.ofNat 32 k * stride := by
  rw [BitVec.ofNat_add, BitVec.add_mul, BitVec.one_mul, BitVec.add_comm (_ * _), BitVec.add_assoc]

/-- The first unit and then the others, from the next addresses on. -/
theorem copyUnits_succ (memory : GuestMemory) (size : Nat)
    (src srcStride dst dstStride : BitVec 32) (count : Nat) :
    memory.copyUnits size src srcStride dst dstStride (count + 1) =
      (memory.copyUnit size src dst).copyUnits size (src + srcStride) srcStride (dst + dstStride)
        dstStride count := by
  rw [copyUnits, copyUnits, List.range_succ_eq_map, List.foldl_cons, List.foldl_map,
    strided_zero, strided_zero]
  simp only [Nat.succ_eq_add_one, strided_succ]

theorem AgreeOff.trans {third : GuestMemory} (one : AgreeOff page memory other)
    (two : AgreeOff page other third) : AgreeOff page memory third where
  map := two.map.trans one.map
  blocks := fun block apart => (two.blocks block apart).trans (one.blocks block apart)

/-- The channel copies its units and stops. -/
theorem startDmaAt_run (ioLoad : BitVec 32 → BitVec 32) {count : Nat} {spec : GuestMemory}
    (counted : dmaCount ctrl = count) (enabled : ctrl.getLsbD 31 = true)
    (agree : AgreeOff page spec memory) (registers : Registers memory page base src dst ctrl)
    (units : ∀ k < count, spec.Transferable page (dmaSize ctrl)
      (src + BitVec.ofNat 32 k * srcStride ctrl) (dst + BitVec.ofNat 32 k * dstStride ctrl)) :
    ∃ after, (∀ fuel, count < fuel →
        startDmaAt ioLoad page base fuel memory = some (count, after)) ∧
      AgreeOff page (spec.copyUnits (dmaSize ctrl) src (srcStride ctrl) dst (dstStride ctrl) count)
        after ∧
      Registers after page base (src + BitVec.ofNat 32 count * srcStride ctrl)
        (dst + BitVec.ofNat 32 count * dstStride ctrl) 0 ∧
      RestKept page base memory after := by
  induction count generalizing spec memory src dst ctrl with
  | zero =>
      have stops : ¬(ctrl &&& 0x801FFFFF).toNat > 0x80000000 := by
        rw [runs_iff enabled, counted]
        exact Nat.lt_irrefl 0
      refine ⟨memory.setDmaWord page (base + 8) 0, fun fuel positive => ?_, ?_, ⟨?_, ?_, ?_⟩,
        setDmaWord_restKept memory page base (by decide) 0⟩
      · obtain ⟨fuel, rfl⟩ := Nat.exists_eq_add_one.mpr positive
        rw [startDmaAt, registers.ctrl, if_neg stops]
      · exact agree.trans ⟨rfl, fun block apart => setDmaWord_blocks memory _ _ apart⟩
      · rw [dmaWord_base_setDmaWord _ _ _ _ (by decide), registers.src, strided_zero]
      · rw [dmaWord_setDmaWord_register _ _ _ _ (by decide), registers.dst, strided_zero]
      · exact dmaWord_setDmaWord _ _ _ _
  | succ count ih =>
      have positive : 0 < dmaCount ctrl := counted.symm ▸ Nat.succ_pos count
      have mode := ctrl_sub_one_mode positive
      have first := units 0 (Nat.succ_pos count)
      rw [strided_zero, strided_zero] at first
      obtain ⟨copied, moved, rest⟩ :=
        dmaIteration_spec ioLoad registers (agree.transferable first)
      have next := (agree.copyUnit (dmaSize_cases ctrl) first).trans copied
      have left : dmaCount (ctrl - 1) = count := by
        rw [dmaCount, dmaCount_sub_one positive, ← dmaCount, counted, Nat.add_sub_cancel]
      obtain ⟨after, run, done, registers', rest'⟩ :=
        ih left ((enabled_congr mode).trans enabled) next moved (by
          intro k inside
          rw [dmaSize_congr mode, srcStride_congr mode, dstStride_congr mode,
            (copyUnit_sameProtection spec _ _ _).transferable_iff, ← strided_succ, ← strided_succ]
          exact units (k + 1) (Nat.succ_lt_succ inside))
      rw [dmaSize_congr mode, srcStride_congr mode, dstStride_congr mode] at done
      rw [srcStride_congr mode, dstStride_congr mode, ← strided_succ, ← strided_succ] at registers'
      refine ⟨after, fun fuel enough => ?_, ?_, registers', fun offset outside => ?_⟩
      · obtain ⟨fuel, rfl⟩ := Nat.exists_eq_add_one.mpr (Nat.zero_lt_of_lt enough)
        rw [startDmaAt, registers.ctrl, if_pos ((runs_iff enabled).mpr positive),
          run fuel (Nat.lt_of_succ_lt_succ enough)]
        rfl
      · rwa [copyUnits_succ]
      · rw [rest' offset outside, rest offset outside]

/-- With the registers as arguments the loop copies the same units. -/
theorem dmaLoop_eq (ioLoad : BitVec 32 → BitVec 32) {count : Nat}
    (counted : dmaCount ctrl = count) (enabled : ctrl.getLsbD 31 = true)
    (units : ∀ k < count, memory.Transferable page (dmaSize ctrl)
      (src + BitVec.ofNat 32 k * srcStride ctrl) (dst + BitVec.ofNat 32 k * dstStride ctrl)) :
    dmaLoop ioLoad memory src dst ctrl count =
      memory.copyUnits (dmaSize ctrl) src (srcStride ctrl) dst (dstStride ctrl) count := by
  induction count generalizing memory src dst ctrl with
  | zero => rfl
  | succ count ih =>
      have positive : 0 < dmaCount ctrl := counted.symm ▸ Nat.succ_pos count
      have mode := ctrl_sub_one_mode positive
      have first := units 0 (Nat.succ_pos count)
      rw [strided_zero, strided_zero] at first
      have left : dmaCount (ctrl - 1) = count := by
        rw [dmaCount, dmaCount_sub_one positive, ← dmaCount, counted, Nat.add_sub_cancel]
      rw [dmaLoop, if_pos ((runs_iff enabled).mpr positive)]
      change dmaLoop ioLoad (memory.dmaTransfer ioLoad src dst (dmaSize ctrl))
        (dmaAdvance ((ctrl >>> 23) &&& 3) src (dmaSize ctrl) [0])
        (dmaAdvance ((ctrl >>> 21) &&& 3) dst (dmaSize ctrl) [0, 3]) (ctrl - 1) count = _
      rw [dmaAdvance_eq, dmaAdvance_eq, first.dmaTransfer_eq (dmaSize_cases ctrl), ← srcStride,
        ← dstStride, ih left ((enabled_congr mode).trans enabled), copyUnits_succ,
        dmaSize_congr mode, srcStride_congr mode, dstStride_congr mode]
      intro k inside
      rw [dmaSize_congr mode, srcStride_congr mode, dstStride_congr mode,
        (copyUnit_sameProtection memory _ _ _).transferable_iff, ← strided_succ, ← strided_succ]
      exact units (k + 1) (Nat.succ_lt_succ inside)

theorem Programmed.startDma_eq (programmed : memory.Programmed page src dst ctrl)
    (ioLoad : BitVec 32 → BitVec 32) :
    memory.startDma ioLoad src dst ctrl =
      memory.copyUnits (dmaSize ctrl) src (srcStride ctrl) dst (dstStride ctrl) (dmaCount ctrl) :=
  dmaLoop_eq ioLoad rfl programmed.enabled programmed.units

/-- The pages that units were copied to are dirty. -/
theorem copyUnits_dirty (memory : GuestMemory) (size : Nat)
    (src srcStride dst dstStride : BitVec 32) (count : Nat) :
    (memory.copyUnits size src srcStride dst dstStride count).map = memory.map ∧
      ∀ k < count, (memory.copyUnits size src srcStride dst dstStride count).PageDirty
        (memory.addr2page .arm9 (dst + BitVec.ofNat 32 k * dstStride)) := by
  induction count with
  | zero => exact ⟨rfl, fun k none => absurd none (Nat.not_lt_zero k)⟩
  | succ count ih =>
      obtain ⟨map, dirty⟩ := ih
      rw [copyUnits] at map dirty ⊢
      rw [List.range_succ, List.foldl_append, List.foldl_cons, List.foldl_nil, copyUnit,
        modify_poke_dirty]
      refine ⟨map, fun k inside => ?_⟩
      by_cases last : k = count
      · have page {memory other : GuestMemory} (map : other.map = memory.map) (addr : BitVec 32) :
            other.addr2page .arm9 addr = memory.addr2page .arm9 addr := by
          rw [addr2page, addr2page, map]
        rw [last, ← page map]
        exact pageDirty_dirty _ _
      · exact ((dirty k (by omega)).poke _ _ _).dirty _

/-- An enabled channel makes exactly the programmed copy and stops after its last unit. -/
theorem startDmaAt_copies (ioLoad : BitVec 32 → BitVec 32) (memory : GuestMemory)
    (page : MemoryBlock PhysRegion) (base : BitVec 9) {src dst ctrl : BitVec 32}
    (registers : Registers memory page base src dst ctrl)
    (programmed : memory.Programmed page src dst ctrl) :
    ∃ after, (∀ fuel, dmaCount ctrl < fuel →
        startDmaAt ioLoad page base fuel memory = some (dmaCount ctrl, after)) ∧
      memory.Transferred after page base src dst ctrl := by
  obtain ⟨after, run, agree, registers', rest⟩ := startDmaAt_run ioLoad rfl programmed.enabled
    ⟨rfl, fun _ _ => rfl⟩ registers programmed.units
  obtain ⟨map, dirty⟩ := memory.copyUnits_dirty (dmaSize ctrl) src (srcStride ctrl) dst
    (dstStride ctrl) (dmaCount ctrl)
  refine ⟨after, run, {
    map := agree.map.trans map
    copied := agree.blocks
    dirty := fun k inside => ?_
    src := registers'.src
    dst := registers'.dst
    ctrl := registers'.ctrl
    rest := rest }⟩
  rw [PageDirty, agree.blocks _ (programmed.units k inside).dst_ne]
  exact dirty k inside

/-- A page of main memory and one with the registers `00000000h`, `00000004h` and
`84000002h` at its start. -/
def fillingDma : GuestMemory where
  map := fun _ _ => ⟨.ram, 0⟩
  blocks := fun _ =>
    { flags := 0
      jit := fun _ _ => none
      recompiles := 0
      mem := fun offset =>
        if offset = 4 then 0x04 else if offset = 8 then 0x02 else if offset = 11 then 0x84 else 0 }

/-- Two words, the second of which is what the first one was copied to. -/
theorem startDmaAt_copies_filling :
    ∃ after, (∀ fuel, dmaCount 0x84000002 < fuel →
        startDmaAt (fun _ => 0) ⟨.registers91, 0⟩ 0 fuel fillingDma =
          some (dmaCount 0x84000002, after)) ∧
      fillingDma.Transferred after ⟨.registers91, 0⟩ 0 0x0 0x4 0x84000002 :=
  startDmaAt_copies _ fillingDma _ 0 ⟨by decide, by decide, by decide⟩ ⟨by decide, by decide⟩

end GuestMemory

end Ndse
