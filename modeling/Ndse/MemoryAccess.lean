import Ndse.GuestPlaces
import Ndse.Library.BitFields

/-!
# Loads after stores

A store changes the bytes of one aligned cell of one memory block.  What a later
load returns depends on the places its address stands for, not on the address.
-/

namespace Ndse

namespace GuestMemory

/-! ### Loads of bytes and halfwords -/

/-- `HLE::load16u`; `ioLoad` is what a region with an access handler returns. -/
def load16u (memory : GuestMemory) (cpu : Cpu) (ioLoad : BitVec 32 → BitVec 32)
    (addr : BitVec 32) : BitVec 32 :=
  let b := memory.addr2page cpu addr
  if (memory.blocks b).has PageFlag.accessHandler then ioLoad addr
  else peekWord (memory.blocks b).mem (pageOffset addr 1) 2

/-- `HLE::load16s`. -/
def load16s (memory : GuestMemory) (cpu : Cpu) (ioLoad : BitVec 32 → BitVec 32)
    (addr : BitVec 32) : BitVec 32 :=
  let b := memory.addr2page cpu addr
  if (memory.blocks b).has PageFlag.accessHandler then ioLoad addr
  else ((peekWord (memory.blocks b).mem (pageOffset addr 1) 2).setWidth 16).signExtend 32

/-- `HLE::load8u`. -/
def load8u (memory : GuestMemory) (cpu : Cpu) (ioLoad : BitVec 32 → BitVec 32)
    (addr : BitVec 32) : BitVec 32 :=
  let b := memory.addr2page cpu addr
  if (memory.blocks b).has PageFlag.accessHandler then ioLoad addr
  else ((memory.blocks b).mem (pageOffset addr 0)).setWidth 32

/-- The page of an address has no flag that keeps from loading or storing. -/
def Ordinary (memory : GuestMemory) (cpu : Cpu) (addr : BitVec 32) : Prop :=
  ¬(memory.blocks (memory.addr2page cpu addr)).has
    (PageFlag.invalid ||| PageFlag.readProt ||| PageFlag.writeProt ||| PageFlag.writeProt8 |||
      PageFlag.accessHandler)

instance (memory : GuestMemory) (cpu : Cpu) (addr : BitVec 32) :
    Decidable (memory.Ordinary cpu addr) :=
  inferInstanceAs (Decidable ¬_)

/-! ### The widths of an access -/

/-- `store8`, `store16` and `store32`. -/
inductive AccessWidth
  | byte | half | word
deriving DecidableEq, Repr

namespace AccessWidth

def bytes : AccessWidth → Nat
  | byte => 1
  | half => 2
  | word => 4

/-- The bits an aligned address does not have. -/
def align : AccessWidth → BitVec 32
  | byte => 0
  | half => 1
  | word => 3

end AccessWidth

def storeWidth (memory : GuestMemory) (cpu : Cpu) (addr value : BitVec 32) :
    AccessWidth → GuestMemory
  | .byte => memory.store8 cpu addr value
  | .half => memory.store16 cpu addr value
  | .word => memory.store32 cpu addr value

/-- Two places are in one aligned cell of a block. -/
def SameCell (width : AccessWidth) (one other : MemoryBlock PhysRegion × BitVec 9) : Prop :=
  one.1 = other.1 ∧ one.2.toNat / width.bytes = other.2.toNat / width.bytes

instance (width : AccessWidth) (one other : MemoryBlock PhysRegion × BitVec 9) :
    Decidable (SameCell width one other) :=
  inferInstanceAs (Decidable (_ ∧ _))

/-- The byte at an address after a store: one of the value's, if the address
stands for a place of the cell, and otherwise the one before. -/
def byteOver (memory : GuestMemory) (cpu : Cpu) (width : AccessWidth) (addr value : BitVec 32)
    (reader : Cpu) (other : BitVec 32) : BitVec 8 :=
  if SameCell width (memory.place reader other) (memory.place cpu addr) then
    value.extractLsb' (8 * ((memory.place reader other).2.toNat % width.bytes)) 8
  else memory.byteAt reader other

/-- All loads after a store, and the flags it leaves. -/
structure ReadsBack (memory after : GuestMemory) (cpu : Cpu) (width : AccessWidth)
    (addr value : BitVec 32) (ioLoad : BitVec 32 → BitVec 32) : Prop where
  load8u : ∀ reader other, memory.Ordinary reader other →
    after.load8u reader ioLoad other =
      (memory.byteOver cpu width addr value reader other).setWidth 32
  load16u : ∀ reader other, memory.Ordinary reader other →
    let byte (k : BitVec 32) :=
      memory.byteOver cpu width addr value reader ((other &&& ~~~1) + k)
    after.load16u reader ioLoad other = (byte 1 ++ byte 0).setWidth 32
  load16s : ∀ reader other, memory.Ordinary reader other →
    let byte (k : BitVec 32) :=
      memory.byteOver cpu width addr value reader ((other &&& ~~~1) + k)
    after.load16s reader ioLoad other = (byte 1 ++ byte 0).signExtend 32
  load32 : ∀ reader other, memory.Ordinary reader other →
    let byte (k : BitVec 32) :=
      memory.byteOver cpu width addr value reader ((other &&& ~~~3) + k)
    after.load32 reader ioLoad other =
      (byte 3 ++ byte 2 ++ byte 1 ++ byte 0).rotateRight (8 * (other.toNat % 4))
  dirty : after.PageDirty (memory.addr2page cpu addr)
  flags : ∀ block, block ≠ memory.addr2page cpu addr →
    (after.blocks block).flags = (memory.blocks block).flags

/-! ### Ordinary pages -/

theorem has_of_subset {block : BlockState} {mask larger : BitVec 32}
    (subset : larger &&& mask = mask) (has : block.has mask) : block.has larger := by
  intro none
  apply has
  rw [← subset, ← BitVec.and_assoc, none]
  exact BitVec.zero_and

theorem Ordinary.not_has {memory : GuestMemory} {cpu : Cpu} {addr : BitVec 32}
    (ordinary : memory.Ordinary cpu addr) {mask : BitVec 32}
    (subset : (PageFlag.invalid ||| PageFlag.readProt ||| PageFlag.writeProt |||
      PageFlag.writeProt8 ||| PageFlag.accessHandler) &&& mask = mask) :
    ¬(memory.blocks (memory.addr2page cpu addr)).has mask :=
  fun has => ordinary (has_of_subset subset has)

theorem storeWidth_eq {memory : GuestMemory} {cpu : Cpu} {addr : BitVec 32}
    (ordinary : memory.Ordinary cpu addr) (value : BitVec 32) (width : AccessWidth) :
    memory.storeWidth cpu addr value width =
      memory.modify (memory.addr2page cpu addr) fun block =>
        (block.poke (pageOffset addr width.align) (wordBytes width.bytes value)).dirty := by
  cases width with
  | byte =>
      rw [storeWidth, store8, store, if_neg (ordinary.not_has (by decide)),
        if_neg (ordinary.not_has (by decide))]
      rfl
  | half =>
      rw [storeWidth, store16, store, if_neg (ordinary.not_has (by decide)),
        if_neg (ordinary.not_has (by decide))]
      rfl
  | word =>
      rw [storeWidth, store32, store, if_neg (ordinary.not_has (by decide)),
        if_neg (ordinary.not_has (by decide))]
      rfl

/-! ### Cells -/

theorem toNat_align_width (addr : BitVec 32) (width : AccessWidth) :
    (addr &&& ~~~width.align).toNat = addr.toNat / width.bytes * width.bytes := by
  cases width with
  | byte => exact ByteMemory.toNat_and_not_mask addr 0
  | half => exact ByteMemory.toNat_and_not_mask addr 1
  | word => exact ByteMemory.toNat_and_not_mask addr 2

theorem toNat_pageOffset_align (addr : BitVec 32) (width : AccessWidth) :
    (pageOffset addr width.align).toNat =
      (pageOffset addr 0).toNat / width.bytes * width.bytes := by
  rw [toNat_pageOffset, pageOffset_zero, toNat_align_width]
  cases width <;> simp only [AccessWidth.bytes] <;> omega

theorem length_wordBytes (size : Nat) (value : BitVec 32) :
    (wordBytes size value).length = size := by
  rw [wordBytes, List.length_map, List.length_range]

/-- The bytes of a cell are replaced and no others. -/
theorem pokeBytes_cell (mem : PageBytes) (value : BitVec 32) (addr : BitVec 32)
    (width : AccessWidth) (offset : BitVec 9) :
    BlockState.pokeBytes mem (pageOffset addr width.align) (wordBytes width.bytes value) offset =
      if offset.toNat / width.bytes = (pageOffset addr 0).toNat / width.bytes then
        value.extractLsb' (8 * (offset.toNat % width.bytes)) 8
      else mem offset := by
  have length := length_wordBytes width.bytes value
  have start := toNat_pageOffset_align addr width
  have bound := (pageOffset addr 0).isLt
  have small : 0 < width.bytes ∧ width.bytes ≤ 4 := by cases width <;> decide
  split
  · next same =>
    have inside := Nat.mod_lt offset.toNat small.1
    have split : offset = pageOffset addr width.align +
        BitVec.ofNat 9 (offset.toNat % width.bytes) := by
      apply BitVec.eq_of_toNat_eq
      rw [BitVec.toNat_add, BitVec.toNat_ofNat, start, ← same]
      have whole := Nat.div_add_mod offset.toNat width.bytes
      rw [Nat.mul_comm] at whole
      have low := offset.isLt
      omega
    have written := BlockState.pokeBytes_inside mem (pageOffset addr width.align)
      (wordBytes width.bytes value) (by omega) (inside.trans_eq length.symm)
    rw [← split] at written
    rw [written]
    simp [wordBytes]
  · next other =>
    apply BlockState.pokeBytes_of_outside
    intro k inside equal
    rw [length] at inside
    apply other
    rw [← equal, BitVec.toNat_add, BitVec.toNat_ofNat, start]
    cases width <;> simp only [AccessWidth.bytes] at inside ⊢ <;> omega

/-! ### Bytes after a store -/

theorem byteAt_storeWidth {memory : GuestMemory} {cpu : Cpu} {addr : BitVec 32}
    (ordinary : memory.Ordinary cpu addr) (value : BitVec 32) (width : AccessWidth)
    (reader : Cpu) (other : BitVec 32) :
    (memory.storeWidth cpu addr value width).byteAt reader other =
      memory.byteOver cpu width addr value reader other := by
  rw [storeWidth_eq ordinary, byteOver, byteAt, byteAt]
  change (BlockState.mem ((memory.modify (memory.addr2page cpu addr) _).blocks
    (memory.place reader other).1)) (memory.place reader other).2 = _
  rw [modify_blocks]
  by_cases block : (memory.place reader other).1 = memory.addr2page cpu addr
  · rw [if_pos block, block]
    refine (pokeBytes_cell _ value addr width _).trans ?_
    have page : memory.addr2page reader other = memory.addr2page cpu addr := block
    simp only [SameCell, place, page, true_and]
  · rw [if_neg block, if_neg (fun same => block same.1)]

/-! ### Loads of bytes -/

/-- Two bytes of a little endian word. -/
theorem append_byte {w : Nat} (high : BitVec w) (low : BitVec 8) :
    (high.setWidth 32 <<< 8) ||| low.setWidth 32 = (high ++ low).setWidth 32 := by
  apply BitVec.eq_of_getLsbD_eq
  intro bit inside
  rw [BitVec.getLsbD_or, BitVec.getLsbD_shiftLeft, BitVec.getLsbD_setWidth,
    BitVec.getLsbD_setWidth, BitVec.getLsbD_setWidth, BitVec.getLsbD_append]
  by_cases below : bit < 8
  · simp [inside, below]
  · simp [inside, below, BitVec.getLsbD_of_ge low bit (by omega), show bit - 8 < 32 by omega]

theorem peekWord_two (mem : PageBytes) (offset : BitVec 9) :
    peekWord mem offset 2 = (mem (offset + 1) ++ mem offset).setWidth 32 := by
  rw [← append_byte]
  simp [peekWord, List.range_succ]

theorem peekWord_four (mem : PageBytes) (offset : BitVec 9) :
    peekWord mem offset 4 =
      mem (offset + 3) ++ mem (offset + 2) ++ mem (offset + 1) ++ mem offset := by
  have whole : peekWord mem offset 4 = ((((mem (offset + 3)).setWidth 32 <<< 8 |||
      (mem (offset + 2)).setWidth 32) <<< 8 ||| (mem (offset + 1)).setWidth 32) <<< 8) |||
        (mem offset).setWidth 32 := by
    simp [peekWord, List.range_succ]
  rw [whole, append_byte, append_byte, append_byte, BitVec.setWidth_eq]

/-- An aligned address and the bytes of its cell. -/
theorem byteAt_align (memory : GuestMemory) (reader : Cpu) (other : BitVec 32)
    (width : AccessWidth) (k : Nat) (inside : k < width.bytes) :
    memory.byteAt reader ((other &&& ~~~width.align) + BitVec.ofNat 32 k) =
      (memory.blocks (memory.addr2page reader other)).mem
        (pageOffset other width.align + BitVec.ofNat 9 k) := by
  have aligned := toNat_align_width other width
  have within : (other &&& ~~~width.align).toNat % 512 + k < 512 := by
    rw [aligned]
    cases width <;> simp only [AccessWidth.bytes] at inside ⊢ <;> omega
  have page : memory.addr2page reader (other &&& ~~~width.align) =
      memory.addr2page reader other := by
    apply addr2page_congr
    rw [aligned]
    cases width <;> simp only [AccessWidth.bytes] <;> omega
  have offset : pageOffset (other &&& ~~~width.align) 0 = pageOffset other width.align := by
    apply BitVec.eq_of_toNat_eq
    rw [pageOffset_zero, toNat_pageOffset]
  rw [byteAt, place, addr2page_within memory reader k within, pageOffset_within k within, page,
    offset]

/-- The first byte of a cell. -/
theorem byteAt_align_zero (memory : GuestMemory) (reader : Cpu) (other : BitVec 32)
    (width : AccessWidth) :
    memory.byteAt reader ((other &&& ~~~width.align) + 0) =
      (memory.blocks (memory.addr2page reader other)).mem (pageOffset other width.align) := by
  have first := memory.byteAt_align reader other width 0 (by cases width <;> decide)
  exact first.trans (congrArg _ (BitVec.add_zero _))

theorem halfword_eq (memory : GuestMemory) (reader : Cpu) (other : BitVec 32) :
    peekWord (memory.blocks (memory.addr2page reader other)).mem (pageOffset other 1) 2 =
      (memory.byteAt reader ((other &&& ~~~1) + 1) ++
        memory.byteAt reader ((other &&& ~~~1) + 0)).setWidth 32 := by
  have one := memory.byteAt_align reader other .half 1 (by decide)
  have zero := memory.byteAt_align_zero reader other .half
  rw [peekWord_two]
  exact congrArg (BitVec.setWidth 32) (congrArg₂ _ one.symm zero.symm)

section Loads

variable {memory : GuestMemory} {reader : Cpu} {other : BitVec 32}
variable (ordinary : memory.Ordinary reader other) (ioLoad : BitVec 32 → BitVec 32)

include ordinary

theorem load8u_eq : memory.load8u reader ioLoad other =
    (memory.byteAt reader other).setWidth 32 := by
  rw [load8u, if_neg (ordinary.not_has (by decide))]
  rfl

theorem load16u_eq : memory.load16u reader ioLoad other =
    (memory.byteAt reader ((other &&& ~~~1) + 1) ++
      memory.byteAt reader ((other &&& ~~~1) + 0)).setWidth 32 := by
  rw [load16u, if_neg (ordinary.not_has (by decide)), halfword_eq]

theorem load16s_eq : memory.load16s reader ioLoad other =
    (memory.byteAt reader ((other &&& ~~~1) + 1) ++
      memory.byteAt reader ((other &&& ~~~1) + 0)).signExtend 32 := by
  rw [load16s, if_neg (ordinary.not_has (by decide)), halfword_eq,
    BitVec.setWidth_setWidth_of_le _ (by decide), BitVec.setWidth_eq]

theorem load32_eq : memory.load32 reader ioLoad other =
    (memory.byteAt reader ((other &&& ~~~3) + 3) ++ memory.byteAt reader ((other &&& ~~~3) + 2) ++
      memory.byteAt reader ((other &&& ~~~3) + 1) ++
        memory.byteAt reader ((other &&& ~~~3) + 0)).rotateRight (8 * (other.toNat % 4)) := by
  have three := memory.byteAt_align reader other .word 3 (by decide)
  have two := memory.byteAt_align reader other .word 2 (by decide)
  have one := memory.byteAt_align reader other .word 1 (by decide)
  have zero := memory.byteAt_align_zero reader other .word
  have amount : (other &&& 3).toNat * 8 = 8 * (other.toNat % 4) := by
    rw [Nat.mul_comm]
    exact congrArg (8 * ·) (ByteMemory.toNat_and_mask other 2 (by decide))
  rw [load32, if_neg (ordinary.not_has (by decide)), peekWord_four, amount]
  exact congrArg (BitVec.rotateRight · _)
    (congrArg₂ _ (congrArg₂ _ (congrArg₂ _ three.symm two.symm) one.symm) zero.symm)

end Loads

/-! ### Loads after stores -/

theorem sameProtection_storeWidth {memory : GuestMemory} {cpu : Cpu} {addr : BitVec 32}
    (value : BitVec 32) (width : AccessWidth) (ordinary : memory.Ordinary cpu addr) :
    SameProtection memory (memory.storeWidth cpu addr value width) := by
  rw [storeWidth_eq ordinary, modify_poke_dirty]
  exact (sameProtection_poke _ _ _ _).trans (sameButDirty_dirty _ _).toSameProtection

theorem SameProtection.ordinary {memory after : GuestMemory} (same : SameProtection memory after)
    {reader : Cpu} {other : BitVec 32} (read : memory.Ordinary reader other) :
    after.Ordinary reader other := by
  rw [Ordinary, addr2page, same.map, same.has_iff (by decide)]
  exact read

theorem ordinary_storeWidth {memory : GuestMemory} {cpu : Cpu} {addr : BitVec 32}
    (value : BitVec 32) (width : AccessWidth) {reader : Cpu} {other : BitVec 32}
    (ordinary : memory.Ordinary cpu addr) (read : memory.Ordinary reader other) :
    (memory.storeWidth cpu addr value width).Ordinary reader other :=
  (sameProtection_storeWidth value width ordinary).ordinary read

/-- Every load after a store returns the bytes of its places, and only the
flags of the stored block change. -/
theorem readsBack_storeWidth (memory : GuestMemory) (cpu : Cpu) (width : AccessWidth)
    (addr value : BitVec 32) (ioLoad : BitVec 32 → BitVec 32)
    (ordinary : memory.Ordinary cpu addr) :
    memory.ReadsBack (memory.storeWidth cpu addr value width) cpu width addr value ioLoad where
  load8u := by
    intro reader other read
    rw [load8u_eq (ordinary_storeWidth value width ordinary read), byteAt_storeWidth ordinary]
  load16u := by
    intro reader other read
    rw [load16u_eq (ordinary_storeWidth value width ordinary read)]
    simp only [byteAt_storeWidth ordinary]
  load16s := by
    intro reader other read
    rw [load16s_eq (ordinary_storeWidth value width ordinary read)]
    simp only [byteAt_storeWidth ordinary]
  load32 := by
    intro reader other read
    rw [load32_eq (ordinary_storeWidth value width ordinary read)]
    simp only [byteAt_storeWidth ordinary]
  dirty := by
    rw [storeWidth_eq ordinary, modify_poke_dirty]
    exact pageDirty_dirty _ _
  flags := by
    intro block other
    rw [storeWidth_eq ordinary, modify_blocks, if_neg other]

/-- Main memory of one page that is seen at every address. -/
def mirroredPage : GuestMemory where
  map := fun _ _ => ⟨.ram, 0⟩
  blocks := fun _ =>
    { flags := 0
      jit := fun _ _ => none
      recompiles := 0
      mem := fun _ => 0 }

/-- A halfword stored at `203h` on the mirrored page. -/
theorem readsBack_mirrored :
    mirroredPage.ReadsBack (mirroredPage.storeWidth .arm9 0x203 0x1234 .half) .arm9 .half 0x203
      0x1234 fun _ => 0 :=
  readsBack_storeWidth mirroredPage .arm9 .half 0x203 0x1234 (fun _ => 0) (by decide)

end GuestMemory

end Ndse
