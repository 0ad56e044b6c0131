import Ndse.BlockTransfer

/-!
# Places in guest memory

An address stands for a byte of a memory block.  Several addresses may stand for
the same byte.
-/

namespace Ndse

/-! ### The bytes of a page -/

namespace BlockState

theorem pokeBytes_of_outside (mem : PageBytes) (offset place : BitVec 9)
    (bytes : List (BitVec 8))
    (outside : ∀ k < bytes.length, offset + BitVec.ofNat 9 k ≠ place) :
    pokeBytes mem offset bytes place = mem place := by
  induction bytes generalizing mem offset with
  | nil => rfl
  | cons byte bytes ih =>
      have first : offset ≠ place := by
        have zero := outside 0 (Nat.zero_lt_succ _)
        rwa [BitVec.add_zero] at zero
      rw [pokeBytes, ih, Function.update_of_ne first.symm]
      intro k inside
      have next := outside (k + 1) (Nat.succ_lt_succ inside)
      rwa [Nat.add_comm, BitVec.ofNat_add, ← BitVec.add_assoc] at next

theorem pokeBytes_inside (mem : PageBytes) (offset : BitVec 9) (bytes : List (BitVec 8))
    (short : bytes.length ≤ 512) {k : Nat} (inside : k < bytes.length) :
    pokeBytes mem offset bytes (offset + BitVec.ofNat 9 k) = bytes[k] := by
  induction bytes generalizing mem offset k with
  | nil => exact absurd inside (Nat.not_lt_zero k)
  | cons byte bytes ih =>
      rw [List.length_cons] at short inside
      cases k with
      | zero =>
          rw [pokeBytes, BitVec.add_zero, pokeBytes_of_outside,
            Function.update_self, List.getElem_cons_zero]
          intro k inside same
          have value := congrArg BitVec.toNat (add_eq_left.mp ((add_assoc _ _ _).symm.trans same))
          rw [BitVec.toNat_add, BitVec.toNat_ofNat] at value
          change (1 + k % 512) % 512 = 0 at value
          omega
      | succ k =>
          have moved : offset + BitVec.ofNat 9 (k + 1) = offset + 1 + BitVec.ofNat 9 k := by
            rw [Nat.add_comm, BitVec.ofNat_add, ← BitVec.add_assoc]
            rfl
          rw [pokeBytes, moved, ih _ _ (by omega) (by omega), List.getElem_cons_succ]

end BlockState

namespace GuestMemory

/-! ### Places -/

/-- The page of an address is there. -/
def PageValid (memory : GuestMemory) (cpu : Cpu) (addr : BitVec 32) : Prop :=
  ¬(memory.blocks (memory.addr2page cpu addr)).has PageFlag.invalid

instance (memory : GuestMemory) (cpu : Cpu) (addr : BitVec 32) :
    Decidable (memory.PageValid cpu addr) :=
  inferInstanceAs (Decidable ¬_)

/-- The block and the offset behind an address. -/
def place (memory : GuestMemory) (cpu : Cpu) (addr : BitVec 32) :
    MemoryBlock PhysRegion × BitVec 9 :=
  (memory.addr2page cpu addr, pageOffset addr 0)

/-- The byte at an address. -/
def byteAt (memory : GuestMemory) (cpu : Cpu) (addr : BitVec 32) : BitVec 8 :=
  (memory.blocks (memory.place cpu addr).1).mem (memory.place cpu addr).2

variable {memory after : GuestMemory} {cpu : Cpu} {addr : BitVec 32}

theorem SameProtection.place (same : SameProtection memory after) (cpu : Cpu)
    (addr : BitVec 32) : after.place cpu addr = memory.place cpu addr := by
  rw [GuestMemory.place, GuestMemory.place, addr2page, addr2page, same.map]

theorem SameProtection.pageValid_iff (same : SameProtection memory after) (cpu : Cpu)
    (addr : BitVec 32) : after.PageValid cpu addr ↔ memory.PageValid cpu addr := by
  rw [PageValid, PageValid, addr2page, addr2page, same.map, same.has_iff (by decide)]

/-! ### Within a page -/

/-- Behind an address in its page. -/
theorem toNat_within (k : Nat) (within : addr.toNat % 512 + k < 512) :
    (addr + BitVec.ofNat 32 k).toNat = addr.toNat + k := by
  have bound := addr.isLt
  rw [BitVec.toNat_add, BitVec.toNat_ofNat]
  omega

theorem pageOffset_zero (addr : BitVec 32) : (pageOffset addr 0).toNat = addr.toNat % 512 := by
  rw [toNat_pageOffset, show ~~~(0 : BitVec 32) = BitVec.allOnes 32 from rfl, BitVec.and_allOnes]

theorem addr2page_within (memory : GuestMemory) (cpu : Cpu) (k : Nat)
    (within : addr.toNat % 512 + k < 512) :
    memory.addr2page cpu (addr + BitVec.ofNat 32 k) = memory.addr2page cpu addr := by
  apply addr2page_congr
  rw [toNat_within k within]
  omega

theorem pageValid_within (memory : GuestMemory) (cpu : Cpu) (addr : BitVec 32) (k : Nat)
    (within : addr.toNat % 512 + k < 512) :
    memory.PageValid cpu (addr + BitVec.ofNat 32 k) ↔ memory.PageValid cpu addr := by
  rw [PageValid, PageValid, addr2page_within memory cpu k within]

theorem pageOffset_within (k : Nat) (within : addr.toNat % 512 + k < 512) :
    pageOffset (addr + BitVec.ofNat 32 k) 0 = pageOffset addr 0 + BitVec.ofNat 9 k := by
  apply BitVec.eq_of_toNat_eq
  rw [pageOffset_zero, toNat_within k within, BitVec.toNat_add, pageOffset_zero,
    BitVec.toNat_ofNat]
  omega

theorem toNat_forward (addr : BitVec 32) (size : Nat) :
    (addr + BitVec.ofNat 32 size).toNat % 512 = (addr.toNat + size) % 512 := by
  rw [BitVec.toNat_add, BitVec.toNat_ofNat]
  omega

/-! ### Writing -/

/-- The page is written and then marked. -/
theorem modify_poke_dirty (memory : GuestMemory) (b : MemoryBlock PhysRegion) (offset : BitVec 9)
    (bytes : List (BitVec 8)) :
    (memory.modify b fun block => (block.poke offset bytes).dirty) =
      (memory.modify b (·.poke offset bytes)).modify b BlockState.dirty := by
  rw [modify, modify, modify]
  dsimp only
  rw [Function.update_idem, Function.update_self]

end GuestMemory

end Ndse
