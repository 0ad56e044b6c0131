import Ndse.MemoryAccess

/-!
# Runs of stores

Whatever addresses two processors use for a place, what they load from ordinary
pages are the bytes of one memory.  Stores write these bytes in the order in which
they are made, and only the order of stores to a common place matters.
-/

namespace Ndse

namespace GuestMemory

/-- The bytes that each processor finds at its addresses. -/
abbrev View := Cpu → BitVec 32 → BitVec 8

/-- A store by one of the processors. -/
structure Store where
  cpu : Cpu
  width : AccessWidth
  addr : BitVec 32
  value : BitVec 32

/-- The places that a store writes. -/
def Store.Writes (memory : GuestMemory) (store : Store)
    (place : MemoryBlock PhysRegion × BitVec 9) : Prop :=
  SameCell store.width place (memory.place store.cpu store.addr)

instance (memory : GuestMemory) (store : Store) (place : MemoryBlock PhysRegion × BitVec 9) :
    Decidable (store.Writes memory place) :=
  inferInstanceAs (Decidable (SameCell _ _ _))

/-- The bytes after a store, where the page tables name the places. -/
def Store.over (memory : GuestMemory) (seen : View) (store : Store) : View := fun reader other =>
  if store.Writes memory (memory.place reader other) then
    store.value.extractLsb' (8 * ((memory.place reader other).2.toNat % store.width.bytes)) 8
  else seen reader other

/-- The bytes after some stores. -/
def seenAfter (memory : GuestMemory) (stores : List Store) : View :=
  stores.foldl (Store.over memory) memory.byteAt

def Store.apply (memory : GuestMemory) (store : Store) : GuestMemory :=
  memory.storeWidth store.cpu store.addr store.value store.width

/-- Some stores, one after the other. -/
def storeRun (memory : GuestMemory) (stores : List Store) : GuestMemory :=
  stores.foldl Store.apply memory

/-- Loads from an address return the bytes of a view. -/
structure LoadsFrom (memory : GuestMemory) (seen : View) (ioLoad : BitVec 32 → BitVec 32)
    (reader : Cpu) (other : BitVec 32) : Prop where
  load8u : memory.load8u reader ioLoad other = (seen reader other).setWidth 32
  load16u : memory.load16u reader ioLoad other =
    (seen reader ((other &&& ~~~1) + 1) ++ seen reader ((other &&& ~~~1) + 0)).setWidth 32
  load16s : memory.load16s reader ioLoad other =
    (seen reader ((other &&& ~~~1) + 1) ++ seen reader ((other &&& ~~~1) + 0)).signExtend 32
  load32 : memory.load32 reader ioLoad other =
    (seen reader ((other &&& ~~~3) + 3) ++ seen reader ((other &&& ~~~3) + 2) ++
      seen reader ((other &&& ~~~3) + 1) ++
        seen reader ((other &&& ~~~3) + 0)).rotateRight (8 * (other.toNat % 4))

variable {memory : GuestMemory} {stores : List Store}

/-! ### One store -/

theorem byteAt_apply {store : Store} (ordinary : memory.Ordinary store.cpu store.addr) :
    (store.apply memory).byteAt = store.over memory memory.byteAt := by
  funext reader other
  exact byteAt_storeWidth ordinary store.value store.width reader other

/-- A store does not change which places addresses stand for. -/
theorem over_apply {store : Store} (ordinary : memory.Ordinary store.cpu store.addr) :
    Store.over (store.apply memory) = Store.over memory := by
  have places : ∀ reader other,
      (store.apply memory).place reader other = memory.place reader other :=
    (sameProtection_storeWidth store.value store.width ordinary).place
  funext seen later reader other
  have writes : later.Writes (store.apply memory) ((store.apply memory).place reader other) ↔
      later.Writes memory (memory.place reader other) := by
    rw [Store.Writes, Store.Writes, places, places]
  exact if_congr writes (by rw [places]) rfl

theorem ordinary_apply {store : Store} (ordinary : memory.Ordinary store.cpu store.addr)
    {reader : Cpu} {other : BitVec 32} (read : memory.Ordinary reader other) :
    (store.apply memory).Ordinary reader other :=
  ordinary_storeWidth store.value store.width ordinary read

/-! ### Any number of stores -/

theorem byteAt_storeRun (ordinary : ∀ store ∈ stores, memory.Ordinary store.cpu store.addr) :
    (memory.storeRun stores).byteAt = memory.seenAfter stores := by
  induction stores generalizing memory with
  | nil => rfl
  | cons store stores ih =>
      rw [List.forall_mem_cons] at ordinary
      obtain ⟨now, later⟩ := ordinary
      have rest : ∀ later ∈ stores, (store.apply memory).Ordinary later.cpu later.addr :=
        fun next member => ordinary_apply now (later next member)
      calc (memory.storeRun (store :: stores)).byteAt
          = ((store.apply memory).storeRun stores).byteAt := rfl
        _ = (store.apply memory).seenAfter stores := ih rest
        _ = memory.seenAfter (store :: stores) := by
            rw [seenAfter, seenAfter, List.foldl_cons, over_apply now, byteAt_apply now]

theorem ordinary_storeRun (ordinary : ∀ store ∈ stores, memory.Ordinary store.cpu store.addr)
    {reader : Cpu} {other : BitVec 32} (read : memory.Ordinary reader other) :
    (memory.storeRun stores).Ordinary reader other := by
  induction stores generalizing memory with
  | nil => exact read
  | cons store stores ih =>
      rw [List.forall_mem_cons] at ordinary
      obtain ⟨now, later⟩ := ordinary
      exact ih (fun next member => ordinary_apply now (later next member))
        (ordinary_apply now read)

theorem loadsFrom_byteAt {reader : Cpu} {other : BitVec 32}
    (ordinary : memory.Ordinary reader other) (ioLoad : BitVec 32 → BitVec 32) :
    memory.LoadsFrom memory.byteAt ioLoad reader other where
  load8u := load8u_eq ordinary ioLoad
  load16u := load16u_eq ordinary ioLoad
  load16s := load16s_eq ordinary ioLoad
  load32 := load32_eq ordinary ioLoad

theorem loadsFrom_seenAfter (ordinary : ∀ store ∈ stores, memory.Ordinary store.cpu store.addr)
    {reader : Cpu} {other : BitVec 32} (read : memory.Ordinary reader other)
    (ioLoad : BitVec 32 → BitVec 32) :
    (memory.storeRun stores).LoadsFrom (memory.seenAfter stores) ioLoad reader other :=
  byteAt_storeRun ordinary ▸ loadsFrom_byteAt (ordinary_storeRun ordinary read) ioLoad

/-- Memory refines a plain store of bytes. -/
theorem loads_storeRun (memory : GuestMemory) (stores : List Store)
    (ioLoad : BitVec 32 → BitVec 32)
    (ordinary : ∀ store ∈ stores, memory.Ordinary store.cpu store.addr) :
    ∀ reader other, memory.Ordinary reader other →
      (memory.storeRun stores).LoadsFrom (memory.seenAfter stores) ioLoad reader other :=
  fun _ _ read => loadsFrom_seenAfter ordinary read ioLoad

/-- Both processors store to one page, whose addresses all stand for it. -/
theorem loads_mirroredRun :
    (mirroredPage.storeRun [⟨.arm9, .word, 0, 0x01020304⟩, ⟨.arm7, .byte, 0x201, 0x7F⟩]).LoadsFrom
      (mirroredPage.seenAfter [⟨.arm9, .word, 0, 0x01020304⟩, ⟨.arm7, .byte, 0x201, 0x7F⟩])
      (fun _ => 0) .arm9 0x400 :=
  loads_storeRun mirroredPage [⟨.arm9, .word, 0, 0x01020304⟩, ⟨.arm7, .byte, 0x201, 0x7F⟩]
    (fun _ => 0) (by simp only [List.forall_mem_cons]; decide) .arm9 0x400 (by decide)

/-! ### The order of stores -/

/-- Two stores write no place in common. -/
def Store.Apart (memory : GuestMemory) (one other : Store) : Prop :=
  ∀ place, ¬(one.Writes memory place ∧ other.Writes memory place)

theorem over_comm {one other : Store} (apart : one.Apart memory other) (seen : View) :
    other.over memory (one.over memory seen) = one.over memory (other.over memory seen) := by
  funext reader addr
  have never := apart (memory.place reader addr)
  by_cases first : one.Writes memory (memory.place reader addr)
  · have second : ¬other.Writes memory (memory.place reader addr) :=
      fun both => never ⟨first, both⟩
    simp only [Store.over, if_pos first, if_neg second]
  · simp only [Store.over, if_neg first]

theorem seenAfter_perm {reordered : List Store} (perm : stores.Perm reordered)
    (apart : ∀ one ∈ stores, ∀ other ∈ stores, one ≠ other → one.Apart memory other) :
    memory.seenAfter stores = memory.seenAfter reordered := by
  refine perm.foldl_eq' (fun one first other second seen => ?_) memory.byteAt
  by_cases same : one = other
  · rw [same]
  · exact over_comm (apart one first other second same) seen

/-- Stores without common places may be made in any order. -/
theorem storeRun_reordered (memory : GuestMemory) (stores reordered : List Store)
    (ioLoad : BitVec 32 → BitVec 32) (perm : stores.Perm reordered)
    (ordinary : ∀ store ∈ stores, memory.Ordinary store.cpu store.addr)
    (apart : ∀ one ∈ stores, ∀ other ∈ stores, one ≠ other → one.Apart memory other) :
    ∀ reader other, memory.Ordinary reader other →
      ∃ seen, (memory.storeRun stores).LoadsFrom seen ioLoad reader other ∧
        (memory.storeRun reordered).LoadsFrom seen ioLoad reader other := by
  intro reader other read
  have again : ∀ store ∈ reordered, memory.Ordinary store.cpu store.addr :=
    fun store member => ordinary store (perm.mem_iff.mpr member)
  refine ⟨memory.seenAfter stores, loadsFrom_seenAfter ordinary read ioLoad, ?_⟩
  rw [seenAfter_perm perm apart]
  exact loadsFrom_seenAfter again read ioLoad

/-- Two words of the mirrored page. -/
theorem storeRun_swapped :
    ∃ seen, (mirroredPage.storeRun
        [⟨.arm9, .word, 0, 1⟩, ⟨.arm7, .word, 4, 2⟩]).LoadsFrom seen (fun _ => 0) .arm9 0x206 ∧
      (mirroredPage.storeRun
        [⟨.arm7, .word, 4, 2⟩, ⟨.arm9, .word, 0, 1⟩]).LoadsFrom seen (fun _ => 0) .arm9 0x206 := by
  refine storeRun_reordered mirroredPage [⟨.arm9, .word, 0, 1⟩, ⟨.arm7, .word, 4, 2⟩]
    [⟨.arm7, .word, 4, 2⟩, ⟨.arm9, .word, 0, 1⟩] (fun _ => 0) (List.Perm.swap _ _ _)
    (by simp only [List.forall_mem_cons]; decide) ?_ .arm9 0x206 (by decide)
  have apart (place : MemoryBlock PhysRegion × BitVec 9) :
      ¬(place.2.toNat / 4 = 0 ∧ place.2.toNat / 4 = 1) := by omega
  intro one first other second distinct
  rw [List.mem_pair] at first second
  obtain rfl | rfl := first <;> obtain rfl | rfl := second
  · exact absurd rfl distinct
  · exact fun place both => apart place ⟨both.1.2, both.2.2⟩
  · exact fun place both => apart place ⟨both.2.2, both.1.2⟩
  · exact absurd rfl distinct

end GuestMemory

end Ndse
