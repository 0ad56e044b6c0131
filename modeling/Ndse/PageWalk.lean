import Mathlib.Data.Set.BooleanAlgebra
import Mathlib.Order.CompletePartialOrder
import Ndse.GuestPlaces

/-!
# The pieces of a range of memory

`process_memory` cuts a range of guest addresses at the page boundaries and
calls its functor on the pieces in order.  What the functor does to memory or to
the page tables decides which block a later piece is found in, but not where the
range is cut.
-/

namespace Ndse

/-- Some guest addresses in a row. -/
structure Chunk where
  addr : BitVec 32
  size : Nat
deriving DecidableEq, Repr

namespace Chunk

open GuestMemory

/-- The addresses of a chunk. -/
def range (chunk : Chunk) : Set (BitVec 32) :=
  {place | ∃ k < chunk.size, chunk.addr + BitVec.ofNat 32 k = place}

/-- The first chunk starts at an address, and every other one where the one
before it ends. -/
def Consecutive : BitVec 32 → List Chunk → Prop
  | _, [] => True
  | addr, chunk :: chunks =>
      chunk.addr = addr ∧ Consecutive (addr + BitVec.ofNat 32 chunk.size) chunks

/-- The chunk lies in one page, where its bytes follow each other. -/
def InPage (chunk : Chunk) : Prop :=
  ∀ k < chunk.size, (chunk.addr + BitVec.ofNat 32 k) >>> 9 = chunk.addr >>> 9 ∧
    (pageOffset (chunk.addr + BitVec.ofNat 32 k) 0).toNat = (pageOffset chunk.addr 0).toNat + k

/-- The chunks cover `len` addresses from `addr` on, page by page. -/
structure Partition (addr : BitVec 32) (len : Nat) (chunks : List Chunk) : Prop where
  consecutive : Consecutive addr chunks
  total : (chunks.map size).sum = len
  disjoint : chunks.Pairwise fun first second => Disjoint first.range second.range
  inPage : ∀ chunk ∈ chunks, chunk.InPage
  aligned : ∀ chunk ∈ chunks.tail, pageOffset chunk.addr 0 = 0
  whole : ∀ chunk ∈ chunks.tail.dropLast, chunk.size = 512

/-- The addresses of chunks in a row are those of one chunk. -/
theorem Consecutive.range_subset {addr : BitVec 32} {chunks : List Chunk}
    (consecutive : Consecutive addr chunks) {chunk : Chunk} (member : chunk ∈ chunks) :
    chunk.range ⊆ range ⟨addr, (chunks.map size).sum⟩ := by
  induction chunks generalizing addr with
  | nil => exact absurd member List.not_mem_nil
  | cons first chunks ih =>
      rw [List.map_cons, List.sum_cons]
      obtain ⟨start, follow⟩ := consecutive
      obtain rfl | later := List.mem_cons.mp member
      · rintro place ⟨k, inside, rfl⟩
        exact ⟨k, Nat.lt_add_right _ inside, by rw [start]⟩
      · intro place covered
        obtain ⟨k, inside, rfl⟩ := ih follow later covered
        refine ⟨first.size + k, Nat.add_lt_add_left inside _, ?_⟩
        change addr + BitVec.ofNat 32 (first.size + k) =
          addr + BitVec.ofNat 32 first.size + BitVec.ofNat 32 k
        rw [BitVec.ofNat_add, BitVec.add_assoc]

/-- A chunk and the addresses behind it have nothing in common, as long as they
do not go round the address space. -/
theorem range_disjoint (chunk : Chunk) (more : Nat) (fits : chunk.size + more ≤ 2 ^ 32) :
    Disjoint chunk.range (range ⟨chunk.addr + BitVec.ofNat 32 chunk.size, more⟩) := by
  rw [Set.disjoint_left]
  rintro place ⟨k, inside, rfl⟩ ⟨j, behind, same⟩
  change chunk.addr + BitVec.ofNat 32 chunk.size + BitVec.ofNat 32 j =
    chunk.addr + BitVec.ofNat 32 k at same
  change j < more at behind
  rw [BitVec.add_assoc, ← BitVec.ofNat_add] at same
  have offsets := congrArg BitVec.toNat (add_left_cancel same)
  rw [BitVec.toNat_ofNat, BitVec.toNat_ofNat, Nat.mod_eq_of_lt (by omega),
    Nat.mod_eq_of_lt (by omega)] at offsets
  omega

theorem Consecutive.disjoint {addr : BitVec 32} {chunks : List Chunk}
    (consecutive : Consecutive addr chunks) (fits : (chunks.map size).sum ≤ 2 ^ 32) :
    chunks.Pairwise fun first second => Disjoint first.range second.range := by
  induction chunks generalizing addr with
  | nil => exact List.Pairwise.nil
  | cons first chunks ih =>
      rw [List.map_cons, List.sum_cons] at fits
      obtain ⟨rfl, follow⟩ := consecutive
      refine List.pairwise_cons.mpr ⟨fun second member => ?_, ih follow (by omega)⟩
      exact (first.range_disjoint _ fits).mono_right (follow.range_subset member)

/-- A chunk that ends with its page or before. -/
theorem inPage_of_le {chunk : Chunk} (within : chunk.addr.toNat % 512 + chunk.size ≤ 512) :
    chunk.InPage := by
  intro k inside
  have place : chunk.addr.toNat % 512 + k < 512 := by omega
  constructor
  · apply BitVec.eq_of_toNat_eq
    rw [BitVec.toNat_ushiftRight, BitVec.toNat_ushiftRight, toNat_within k place,
      Nat.shiftRight_eq_div_pow, Nat.shiftRight_eq_div_pow]
    omega
  · rw [pageOffset_zero, pageOffset_zero, toNat_within k place]
    omega

end Chunk

namespace GuestMemory

open Chunk

variable {Context : Type}

/-- What a functor makes of memory and its own context. -/
abbrev Process (Context : Type) : Type :=
  MemoryBlock PhysRegion → BitVec 9 → Nat → GuestMemory × Context → GuestMemory × Context

/-- The followup pages of `memory_map<T>::process_memory`. -/
def walkPages (process : Process Context) (cpu : Cpu) (addr : BitVec 32) (len : Nat)
    (state : GuestMemory × Context) : GuestMemory × Context :=
  if len = 0 then state
  else
    let todo := min len 512
    walkPages process cpu (addr + BitVec.ofNat 32 todo) (len - todo)
      (process (state.1.addr2page cpu addr) 0 todo state)
termination_by len

/-- `memory_map<T>::process_memory`. -/
def walkMemory (process : Process Context) (cpu : Cpu) (addr : BitVec 32) (len : Nat)
    (state : GuestMemory × Context) : GuestMemory × Context :=
  let subaddr := pageOffset addr 0
  let todo := min len (512 - subaddr.toNat)
  walkPages process cpu (addr + BitVec.ofNat 32 todo) (len - todo)
    (process (state.1.addr2page cpu addr) subaddr todo state)

/-- A call of the functor, with the block that the page tables give now. -/
def call (process : Process Context) (cpu : Cpu) (state : GuestMemory × Context) (chunk : Chunk) :
    GuestMemory × Context :=
  process (state.1.addr2page cpu chunk.addr) (pageOffset chunk.addr 0) chunk.size state

/-- The chunks of the followup pages. -/
def pageChunks (addr : BitVec 32) (len : Nat) : List Chunk :=
  if len = 0 then []
  else ⟨addr, min len 512⟩ ::
    pageChunks (addr + BitVec.ofNat 32 (min len 512)) (len - min len 512)
termination_by len

/-- The chunks of a range. -/
def memoryChunks (addr : BitVec 32) (len : Nat) : List Chunk :=
  let first := min len (512 - (pageOffset addr 0).toNat)
  ⟨addr, first⟩ :: pageChunks (addr + BitVec.ofNat 32 first) (len - first)

/-- Nothing is left, or the next page begins. -/
def AtStart (addr : BitVec 32) (len : Nat) : Prop :=
  len = 0 ∨ addr.toNat % 512 = 0

/-- A chunk reaches to the end of its page if anything is left behind it. -/
theorem atStart_behind {addr : BitVec 32} {len size : Nat}
    (reaches : size < len → (addr.toNat + size) % 512 = 0) :
    AtStart (addr + BitVec.ofNat 32 size) (len - size) := by
  rw [AtStart, toNat_forward]
  omega

theorem AtStart.next {addr : BitVec 32} {len : Nat} (start : AtStart addr len)
    (something : len ≠ 0) :
    AtStart (addr + BitVec.ofNat 32 (min len 512)) (len - min len 512) := by
  have begins := start.resolve_left something
  exact atStart_behind (by omega)

theorem pageOffset_start {addr : BitVec 32} (begins : addr.toNat % 512 = 0) :
    pageOffset addr 0 = 0 := by
  apply BitVec.eq_of_toNat_eq
  rw [pageOffset_zero, begins]
  rfl

theorem pageChunks_consecutive (addr : BitVec 32) (len : Nat) :
    Consecutive addr (pageChunks addr len) := by
  induction addr, len using pageChunks.induct with
  | case1 addr =>
      rw [pageChunks, if_pos rfl]
      trivial
  | case2 addr len something ih =>
      rw [pageChunks, if_neg something]
      exact ⟨rfl, ih⟩

theorem pageChunks_total (addr : BitVec 32) (len : Nat) :
    ((pageChunks addr len).map size).sum = len := by
  induction addr, len using pageChunks.induct with
  | case1 addr =>
      rw [pageChunks, if_pos rfl]
      rfl
  | case2 addr len something ih =>
      rw [pageChunks, if_neg something, List.map_cons, List.sum_cons, ih]
      exact Nat.add_sub_cancel' (Nat.min_le_left len 512)

theorem pageChunks_start {addr : BitVec 32} {len : Nat} (start : AtStart addr len) {chunk : Chunk}
    (member : chunk ∈ pageChunks addr len) :
    chunk.addr.toNat % 512 = 0 ∧ chunk.size ≤ 512 := by
  induction addr, len using pageChunks.induct with
  | case1 addr =>
      rw [pageChunks, if_pos rfl] at member
      exact absurd member List.not_mem_nil
  | case2 addr len something ih =>
      rw [pageChunks, if_neg something] at member
      obtain rfl | later := List.mem_cons.mp member
      · exact ⟨start.resolve_left something, Nat.min_le_right _ _⟩
      · exact ih (start.next something) later

theorem pageChunks_whole (addr : BitVec 32) (len : Nat) {chunk : Chunk}
    (member : chunk ∈ (pageChunks addr len).dropLast) : chunk.size = 512 := by
  induction addr, len using pageChunks.induct with
  | case1 addr =>
      rw [pageChunks, if_pos rfl] at member
      exact absurd member List.not_mem_nil
  | case2 addr len something ih =>
      rw [pageChunks, if_neg something] at member
      by_cases last : len ≤ 512
      · rw [Nat.min_eq_left last, Nat.sub_self, pageChunks, if_pos rfl] at member
        exact absurd member List.not_mem_nil
      · have more : pageChunks (addr + BitVec.ofNat 32 (min len 512)) (len - min len 512) ≠ [] := by
          rw [pageChunks, if_neg (by omega)]
          exact List.cons_ne_nil _ _
        rw [List.dropLast_cons_of_ne_nil more] at member
        obtain rfl | later := List.mem_cons.mp member
        · exact Nat.min_eq_right (by omega)
        · exact ih later

theorem walkPages_eq (process : Process Context) (cpu : Cpu) {addr : BitVec 32} {len : Nat}
    (start : AtStart addr len) (state : GuestMemory × Context) :
    walkPages process cpu addr len state =
      (pageChunks addr len).foldl (call process cpu) state := by
  induction addr, len using pageChunks.induct generalizing state with
  | case1 addr =>
      rw [walkPages, pageChunks, if_pos rfl, if_pos rfl]
      rfl
  | case2 addr len something ih =>
      rw [walkPages, pageChunks, if_neg something, if_neg something, List.foldl_cons, call,
        pageOffset_start (start.resolve_left something)]
      exact ih (start.next something) _

/-! ### The whole range -/

/-- The first chunk ends with its page, or the range ends with it. -/
theorem memoryChunks_start (addr : BitVec 32) (len : Nat) :
    AtStart (addr + BitVec.ofNat 32 (min len (512 - (pageOffset addr 0).toNat)))
      (len - min len (512 - (pageOffset addr 0).toNat)) := by
  have offset := pageOffset_zero addr
  have bound := (pageOffset addr 0).isLt
  exact atStart_behind (by omega)

theorem memoryChunks_total (addr : BitVec 32) (len : Nat) :
    ((memoryChunks addr len).map size).sum = len := by
  rw [memoryChunks, List.map_cons, List.sum_cons, pageChunks_total]
  exact Nat.add_sub_cancel' (Nat.min_le_left len _)

theorem memoryChunks_partition (addr : BitVec 32) {len : Nat} (fits : len ≤ 2 ^ 32) :
    Partition addr len (memoryChunks addr len) := by
  have consecutive : Consecutive addr (memoryChunks addr len) :=
    ⟨rfl, pageChunks_consecutive _ _⟩
  refine {
    consecutive := consecutive
    total := memoryChunks_total addr len
    disjoint := consecutive.disjoint ((memoryChunks_total addr len).trans_le fits)
    inPage := ?_
    aligned := ?_
    whole := fun chunk member => pageChunks_whole _ _ member }
  · intro chunk member
    obtain rfl | later := List.mem_cons.mp member
    · apply inPage_of_le
      have offset := pageOffset_zero addr
      have bound := (pageOffset addr 0).isLt
      change addr.toNat % 512 + min len (512 - (pageOffset addr 0).toNat) ≤ 512
      omega
    · have within := pageChunks_start (memoryChunks_start addr len) later
      exact inPage_of_le (by omega)
  · intro chunk member
    exact pageOffset_start (pageChunks_start (memoryChunks_start addr len) member).1

theorem walkMemory_eq (process : Process Context) (cpu : Cpu) (addr : BitVec 32) (len : Nat)
    (state : GuestMemory × Context) :
    walkMemory process cpu addr len state =
      (memoryChunks addr len).foldl (call process cpu) state := by
  rw [walkMemory, walkPages_eq process cpu (memoryChunks_start addr len)]
  rfl

/-- The functor is called on a partition of the range, whatever it does. -/
theorem walkMemory_calls (cpu : Cpu) (addr : BitVec 32) (len : Nat) (small : len < 2 ^ 31) :
    ∃ chunks, Partition addr len chunks ∧
      ∀ {Context : Type} (process : Process Context) (state : GuestMemory × Context),
        walkMemory process cpu addr len state = chunks.foldl (call process cpu) state :=
  ⟨memoryChunks addr len, memoryChunks_partition addr (by omega),
    fun process state => walkMemory_eq process cpu addr len state⟩

theorem walkMemory_calls_wrapping :
    ∃ chunks, Partition 0xFFFFFFF0 1000 chunks ∧
      ∀ {Context : Type} (process : Process Context) (state : GuestMemory × Context),
        walkMemory process .arm9 0xFFFFFFF0 1000 state = chunks.foldl (call process .arm9) state :=
  walkMemory_calls .arm9 0xFFFFFFF0 1000 (by decide)

end GuestMemory

end Ndse
