import Ndse.GuestPlaces

/-!
# The output of the decoder in guest memory

`decomp` keeps a pointer into the page it writes to and one to its end, and
moves on to the next page when they meet.  The end is a whole page behind the
first byte, wherever in its page that is.
-/

namespace Ndse

/-- `decomp`.  The pointers are distances from the start of the bytes of `b`;
`strayed` has what was written beyond these bytes. -/
structure Decomp where
  memory : GuestMemory
  b : MemoryBlock PhysRegion
  mem : Nat
  limit : Nat
  dst : BitVec 32
  src : BitVec 32
  cbp : BitVec 32
  lr : BitVec 32
  pc : BitVec 32
  fOpen : BitVec 32
  fClose : BitVec 32
  fGet8 : BitVec 32
  strayed : List (MemoryBlock PhysRegion × Nat × BitVec 8) := []

namespace Decomp

/-- `decomp::init` with the registers of the caller. -/
def init (memory : GuestMemory) (ioLoad : BitVec 32 → BitVec 32) (regs : Fin 16 → BitVec 32) :
    Decomp where
  memory := memory
  b := memory.addr2page .arm9 (regs 1)
  mem := (GuestMemory.pageOffset (regs 1) 0).toNat
  limit := (GuestMemory.pageOffset (regs 1) 0).toNat + 512
  dst := regs 1
  src := regs 0
  cbp := regs 2
  lr := regs 14
  pc := regs 15
  fOpen := memory.load32 .arm9 ioLoad (regs 3)
  fClose := memory.load32 .arm9 ioLoad (regs 3 + 4)
  fGet8 := memory.load32 .arm9 ioLoad (regs 3 + 8)

/-- `decomp::flush`. -/
def flush (state : Decomp) : Decomp :=
  { state with memory := state.memory.modify state.b BlockState.dirty }

/-- `*mem++ = c`. -/
def write (state : Decomp) (c : BitVec 8) : Decomp :=
  if state.mem < 512 then
    { state with
      memory := state.memory.modify state.b (·.poke (BitVec.ofNat 9 state.mem) [c])
      mem := state.mem + 1 }
  else
    { state with
      strayed := state.strayed ++ [(state.b, state.mem, c)]
      mem := state.mem + 1 }

/-- Load the next page. -/
def nextPage (state : Decomp) : Decomp :=
  { state with
    dst := state.dst + 512
    b := state.memory.addr2page .arm9 (state.dst + 512)
    mem := 0
    limit := 512 }

/-- `decomp::put8`. -/
def put8 (state : Decomp) (c : BitVec 8) : Decomp :=
  let state := state.write c
  if state.limit ≤ state.mem then state.flush.nextPage else state

/-- `decomp::finish` and the registers it restores. -/
def finish (state : Decomp) (regs : Fin 16 → BitVec 32) : Decomp × (Fin 16 → BitVec 32) :=
  (state.flush, Function.update (Function.update regs 14 state.lr) 15 state.pc)

/-- The calls of `put8` between `init` and `finish`. -/
def run (memory : GuestMemory) (ioLoad : BitVec 32 → BitVec 32) (regs : Fin 16 → BitVec 32)
    (bytes : List (BitVec 8)) : Decomp :=
  ((bytes.foldl put8 (init memory ioLoad regs)).finish regs).1

section Write

variable (state : Decomp) (c : BitVec 8)

@[simp]
theorem write_mem : (state.write c).mem = state.mem + 1 := by
  rw [write]
  split <;> rfl

@[simp]
theorem write_b : (state.write c).b = state.b := by
  rw [write]
  split <;> rfl

@[simp]
theorem write_limit : (state.write c).limit = state.limit := by
  rw [write]
  split <;> rfl

@[simp]
theorem write_dst : (state.write c).dst = state.dst := by
  rw [write]
  split <;> rfl

@[simp]
theorem write_map : (state.write c).memory.map = state.memory.map := by
  rw [write]
  split <;> rfl

end Write

/-! ### What a run should do -/

/-- The byte with a number goes to its address, nothing is written beside the
pages of these addresses, and the pages are dirty in the end. -/
structure WritesThere (memory : GuestMemory) (dst : BitVec 32) (bytes : List (BitVec 8))
    (final : Decomp) : Prop where
  stored : ∀ k < bytes.length,
    bytes[k]? = some (final.memory.byteAt .arm9 (dst + BitVec.ofNat 32 k))
  inside : final.strayed = []
  kept : ∀ block, (∀ k < bytes.length, memory.addr2page .arm9 (dst + BitVec.ofNat 32 k) ≠ block) →
    (final.memory.blocks block).mem = (memory.blocks block).mem
  dirty : ∀ k < bytes.length,
    final.memory.PageDirty (memory.addr2page .arm9 (dst + BitVec.ofNat 32 k))

/-- The bytes behind an address are different ones. -/
def PlacesDistinct (memory : GuestMemory) (dst : BitVec 32) (len : Nat) : Prop :=
  ∀ j < len, ∀ k < len,
    memory.place .arm9 (dst + BitVec.ofNat 32 j) = memory.place .arm9 (dst + BitVec.ofNat 32 k) →
      j = k

instance (memory : GuestMemory) (dst : BitVec 32) (len : Nat) :
    Decidable (PlacesDistinct memory dst len) :=
  inferInstanceAs (Decidable (∀ j < len, ∀ k < len, _ = _ → j = k))

/-! ### One byte -/

/-- What has been written, with the current page still to be marked. -/
structure Written (memory : GuestMemory) (dst : BitVec 32) (bytes : List (BitVec 8))
    (state : Decomp) : Prop where
  same : GuestMemory.SameProtection memory state.memory
  stored : ∀ k < bytes.length,
    bytes[k]? = some (state.memory.byteAt .arm9 (dst + BitVec.ofNat 32 k))
  inside : state.strayed = []
  kept : ∀ block, (∀ k < bytes.length, memory.addr2page .arm9 (dst + BitVec.ofNat 32 k) ≠ block) →
    (state.memory.blocks block).mem = (memory.blocks block).mem
  dirty : ∀ k < bytes.length, memory.addr2page .arm9 (dst + BitVec.ofNat 32 k) ≠ state.b →
    state.memory.PageDirty (memory.addr2page .arm9 (dst + BitVec.ofNat 32 k))

variable {memory : GuestMemory} {dst : BitVec 32} {bytes : List (BitVec 8)} {state : Decomp}

theorem byteAt_poke (memory : GuestMemory) (b : MemoryBlock PhysRegion) (offset : BitVec 9)
    (c : BitVec 8) (addr : BitVec 32) :
    (memory.modify b (·.poke offset [c])).byteAt .arm9 addr =
      if memory.place .arm9 addr = (b, offset) then c else memory.byteAt .arm9 addr := by
  obtain ⟨page, place, found⟩ : ∃ page place, memory.place .arm9 addr = (page, place) :=
    ⟨_, _, rfl⟩
  have kept : (memory.modify b (·.poke offset [c])).place .arm9 addr = (page, place) := found
  rw [GuestMemory.byteAt, GuestMemory.byteAt, kept, found, GuestMemory.modify_blocks]
  by_cases block : page = b
  · rw [if_pos block, block]
    simp [BlockState.poke, BlockState.pokeBytes, Function.update_apply]
  · rw [if_neg block, if_neg (fun both => block (congrArg Prod.fst both))]

theorem byteAt_congr {memory after : GuestMemory} (same : GuestMemory.SameProtection memory after)
    (mem : ∀ block, (after.blocks block).mem = (memory.blocks block).mem) (addr : BitVec 32) :
    after.byteAt .arm9 addr = memory.byteAt .arm9 addr := by
  rw [GuestMemory.byteAt, GuestMemory.byteAt, same.place, mem]

/-- The pointer is where the next byte belongs. -/
structure Points (memory : GuestMemory) (next : BitVec 32) (state : Decomp) : Prop where
  page : state.b = memory.addr2page .arm9 next
  offset : state.mem = next.toNat % 512

theorem Points.place_eq {next : BitVec 32} (points : Points memory next state) :
    memory.place .arm9 next = (state.b, BitVec.ofNat 9 state.mem) := by
  have offset : GuestMemory.pageOffset next 0 = BitVec.ofNat 9 state.mem := by
    apply BitVec.eq_of_toNat_eq
    rw [GuestMemory.pageOffset_zero, BitVec.toNat_ofNat, points.offset]
    omega
  rw [GuestMemory.place, points.page, offset]

theorem Written.write (written : Written memory dst bytes state)
    (points : Points memory (dst + BitVec.ofNat 32 bytes.length) state) (c : BitVec 8)
    (distinct : PlacesDistinct memory dst (bytes.length + 1)) :
    Written memory dst (bytes ++ [c]) (state.write c) := by
  have low : state.mem < 512 := by
    rw [points.offset]
    omega
  have length : (bytes ++ [c]).length = bytes.length + 1 := by
    rw [List.length_append, List.length_singleton]
  rw [Decomp.write, if_pos low]
  refine ⟨?_, ?_, written.inside, ?_, ?_⟩
  · exact written.same.trans (GuestMemory.sameProtection_poke _ _ _ _)
  · intro k bound
    rw [length] at bound
    dsimp only
    rw [byteAt_poke, written.same.place, ← points.place_eq]
    by_cases last : k = bytes.length
    · rw [last, if_pos rfl, List.getElem?_concat_length]
    · rw [if_neg (fun same => last (distinct k bound _ (Nat.lt_succ_self _) same)),
        ← written.stored k (by omega), List.getElem?_append_left (by omega)]
  · intro block apart
    rw [length] at apart
    have other : block ≠ state.b := by
      rw [points.page]
      exact (apart bytes.length (Nat.lt_succ_self _)).symm
    dsimp only
    rw [GuestMemory.modify_blocks, if_neg other]
    exact written.kept block fun k bound => apart k (Nat.lt_succ_of_lt bound)
  · intro k bound other
    rw [length] at bound
    apply GuestMemory.PageDirty.poke
    apply written.dirty k _ other
    by_contra last
    have here : k = bytes.length := by omega
    rw [here] at other
    exact other points.page.symm

/-- In the end every page is marked. -/
theorem Written.flush (written : Written memory dst bytes state) :
    WritesThere memory dst bytes state.flush := by
  have clean := GuestMemory.sameButDirty_dirty state.memory state.b
  refine ⟨?_, written.inside, ?_, ?_⟩
  · intro k bound
    rw [written.stored k bound]
    exact congrArg some (byteAt_congr clean.toSameProtection clean.mem _).symm
  · intro block apart
    exact (clean.mem block).trans (written.kept block apart)
  · intro k bound
    by_cases current : memory.addr2page .arm9 (dst + BitVec.ofNat 32 k) = state.b
    · rw [current]
      exact GuestMemory.pageDirty_dirty _ _
    · exact (written.dirty k bound current).dirty _

/-- The page is marked before the pointer leaves it. -/
theorem Written.nextPage (written : Written memory dst bytes state) :
    Written memory dst bytes state.flush.nextPage := by
  have clean := GuestMemory.sameButDirty_dirty state.memory state.b
  have there := written.flush
  exact ⟨written.same.trans clean.toSameProtection, there.stored, there.inside, there.kept,
    fun k bound _ => there.dirty k bound⟩

theorem written_init (memory : GuestMemory) (ioLoad : BitVec 32 → BitVec 32)
    (regs : Fin 16 → BitVec 32) : Written memory (regs 1) [] (init memory ioLoad regs) where
  same := ⟨rfl, fun _ => rfl⟩
  stored := fun k bound => absurd bound (Nat.not_lt_zero k)
  inside := rfl
  kept := fun _ _ => rfl
  dirty := fun k bound => absurd bound (Nat.not_lt_zero k)

/-! ### From the start of a page -/

/-- Between two bytes the limit is the end of the page that `dst` names. -/
structure OnPage (memory : GuestMemory) (next : BitVec 32) (state : Decomp) : Prop where
  points : Points memory next state
  limit : state.limit = 512
  dst : state.dst.toNat = next.toNat / 512 * 512

theorem OnPage.put8 {next : BitVec 32} (place : OnPage memory next state)
    (same : GuestMemory.SameProtection memory state.memory) (c : BitVec 8) :
    OnPage memory (next + 1) (state.put8 c) := by
  have bound := next.isLt
  have offset := place.points.offset
  have page := place.dst
  have after : (next + 1).toNat = (next.toNat + 1) % 2 ^ 32 := BitVec.toNat_add next 1
  rw [Decomp.put8, write_mem, write_limit, place.limit]
  split
  · next full =>
    have moved : (state.dst + 512).toNat = (state.dst.toNat + 512) % 2 ^ 32 :=
      BitVec.toNat_add state.dst 512
    refine ⟨⟨?_, ?_⟩, rfl, ?_⟩
    · change (state.write c).memory.map .arm9 (((state.write c).dst + 512) >>> 9).toNat = _
      rw [write_map, write_dst, same.map]
      apply memory.addr2page_congr
      omega
    · change 0 = _
      omega
    · change ((state.write c).dst + 512).toNat = _
      rw [write_dst]
      omega
  · next room =>
    refine ⟨⟨?_, ?_⟩, ?_, ?_⟩
    · rw [write_b, place.points.page]
      apply memory.addr2page_congr
      omega
    · rw [write_mem]
      omega
    · rw [write_limit, place.limit]
    · rw [write_dst, page, after]
      omega

theorem onPage_init (ioLoad : BitVec 32 → BitVec 32) (regs : Fin 16 → BitVec 32)
    (aligned : (regs 1).toNat % 512 = 0) :
    OnPage memory (regs 1) (init memory ioLoad regs) := by
  have start : (GuestMemory.pageOffset (regs 1) 0).toNat = (regs 1).toNat % 512 :=
    GuestMemory.pageOffset_zero (regs 1)
  refine ⟨⟨rfl, start⟩, ?_, ?_⟩
  · change (GuestMemory.pageOffset (regs 1) 0).toNat + 512 = 512
    omega
  · change (regs 1).toNat = _
    omega

/-! ### Within a page -/

/-- The limit is not reached inside the first page. -/
structure Inside (memory : GuestMemory) (dst : BitVec 32) (count : Nat) (state : Decomp) :
    Prop where
  page : state.b = memory.addr2page .arm9 dst
  mem : state.mem = dst.toNat % 512 + count
  limit : state.limit = dst.toNat % 512 + 512

theorem Inside.points {count : Nat} (inside : Inside memory dst count state)
    (within : dst.toNat % 512 + count < 512) :
    Points memory (dst + BitVec.ofNat 32 count) state := by
  refine ⟨?_, ?_⟩
  · rw [inside.page, memory.addr2page_within .arm9 count within]
  · rw [inside.mem, GuestMemory.toNat_within count within]
    omega

theorem Inside.put8_eq {count : Nat} (inside : Inside memory dst count state)
    (short : count + 1 < 512) (c : BitVec 8) : state.put8 c = state.write c := by
  rw [put8, write_mem, write_limit, inside.mem, inside.limit, if_neg (by omega)]

theorem Inside.write {count : Nat} (inside : Inside memory dst count state) (c : BitVec 8) :
    Inside memory dst (count + 1) (state.write c) := by
  refine ⟨?_, ?_, ?_⟩
  · rw [write_b, inside.page]
  · rw [write_mem, inside.mem, Nat.add_assoc]
  · rw [write_limit, inside.limit]

theorem inside_init (memory : GuestMemory) (ioLoad : BitVec 32 → BitVec 32)
    (regs : Fin 16 → BitVec 32) : Inside memory (regs 1) 0 (init memory ioLoad regs) where
  page := rfl
  mem := GuestMemory.pageOffset_zero (regs 1)
  limit := congrArg (· + 512) (GuestMemory.pageOffset_zero (regs 1))

/-! ### Beyond the page -/

theorem put8_strayed (state : Decomp) (c : BitVec 8) :
    (state.put8 c).strayed = (state.write c).strayed := by
  rw [put8]
  split <;> rfl

theorem foldl_put8_strayed (bytes : List (BitVec 8)) {state : Decomp}
    (strayed : state.strayed ≠ []) : (bytes.foldl put8 state).strayed ≠ [] := by
  induction bytes generalizing state with
  | nil => exact strayed
  | cons c bytes ih =>
      apply ih
      rw [put8_strayed, Decomp.write]
      split
      · exact strayed
      · exact List.append_ne_nil_of_left_ne_nil strayed _

/-- A limit behind the page is reached too late. -/
theorem strayed_of_beyond (bytes : List (BitVec 8)) {state : Decomp} (inside : state.mem ≤ 512)
    (late : 512 < state.limit) (beyond : 512 < state.mem + bytes.length) :
    (bytes.foldl put8 state).strayed ≠ [] := by
  induction bytes generalizing state with
  | nil => exact absurd beyond (not_lt.mpr inside)
  | cons c bytes ih =>
      rw [List.length_cons] at beyond
      rw [List.foldl_cons]
      by_cases last : state.mem = 512
      · apply foldl_put8_strayed
        rw [put8_strayed, Decomp.write, if_neg (by omega)]
        exact List.append_ne_nil_of_right_ne_nil _ (List.cons_ne_nil _ _)
      · have stays : state.put8 c = state.write c := by
          rw [put8, write_mem, write_limit, if_neg (by omega)]
        rw [stays]
        apply ih
        · rw [write_mem]
          omega
        · rw [write_limit]
          exact late
        · rw [write_mem]
          omega

/-! ### Whole runs -/

variable (ioLoad : BitVec 32 → BitVec 32) (regs : Fin 16 → BitVec 32)

theorem PlacesDistinct.prefix {len more : Nat} (distinct : PlacesDistinct memory dst (len + more)) :
    PlacesDistinct memory dst len :=
  fun j first k second => distinct j (by omega) k (by omega)

theorem run_aligned (bytes : List (BitVec 8)) (aligned : (regs 1).toNat % 512 = 0)
    (distinct : PlacesDistinct memory (regs 1) bytes.length) :
    Written memory (regs 1) bytes (bytes.foldl put8 (init memory ioLoad regs)) ∧
      OnPage memory (regs 1 + BitVec.ofNat 32 bytes.length)
        (bytes.foldl put8 (init memory ioLoad regs)) := by
  induction bytes using List.reverseRecOn with
  | nil =>
      have start := @onPage_init memory ioLoad regs aligned
      refine ⟨written_init memory ioLoad regs, ?_⟩
      rwa [List.length_nil, BitVec.add_zero]
  | append_singleton bytes c ih =>
      rw [List.length_append, List.length_singleton] at distinct ⊢
      obtain ⟨written, place⟩ := ih distinct.prefix
      have next := written.write place.points c distinct
      rw [List.foldl_append]
      refine ⟨?_, ?_⟩
      · change Written _ _ _ (put8 _ c)
        rw [put8]
        split
        · exact next.nextPage
        · exact next
      · rw [BitVec.ofNat_add, ← BitVec.add_assoc]
        exact place.put8 written.same c

theorem run_inside (bytes : List (BitVec 8)) (start : 0 < (regs 1).toNat % 512)
    (fits : (regs 1).toNat % 512 + bytes.length ≤ 512)
    (distinct : PlacesDistinct memory (regs 1) bytes.length) :
    Written memory (regs 1) bytes (bytes.foldl put8 (init memory ioLoad regs)) ∧
      Inside memory (regs 1) bytes.length (bytes.foldl put8 (init memory ioLoad regs)) := by
  induction bytes using List.reverseRecOn with
  | nil => exact ⟨written_init memory ioLoad regs, inside_init memory ioLoad regs⟩
  | append_singleton bytes c ih =>
      rw [List.length_append, List.length_singleton] at distinct fits ⊢
      obtain ⟨written, place⟩ := ih (by omega) distinct.prefix
      rw [List.foldl_append]
      change Written _ _ _ (put8 _ c) ∧ Inside _ _ _ (put8 _ c)
      rw [place.put8_eq (by omega)]
      exact ⟨written.write (place.points (by omega)) c distinct, place.write c⟩

/-- The bytes get where they belong exactly if they start with a page or end
before the next one. -/
theorem run_writesThere_iff (memory : GuestMemory) (bytes : List (BitVec 8))
    (distinct : PlacesDistinct memory (regs 1) bytes.length) :
    WritesThere memory (regs 1) bytes (run memory ioLoad regs bytes) ↔
      (regs 1).toNat % 512 = 0 ∨ (regs 1).toNat % 512 + bytes.length ≤ 512 := by
  constructor
  · intro there
    by_contra beyond
    rw [not_or, not_le] at beyond
    have inside := inside_init memory ioLoad regs
    refine strayed_of_beyond bytes ?_ ?_ ?_ there.inside
    · rw [inside.mem]
      omega
    · rw [inside.limit]
      omega
    · rw [inside.mem]
      exact beyond.2
  · intro fits
    by_cases aligned : (regs 1).toNat % 512 = 0
    · exact (run_aligned ioLoad regs bytes aligned distinct).1.flush
    · exact (run_inside ioLoad regs bytes (Nat.pos_of_ne_zero aligned) (fits.resolve_left aligned)
        distinct).1.flush

/-- Main memory with a page for every address. -/
def flatRam : GuestMemory where
  map := fun _ page => ⟨.ram, page⟩
  blocks := fun _ =>
    { flags := 0
      jit := fun _ _ => none
      recompiles := 0
      mem := fun _ => 0 }

/-- Three bytes in the middle of a page. -/
theorem run_writesThere_iff_middle :
    WritesThere flatRam 0x10 [1, 2, 3] (run flatRam (fun _ => 0) (fun _ => 0x10) [1, 2, 3]) ↔
      (0x10 : BitVec 32).toNat % 512 = 0 ∨ (0x10 : BitVec 32).toNat % 512 + 3 ≤ 512 :=
  run_writesThere_iff (fun _ => 0) (fun _ => 0x10) flatRam [1, 2, 3] (by decide)

/-- Of two bytes for the end of a page and the next one the second is written
behind the first page. -/
theorem run_strays :
    PlacesDistinct flatRam 0x1FF 2 ∧
      (∀ k < 2, (flatRam.blocks (flatRam.addr2page .arm9 (0x1FF + BitVec.ofNat 32 k))).flags = 0) ∧
        ¬WritesThere flatRam 0x1FF [1, 2] (run flatRam (fun _ => 0) (fun _ => 0x1FF) [1, 2]) :=
  ⟨by decide, by decide, fun there => absurd there.inside (by decide)⟩

end Decomp

end Ndse
