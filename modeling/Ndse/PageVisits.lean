import Ndse.PageWalk

/-!
# Visits of memory page by page

`process_memory` hands a range of addresses to a functor in pieces, one for each
page that the range touches.  A functor that goes through its piece byte by byte
goes through the whole range so.
-/

namespace Ndse

namespace GuestMemory

variable {Context : Type}

/-- The followup pages of `memory_map<T>::process_memory`. -/
def visitPages (process : MemoryBlock PhysRegion → BitVec 9 → Nat → Context → Context)
    (memory : GuestMemory) (cpu : Cpu) (addr : BitVec 32) (len : Nat) (ctx : Context) : Context :=
  if len = 0 then ctx
  else
    let todo := min len 512
    visitPages process memory cpu (addr + BitVec.ofNat 32 todo) (len - todo)
      (process (memory.addr2page cpu addr) 0 todo ctx)
termination_by len

/-- `memory_map<T>::process_memory` with a functor that leaves the page tables. -/
def visitMemory (process : MemoryBlock PhysRegion → BitVec 9 → Nat → Context → Context)
    (memory : GuestMemory) (cpu : Cpu) (addr : BitVec 32) (len : Nat) (ctx : Context) : Context :=
  let subaddr := pageOffset addr 0
  let todo := min len (512 - subaddr.toNat)
  visitPages process memory cpu (addr + BitVec.ofNat 32 todo) (len - todo)
    (process (memory.addr2page cpu addr) subaddr todo ctx)

/-- Some bytes of a page. -/
def pageBytes (memory : GuestMemory) (b : MemoryBlock PhysRegion) (subaddr : BitVec 9)
    (size : Nat) : List (BitVec 8) :=
  (List.range size).map fun k => (memory.blocks b).mem (subaddr + BitVec.ofNat 9 k)

/-- The page of an address may be read. -/
def Readable (memory : GuestMemory) (cpu : Cpu) (addr : BitVec 32) : Prop :=
  ¬(memory.blocks (memory.addr2page cpu addr)).has (PageFlag.invalid ||| PageFlag.readProt)

instance (memory : GuestMemory) (cpu : Cpu) (addr : BitVec 32) :
    Decidable (memory.Readable cpu addr) :=
  inferInstanceAs (Decidable ¬_)

/-- The functor does nothing with a piece but take `step` after `step`. -/
def Bytewise (process : MemoryBlock PhysRegion → BitVec 9 → Nat → Context → Context)
    (step : MemoryBlock PhysRegion × BitVec 9 → Context → Context) : Prop :=
  ∀ b subaddr size ctx, 0 < size → subaddr.toNat + size ≤ 512 →
    process b subaddr size ctx =
      (List.range size).foldl (fun ctx k => step (b, subaddr + BitVec.ofNat 9 k) ctx) ctx

/-- All steps of a range. -/
def steps (step : MemoryBlock PhysRegion × BitVec 9 → Context → Context) (memory : GuestMemory)
    (cpu : Cpu) (addr : BitVec 32) (len : Nat) (ctx : Context) : Context :=
  (List.range len).foldl (fun ctx k => step (memory.place cpu (addr + BitVec.ofNat 32 k)) ctx) ctx

variable {process : MemoryBlock PhysRegion → BitVec 9 → Nat → Context → Context}
variable {step : MemoryBlock PhysRegion × BitVec 9 → Context → Context}

theorem steps_add (step : MemoryBlock PhysRegion × BitVec 9 → Context → Context)
    (memory : GuestMemory) (cpu : Cpu) (addr : BitVec 32) (first more : Nat) (ctx : Context) :
    steps step memory cpu addr (first + more) ctx =
      steps step memory cpu (addr + BitVec.ofNat 32 first) more
        (steps step memory cpu addr first ctx) := by
  rw [steps, steps, steps, List.range_add, List.foldl_append, List.foldl_map]
  simp only [BitVec.ofNat_add, BitVec.add_assoc]

theorem steps_succ (step : MemoryBlock PhysRegion × BitVec 9 → Context → Context)
    (memory : GuestMemory) (cpu : Cpu) (addr : BitVec 32) (len : Nat) (ctx : Context) :
    steps step memory cpu addr (len + 1) ctx =
      step (memory.place cpu (addr + BitVec.ofNat 32 len))
        (steps step memory cpu addr len ctx) := by
  rw [steps, List.range_succ, List.foldl_append]
  rfl

/-- It is enough that a piece's last byte may be cut off. -/
theorem bytewise_of_succ
    (succ : ∀ b subaddr size ctx, process b subaddr (size + 1) ctx =
      process b (subaddr + BitVec.ofNat 9 size) 1 (process b subaddr size ctx)) :
    Bytewise process fun place => process place.1 place.2 1 := by
  intro b subaddr size ctx some _
  induction size, some using Nat.le_induction with
  | base =>
      change _ = process b (subaddr + BitVec.ofNat 9 0) 1 ctx
      rw [BitVec.add_zero]
  | succ size some ih =>
      rw [List.range_succ, List.foldl_append, ← ih (by omega), succ]
      rfl

theorem pageBytes_one (memory : GuestMemory) (b : MemoryBlock PhysRegion) (subaddr : BitVec 9) :
    memory.pageBytes b subaddr 1 = [(memory.blocks b).mem subaddr] := by
  change [(memory.blocks b).mem (subaddr + BitVec.ofNat 9 0)] = _
  rw [BitVec.add_zero]

theorem pageBytes_succ (memory : GuestMemory) (b : MemoryBlock PhysRegion) (subaddr : BitVec 9)
    (size : Nat) :
    memory.pageBytes b subaddr (size + 1) = memory.pageBytes b subaddr size ++
      memory.pageBytes b (subaddr + BitVec.ofNat 9 size) 1 := by
  rw [pageBytes_one, pageBytes, List.range_succ, List.map_append]
  rfl

/-- A piece within a page. -/
theorem Bytewise.piece (bytewise : Bytewise process step) (memory : GuestMemory) (cpu : Cpu)
    {addr : BitVec 32} {size : Nat} (some : 0 < size) (within : addr.toNat % 512 + size ≤ 512)
    (ctx : Context) :
    process (memory.addr2page cpu addr) (pageOffset addr 0) size ctx =
      steps step memory cpu addr size ctx := by
  rw [bytewise _ _ _ _ some (by rw [pageOffset_zero]; exact within), steps]
  apply List.foldl_ext
  intro ctx k member
  have inside := List.mem_range.mp member
  rw [place, addr2page_within memory cpu k (by omega), pageOffset_within k (by omega)]

theorem Bytewise.visitPages_eq (bytewise : Bytewise process step) (memory : GuestMemory)
    (cpu : Cpu) (len : Nat) {addr : BitVec 32} (aligned : len = 0 ∨ addr.toNat % 512 = 0)
    (ctx : Context) :
    visitPages process memory cpu addr len ctx = steps step memory cpu addr len ctx := by
  induction len using Nat.strong_induction_on generalizing addr ctx with
  | _ len ih =>
      rw [visitPages]
      split
      · next nothing =>
        rw [nothing]
        rfl
      · next something =>
        have start := aligned.resolve_left something
        have offset : pageOffset addr 0 = 0 := by
          apply BitVec.eq_of_toNat_eq
          rw [pageOffset_zero, start]
          rfl
        have piece := bytewise.piece memory cpu (show 0 < min len 512 by omega)
          (show addr.toNat % 512 + min len 512 ≤ 512 by omega) ctx
        have whole := steps_add step memory cpu addr (min len 512) (len - min len 512) ctx
        rw [Nat.add_sub_cancel' (Nat.min_le_left len 512)] at whole
        rw [offset] at piece
        rw [whole, ← piece]
        apply ih _ (by omega)
        rw [toNat_forward]
        omega

/-- A range that is not empty is gone through byte by byte. -/
theorem Bytewise.visitMemory_eq (bytewise : Bytewise process step) (memory : GuestMemory)
    (cpu : Cpu) (addr : BitVec 32) {len : Nat} (some : 0 < len) (ctx : Context) :
    visitMemory process memory cpu addr len ctx = steps step memory cpu addr len ctx := by
  have offset := pageOffset_zero addr
  have bound := (pageOffset addr 0).isLt
  have piece := bytewise.piece memory cpu
    (show 0 < min len (512 - (pageOffset addr 0).toNat) by omega)
    (show addr.toNat % 512 + min len (512 - (pageOffset addr 0).toNat) ≤ 512 by omega) ctx
  have whole := steps_add step memory cpu addr (min len (512 - (pageOffset addr 0).toNat))
    (len - min len (512 - (pageOffset addr 0).toNat)) ctx
  rw [Nat.add_sub_cancel' (Nat.min_le_left _ _)] at whole
  rw [visitMemory, whole, ← piece]
  apply bytewise.visitPages_eq
  rw [toNat_forward]
  omega

/-! ### The walk that the visits are -/

theorem walkPages_eq_visitPages (process : Process Context)
    (keeps : ∀ b subaddr size state, (process b subaddr size state).1.map = state.1.map)
    (memory : GuestMemory) (cpu : Cpu) (addr : BitVec 32) (len : Nat)
    (state : GuestMemory × Context) (same : state.1.map = memory.map) :
    walkPages process cpu addr len state = visitPages process memory cpu addr len state := by
  induction addr, len using pageChunks.induct generalizing state with
  | case1 addr => rw [walkPages, visitPages, if_pos rfl, if_pos rfl]
  | case2 addr len something ih =>
      have page : state.1.addr2page cpu addr = memory.addr2page cpu addr := by
        rw [addr2page, addr2page, same]
      rw [walkPages, visitPages, if_neg something, if_neg something, page]
      exact ih _ ((keeps _ _ _ _).trans same)

/-- With a functor that leaves the page tables, they need not be looked at anew. -/
theorem walkMemory_eq_visitMemory (process : Process Context)
    (keeps : ∀ b subaddr size state, (process b subaddr size state).1.map = state.1.map)
    (cpu : Cpu) (addr : BitVec 32) (len : Nat) (state : GuestMemory × Context) :
    walkMemory process cpu addr len state = visitMemory process state.1 cpu addr len state :=
  walkPages_eq_visitPages process keeps _ _ _ _ _ (keeps _ _ _ _)

theorem visitPages_eq_walkPages
    (process : MemoryBlock PhysRegion → BitVec 9 → Nat → Context → Context)
    (memory : GuestMemory) (cpu : Cpu) (addr : BitVec 32) (len : Nat) (ctx : Context) :
    visitPages process memory cpu addr len ctx =
      (walkPages (fun b subaddr size state => (state.1, process b subaddr size state.2))
        cpu addr len (memory, ctx)).2 := by
  induction addr, len using pageChunks.induct generalizing ctx with
  | case1 addr => rw [visitPages, walkPages, if_pos rfl, if_pos rfl]
  | case2 addr len something ih =>
      rw [visitPages, walkPages, if_neg something, if_neg something]
      exact ih _

/-- A functor that only reads memory. -/
theorem visitMemory_eq_walkMemory
    (process : MemoryBlock PhysRegion → BitVec 9 → Nat → Context → Context)
    (memory : GuestMemory) (cpu : Cpu) (addr : BitVec 32) (len : Nat) (ctx : Context) :
    visitMemory process memory cpu addr len ctx =
      (walkMemory (fun b subaddr size state => (state.1, process b subaddr size state.2))
        cpu addr len (memory, ctx)).2 :=
  visitPages_eq_walkPages _ _ _ _ _ _

theorem streamPages_eq_walkPages (cpu : Cpu) (addr : BitVec 32) (len : Nat) (memory : GuestMemory)
    (file : List (BitVec 8)) :
    streamPages cpu memory addr len file =
      (walkPages (fun b subaddr size (state : GuestMemory × List (BitVec 8)) =>
        state.1.streamProcess b subaddr size state.2) cpu addr len (memory, file)).1 := by
  induction addr, len using pageChunks.induct generalizing memory file with
  | case1 addr => rw [streamPages, walkPages, if_pos rfl, if_pos rfl]
  | case2 addr len something ih =>
      rw [streamPages, walkPages, if_neg something, if_neg something]
      exact ih _ _

theorem streamProcess_map (memory : GuestMemory) (b : MemoryBlock PhysRegion) (subaddr : BitVec 9)
    (size : Nat) (file : List (BitVec 8)) :
    (memory.streamProcess b subaddr size file).1.map = memory.map := by
  rw [streamProcess]
  split <;> rfl

/-- The loaders' visits are visits with the memory and the rest of the file as
context. -/
theorem processMemory_eq (memory : GuestMemory) (cpu : Cpu) (addr : BitVec 32) (len : Nat)
    (file : List (BitVec 8)) :
    memory.processMemory cpu addr len file =
      (visitMemory (fun b subaddr size (ctx : GuestMemory × List (BitVec 8)) =>
        ctx.1.streamProcess b subaddr size ctx.2) memory cpu addr len (memory, file)).1 := by
  have walk := walkMemory_eq_visitMemory
    (fun b subaddr size (ctx : GuestMemory × List (BitVec 8)) =>
      ctx.1.streamProcess b subaddr size ctx.2)
    (fun b subaddr size ctx => streamProcess_map ctx.1 b subaddr size ctx.2) cpu addr len
    (memory, file)
  rw [← walk]
  exact streamPages_eq_walkPages _ _ _ _ _

end GuestMemory

end Ndse
