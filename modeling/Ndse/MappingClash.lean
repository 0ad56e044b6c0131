import Ndse.VramMapping

/-!
# Clashes of mapped regions

Merging an entry of the overlay compares the priorities of its regions, and two
equal ones are reported as a clash.  A region that stays behind where it was
mapped and is mapped there again clashes with itself.  The control byte of
bank I leaves bank H behind in this way.
-/

namespace Ndse

/-! ### What `recalc_prio` reports -/

section

variable {Region : Type*} (table : RegionTable Region)

/-- The comparison of `recalc_prio` with the highest priority so far. -/
def recalcReports : List Region → Bool
  | [] => false
  | first :: sections =>
      (sections.foldl
        (fun (prio, clash) region =>
          (if table.priority region > table.priority prio then region else prio,
            clash || table.priority region == table.priority prio))
        (first, false)).2

/-- Regions of pairwise different priorities do not clash. -/
theorem recalcReports_of_nodup {sections : List Region}
    (different : (sections.map table.priority).Nodup) : recalcReports table sections = false := by
  cases sections with
  | nil => rfl
  | cons first sections =>
      have spec (earlier later : List Region) (prio : Region) (member : prio ∈ earlier)
          (distinct : ((earlier ++ later).map table.priority).Nodup) :
          (later.foldl
            (fun (state : Region × Bool) region =>
              (if table.priority region > table.priority state.1 then region else state.1,
                state.2 || table.priority region == table.priority state.1))
            (prio, false)).2 = false := by
        induction later generalizing earlier prio with
        | nil => rfl
        | cons region later ih =>
            have apart : table.priority region ≠ table.priority prio := by
              rw [List.map_append, List.nodup_append'] at distinct
              intro same
              exact distinct.2.2 (List.mem_map_of_mem member) (by simp [same])
            have next := ih (earlier ++ [region])
              (if table.priority region > table.priority prio then region else prio)
              (by split <;> simp [member]) (by rwa [List.append_assoc])
            rw [List.foldl_cons, beq_false_of_ne apart]
            exact next
      exact spec [first] sections first (by simp) different

namespace MemoryMap

/-- How many of the regions over a page have a priority. -/
def priorityCount (memory : MemoryMap Region) (priority page : Nat) : Nat :=
  (memory.ovl.get page).elim 0 fun entry => (entry.sections.map table.priority).count priority

/-- No page lies under two regions of one priority. -/
def Clashless (memory : MemoryMap Region) : Prop :=
  ∀ priority page, memory.priorityCount table priority page ≤ 1

/-- `recalc_prio` reports a clash over some page. -/
def Reports (memory : MemoryMap Region) : Prop :=
  ∃ page, ∃ entry ∈ memory.ovl.get page, recalcReports table entry.sections = true

theorem Clashless.not_reports {memory : MemoryMap Region} (clashless : memory.Clashless table) :
    ¬ memory.Reports table := by
  rintro ⟨page, entry, held, reported⟩
  have different : (entry.sections.map table.priority).Nodup := by
    rw [List.nodup_iff_count_le_one]
    intro priority
    have count := clashless priority page
    rwa [priorityCount, held] at count
  rw [recalcReports_of_nodup table different] at reported
  cases reported

theorem multiplicity_le_priorityCount [DecidableEq Region] (memory : MemoryMap Region)
    (region : Region) (page : Nat) :
    memory.multiplicity region page ≤ memory.priorityCount table (table.priority region) page := by
  unfold multiplicity priorityCount
  cases memory.ovl.get page with
  | none => exact le_rfl
  | some entry => exact List.count_le_count_map

/-- A region that has its priority to itself is counted by it. -/
theorem priorityCount_eq_multiplicity [DecidableEq Region] (memory : MemoryMap Region)
    {region : Region}
    (alone : ∀ other, table.priority other = table.priority region → other = region) (page : Nat) :
    memory.priorityCount table (table.priority region) page = memory.multiplicity region page := by
  unfold multiplicity priorityCount
  cases memory.ovl.get page with
  | none => rfl
  | some entry =>
      rw [Option.elim_some, Option.elim_some, List.count, List.countP_map, List.count]
      apply List.countP_congr
      intro other _
      have same : table.priority other = table.priority region ↔ other = region :=
        ⟨alone other, congrArg table.priority⟩
      simpa using same

variable [LinearOrder Region]

theorem priorityCount_mapRegion (memory : MemoryMap Region) (mapped : Region)
    (lower upper priority page : Nat) :
    (memory.mapRegion table mapped lower upper).priorityCount table priority page =
      memory.priorityCount table priority page +
        if table.priority mapped = priority ∧ lower ≤ page ∧ page < upper then 1 else 0 := by
  simp only [priorityCount, mapRegion, SplitIntervalMap.add, SplitIntervalMap.alter]
  by_cases inside : lower ≤ page ∧ page < upper
  · cases held : memory.ovl.get page with
    | none => simp [inside, RegionEntry.single, List.count_singleton]
    | some entry =>
        simp [inside, RegionEntry.add, RegionEntry.single,
          ((List.perm_orderedInsert (· ≤ ·) mapped entry.sections).map table.priority).count_eq,
          List.count_cons]
  · simp [inside]

theorem priorityCount_unmap_le (memory : MemoryMap Region) (unmapped : Region)
    (priority page : Nat) :
    (memory.unmap table unmapped).priorityCount table priority page ≤
      memory.priorityCount table priority page := by
  simp only [priorityCount, unmap, SplitIntervalMap.sub, SplitIntervalMap.alter, Nat.zero_le,
    true_and]
  by_cases inside : page < totalPages
  · cases held : memory.ovl.get page with
    | none => simp [inside]
    | some entry =>
        simp [inside, RegionEntry.sub, RegionEntry.single]
        exact (List.erase_sublist.map _).count_le _
  · simp [inside]

theorem priorityCount_initNull (priority page : Nat) :
    (initNull table).priorityCount table priority page =
      if table.priority table.null = priority ∧ page < totalPages then 1 else 0 := by
  simp only [priorityCount, initNull, SplitIntervalMap.add, SplitIntervalMap.alter,
    SplitIntervalMap.empty, Nat.zero_le, true_and]
  by_cases inside : page < totalPages
  · simp [inside, RegionEntry.single, List.count_singleton]
  · simp [inside]

/-- Mapping a region apart from all others of its priority does not clash. -/
theorem Clashless.mapRegion_apart {memory : MemoryMap Region} (clashless : memory.Clashless table)
    {mapped : Region} {lower upper : Nat}
    (apart : ∀ page, lower ≤ page → page < upper →
      memory.priorityCount table (table.priority mapped) page = 0) :
    (memory.mapRegion table mapped lower upper).Clashless table := by
  intro priority page
  rw [priorityCount_mapRegion]
  split
  · next inside =>
    obtain ⟨rfl, lowerLe, ltUpper⟩ := inside
    rw [apart page lowerLe ltUpper]
  · exact clashless priority page

/-- Mapping a region over pages it is not mapped over does not clash. -/
theorem Clashless.mapRegion {memory : MemoryMap Region} (clashless : memory.Clashless table)
    {mapped : Region}
    (alone : ∀ other, table.priority other = table.priority mapped → other = mapped)
    {lower upper : Nat}
    (free : ∀ page, lower ≤ page → page < upper → memory.multiplicity mapped page = 0) :
    (memory.mapRegion table mapped lower upper).Clashless table := by
  apply clashless.mapRegion_apart
  intro page lowerLe ltUpper
  rw [priorityCount_eq_multiplicity table memory alone, free page lowerLe ltUpper]

theorem Clashless.unmap {memory : MemoryMap Region} (clashless : memory.Clashless table)
    (unmapped : Region) : (memory.unmap table unmapped).Clashless table :=
  fun priority page =>
    (memory.priorityCount_unmap_le table unmapped priority page).trans (clashless priority page)

/-- No region is mapped behind the end of the page table. -/
def Bounded (memory : MemoryMap Region) : Prop :=
  ∀ region page, totalPages ≤ page → memory.multiplicity region page = 0

theorem Bounded.mapRegion {memory : MemoryMap Region} (bounded : memory.Bounded)
    (mapped : Region) (lower : Nat) {upper : Nat} (fits : upper ≤ totalPages) :
    (memory.mapRegion table mapped lower upper).Bounded := by
  intro region page beyond
  rw [multiplicity_mapRegion, bounded region page beyond, if_neg (by omega)]

theorem Bounded.unmap {memory : MemoryMap Region} (bounded : memory.Bounded)
    (unmapped : Region) : (memory.unmap table unmapped).Bounded := by
  intro region page beyond
  rw [multiplicity_unmap, bounded region page beyond, Nat.zero_sub]

/-- Without clashes, unmapping a region leaves it nowhere. -/
theorem Clashless.multiplicity_unmap_self {memory : MemoryMap Region}
    (clashless : memory.Clashless table) (bounded : memory.Bounded) (unmapped : Region)
    (page : Nat) : (memory.unmap table unmapped).multiplicity unmapped page = 0 := by
  have once : memory.multiplicity unmapped page ≤ 1 :=
    (memory.multiplicity_le_priorityCount table unmapped page).trans (clashless _ page)
  rw [multiplicity_unmap]
  by_cases inside : page < totalPages
  · rw [if_pos ⟨rfl, inside⟩, Nat.sub_eq_zero_of_le once]
  · rw [bounded unmapped page (not_lt.mp inside), Nat.zero_sub]

end MemoryMap

end

/-! ### Operations on the mapping -/

/-- A call of `remap_tcm` on the ARM9 that does not trap, for pages below the
end of the address space. -/
structure TcmCall where
  value : BitVec 32
  mode : BitVec 32
  mode_valid : mode = 0 ∨ mode = 1 ∧ value &&& 0xFFFFF000 = 0
  fits : (value &&& 0xFFFFF000).toNat + 512 * 2 ^ ((value >>> 1) &&& 0x1F).toNat < 2 ^ 32

namespace VramState

/-- The start of both cases of `remap_tcm`. -/
def unmapTcm (state : VramState) (region : PhysRegion) : VramState :=
  { state with
    memory := Function.update state.memory .arm9 ((state.memory .arm9).unmap physTable region) }

/-- The region of a mode. -/
def tcmRegion (mode : BitVec 32) : PhysRegion := if mode = 0 then .dataTcm else .instTcm

/-- `HLE<_ARM9>::remap_tcm`. -/
def remapTcm (state : VramState) (call : TcmCall) : VramState :=
  let shift := ((call.value >>> 1) &&& 0x1F).toNat
  let base := call.value &&& 0xFFFFF000
  let size : BitVec 32 := 512 <<< shift
  let region := tcmRegion call.mode
  let state := state.unmapTcm region
  { state with
    memory := Function.update state.memory .arm9
      ((state.memory .arm9).mapRange region base.toNat (base + size).toNat) }

/-! ### The states an operation passes through -/

/-- After each call `map_bank` makes to the memory map. -/
def mapBankStages (state : VramState) (cpu : Cpu) (idx : Fin 10) (region : PhysRegion)
    (addr : BitVec 32) : List VramState :=
  if state.mapping cpu idx ≠ addr then
    [state.unmapBank cpu idx region, state.mapBank cpu idx region addr]
  else []

/-- After each call `map_vcnt` makes to the memory map. -/
def mapVcntStages (state : VramState) (cnt mstMask ofsMask : BitVec 32) (idx : Fin 10) :
    List VramState :=
  if cnt &&& 0x80 ≠ 0 then
    match vcntRequest idx (cnt &&& mstMask) (cnt &&& ofsMask) with
    | .map cpu region addr => state.mapBankStages cpu idx region addr
    | _ => []
  else
    match vcntBanks[idx.val]? with
    | some region =>
        [state.unmapBank .arm7 idx region,
          (state.unmapBank .arm7 idx region).unmapBank .arm9 idx region]
    | none => []

def bankStages (state : VramState) (bank : VramBank) : List VramState :=
  let args := remapArgs bank
  state.mapVcntStages ((state.vramcnt bank.byteIndex).setWidth 32) args.1 args.2.1 args.2.2

def remapStages : List VramBank → VramState → List VramState
  | [], _ => []
  | bank :: banks, state =>
      state.bankStages bank ++
        match state.remapBank bank with
        | some next => remapStages banks next
        | none => []

end VramState

/-- A write of a control byte with `remap`, or a move of a tightly coupled
memory. -/
inductive MapOp
  | writeVcnt (bank : VramBank) (value : BitVec 8)
  | remapTcm (call : TcmCall)

namespace VramState

def apply (state : VramState) : MapOp → Option VramState
  | .writeVcnt bank value => state.writeVcnt bank value
  | .remapTcm call => some (state.remapTcm call)

/-- After each call an operation makes to the memory map. -/
def stages (state : VramState) : MapOp → List VramState
  | .writeVcnt bank value =>
      remapStages [.a, .b, .c, .d, .e, .f, .g, .h, .i]
        { state with vramcnt := Function.update state.vramcnt bank.byteIndex value }
  | .remapTcm call => [state.unmapTcm (tcmRegion call.mode), state.remapTcm call]

/-- On neither processor a page lies under two regions of one priority, and
`recalc_prio` reports nothing. -/
def ClashFree (state : VramState) : Prop :=
  ∀ cpu, (state.memory cpu).Clashless physTable ∧ ¬ (state.memory cpu).Reports physTable

end VramState

/-- An operation, unless a lookup was out of bounds before. -/
def mapOpStep (state : Option VramState) (op : MapOp) : Option VramState :=
  state.bind (·.apply op)

/-- The operation clashes nowhere on its way. -/
def OpClashFree (state : Option VramState) (op : MapOp) : Prop :=
  ∀ current ∈ state, ∀ stage ∈ current.stages op, stage.ClashFree

/-! ### What bank I leaves behind -/

/-- Where the byte of bank I maps bank H. -/
def bankIPlace (value : BitVec 8) : Option (BitVec 32) :=
  if vramEnabled value then (vcntH (value.setWidth 32 &&& 0x3)).target.map Prod.snd else none

/-- Where bank I was enabled last, unless it was disabled since, and the places
where it was disabled since it last went directly from one to the other. -/
structure BankIHistory where
  current : Option (BitVec 32)
  left : List (BitVec 32)

namespace BankIHistory

def write (history : BankIHistory) (value : BitVec 8) : BankIHistory :=
  if vramEnabled value then
    match bankIPlace value, history.current with
    | none, _ => history
    | some place, none => { history with current := some place }
    | some place, some old => if old = place then history else ⟨some place, []⟩
  else ⟨none, history.current.toList ++ history.left⟩

/-- The byte does not enable a disabled bank I where it was disabled. -/
def Fresh (history : BankIHistory) (value : BitVec 8) : Prop :=
  ∀ place ∈ bankIPlace value, history.current = none → place ∉ history.left

/-- The places of bank H. -/
def Holds (history : BankIHistory) (place : BitVec 32) : Prop :=
  history.current = some place ∨ place ∈ history.left

end BankIHistory

/-- What an enabling byte asks for at the index of a bank. -/
def bankRequest (bank : VramBank) (value : BitVec 8) : VcntRequest :=
  vcntRequest (VramState.remapArgs bank).2.2
    (value.setWidth 32 &&& (VramState.remapArgs bank).1)
    (value.setWidth 32 &&& (VramState.remapArgs bank).2.1)

/-- The byte makes `map_vcnt` read behind the end of its table. -/
def LookupOutside (bank : VramBank) (value : BitVec 8) : Prop :=
  vramEnabled value ∧ bankRequest bank value = .outOfBounds

instance (bank : VramBank) (value : BitVec 8) : Decidable (LookupOutside bank value) :=
  inferInstanceAs (Decidable (_ ∧ _))

/-- The history after an operation; there is none after a lookup out of bounds. -/
def historyStep (history : Option BankIHistory) (op : MapOp) : Option BankIHistory :=
  history.bind fun history =>
    match op with
    | .writeVcnt bank value =>
        if LookupOutside bank value then none
        else if bank = .i then some (history.write value)
        else some history
    | .remapTcm _ => some history

/-- The operation does not enable bank I again where it was disabled. -/
def OpFresh (history : Option BankIHistory) (op : MapOp) : Prop :=
  ∀ current ∈ history, ∀ value, op = .writeVcnt .i value → current.Fresh value

end Ndse
