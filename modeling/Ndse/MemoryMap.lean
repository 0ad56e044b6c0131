import Ndse.Library.SplitIntervalMap
import Mathlib.Algebra.GroupWithZero.Nat
import Mathlib.Data.List.Induction
import Mathlib.Logic.Function.Basic

/-!
# The page table and its overlay of regions

Each processor resolves an address through a flat table from pages to memory
blocks.  Which region a page belongs to is kept beside it in an interval map
whose entries list all regions mapped over an interval; the one with the
highest priority is visible.  Mapping and unmapping change the overlay and then
rewrite the table for the segments they touched.
-/

namespace Ndse

/-- What the map reads of `memory_region_base`: the number of blocks and the
priority of each region, and the region behind everything else. -/
structure RegionTable (Region : Type*) where
  pages : Region → Nat
  priority : Region → Nat
  null : Region
  pages_pos : ∀ region, 0 < pages region
  null_pages : pages null = 1

/-- `&region->start[index]`. -/
abbrev MemoryBlock (Region : Type*) := Region × Nat

/-- `PAGING::TOTAL_PAGES`: pages have 512 bytes. -/
def totalPages : Nat := 2 ^ 23

/-- `region_entry`: the regions over one interval, in pointer order, and the
visible one. -/
structure RegionEntry (Region : Type*) where
  sections : List Region
  prio : Option Region
deriving DecidableEq

/-- `memory_map<T>`: the page table and the overlay. -/
structure MemoryMap (Region : Type*) where
  map : Nat → MemoryBlock Region
  ovl : SplitIntervalMap (RegionEntry Region)

section

variable {Region : Type*} (table : RegionTable Region)

/-! ### Entries -/

/-- `region_entry::recalc_prio`; a clash of priorities is only reported. -/
def recalcPrio : List Region → Option Region
  | [] => none
  | first :: sections =>
      some (sections.foldl
        (fun prio region => if table.priority region > table.priority prio then region else prio)
        first)

namespace RegionEntry

/-- The entry for one region alone. -/
def single (region : Region) : RegionEntry Region where
  sections := [region]
  prio := recalcPrio table [region]

/-- `region_entry::operator +=`: merge the ordered lists. -/
def add [LinearOrder Region] (entry other : RegionEntry Region) : RegionEntry Region :=
  let sections := other.sections.foldl
    (fun sections region => sections.orderedInsert (· ≤ ·) region) entry.sections
  { sections := sections, prio := recalcPrio table sections }

/-- `region_entry::operator -=`: the difference of the ordered lists. -/
def sub [DecidableEq Region] (entry other : RegionEntry Region) : RegionEntry Region :=
  let sections := entry.sections.diff other.sections
  { sections := sections, prio := recalcPrio table sections }

end RegionEntry

/-! ### The page table -/

/-- The loop of `apply_mapping`, with `page` running up to the end of the
interval and `i` counting from zero. -/
def applyMappingLoop (region : Region) :
    (remaining page i : Nat) → (Nat → MemoryBlock Region) → Nat → MemoryBlock Region
  | 0, _, _, map => map
  | remaining + 1, page, i, map =>
      applyMappingLoop region remaining (page + 1) (i + 1)
        (Function.update map page (region, i % table.pages region))

/-- `memory_map<T>::apply_mapping`. -/
def applyMapping (region : Region) (lower upper : Nat) (map : Nat → MemoryBlock Region) :
    Nat → MemoryBlock Region :=
  applyMappingLoop table region (upper - lower) lower 0 map

/-- One segment of `memory_map<T>::apply_mapping_internal`. -/
def applySegment (map : Nat → MemoryBlock Region)
    (segment : SplitIntervalMap.Segment (RegionEntry Region)) : Nat → MemoryBlock Region :=
  match segment.value.prio with
  | some region => applyMapping table region segment.lower segment.upper map
  | none => map

namespace MemoryMap

/-- `memory_map<T>::init_null`. -/
def initNull [LinearOrder Region] : MemoryMap Region where
  map := fun _ => (table.null, 0)
  ovl := SplitIntervalMap.empty.add (RegionEntry.add table) 0 totalPages
    (RegionEntry.single table table.null)

/-- `memory_map<T>::map_region`. -/
def mapRegion [LinearOrder Region] (memory : MemoryMap Region) (region : Region)
    (lower upper : Nat) :
    MemoryMap Region :=
  let ovl := memory.ovl.add (RegionEntry.add table) lower upper (RegionEntry.single table region)
  { map := (ovl.intersect [(lower, upper)]).foldl (applySegment table) memory.map
    ovl := ovl }

/-- The intervals in which a region is visible.  An interval set joins touching
intervals; the cuts of the overlay undo that when they are intersected. -/
def visibleIntervals [DecidableEq Region] (memory : MemoryMap Region) (region : Region) :
    List (Nat × Nat) :=
  (memory.ovl.segments.filter (·.value.prio = some region)).map
    fun segment => (segment.lower, segment.upper)

/-- `memory_map<T>::unmap`. -/
def unmap [DecidableEq Region] (memory : MemoryMap Region) (region : Region) : MemoryMap Region :=
  let intervals := memory.visibleIntervals region
  let ovl := memory.ovl.sub (RegionEntry.sub table) 0 totalPages (RegionEntry.single table region)
  { map := (ovl.intersect intervals).foldl (applySegment table) memory.map
    ovl := ovl }

end MemoryMap

/-! ### What the loops compute -/

theorem applyMappingLoop_apply (region : Region) (remaining page i : Nat)
    (map : Nat → MemoryBlock Region) (point : Nat) :
    applyMappingLoop table region remaining page i map point =
      if page ≤ point ∧ point < page + remaining then
        (region, (i + (point - page)) % table.pages region)
      else map point := by
  induction remaining generalizing page i map with
  | zero => rw [applyMappingLoop, if_neg (by omega)]
  | succ remaining ih =>
      rw [applyMappingLoop, ih, Function.update_apply]
      obtain rfl | later | outside :
          point = page ∨ (page + 1 ≤ point ∧ point < page + (remaining + 1)) ∨
            ¬ (page ≤ point ∧ point < page + (remaining + 1)) := by omega
      · rw [if_neg (by omega), if_pos rfl, if_pos (by omega), Nat.sub_self, Nat.add_zero]
      · rw [if_pos (by omega), if_pos (by omega)]
        congr 2
        omega
      · rw [if_neg (by omega), if_neg (by omega), if_neg outside]

/-- `apply_mapping` counts blocks from the start of the interval it is given. -/
theorem applyMapping_apply (region : Region) (lower upper : Nat)
    (map : Nat → MemoryBlock Region) (point : Nat) :
    applyMapping table region lower upper map point =
      if lower ≤ point ∧ point < upper then
        (region, (point - lower) % table.pages region)
      else map point := by
  rw [applyMapping, applyMappingLoop_apply, Nat.zero_add]
  by_cases proper : lower ≤ upper
  · rw [Nat.add_sub_cancel' proper]
  · rw [if_neg (by omega), if_neg (by omega)]

/-- After a pass over segments a page holds the block that a segment around it
with a visible region gives it, or what it held before. -/
theorem foldl_applySegment_cases (segments : List (SplitIntervalMap.Segment (RegionEntry Region)))
    (map : Nat → MemoryBlock Region) (page : Nat) :
    (∃ segment ∈ segments, ∃ region, segment.Contains page ∧ segment.value.prio = some region ∧
        segments.foldl (applySegment table) map page =
          (region, (page - segment.lower) % table.pages region)) ∨
      (∀ segment ∈ segments, segment.Contains page → segment.value.prio = none) ∧
        segments.foldl (applySegment table) map page = map page := by
  have spec (map : Nat → MemoryBlock Region)
      (segment : SplitIntervalMap.Segment (RegionEntry Region)) (page : Nat) :
      applySegment table map segment page =
        if segment.Contains page ∧ segment.value.prio.isSome then
          segment.value.prio.elim (table.null, 0) fun region =>
            (region, (page - segment.lower) % table.pages region)
        else map page := by
    unfold applySegment
    cases visible : segment.value.prio with
    | none => simp
    | some region => simp [applyMapping_apply, SplitIntervalMap.Segment.Contains]
  obtain ⟨segment, member, ⟨inside, visible⟩, equal⟩ | ⟨outside, equal⟩ :=
    SplitIntervalMap.foldl_overwrite_cases spec map segments page
  · obtain ⟨region, visible⟩ := Option.isSome_iff_exists.mp visible
    rw [visible] at equal
    exact Or.inl ⟨segment, member, region, inside, visible, equal⟩
  · refine Or.inr ⟨fun segment member inside => ?_, equal⟩
    by_contra visible
    exact outside segment member ⟨inside, Option.isSome_iff_ne_none.mpr visible⟩

/-- The visible region is one of the sections, and no section has a higher
priority. -/
theorem recalcPrio_spec {sections : List Region} {region : Region}
    (visible : recalcPrio table sections = some region) :
    region ∈ sections ∧ ∀ other ∈ sections, table.priority other ≤ table.priority region := by
  cases sections with
  | nil => cases visible
  | cons first sections =>
      simp only [recalcPrio, Option.some.injEq] at visible
      subst visible
      induction sections using List.reverseRecOn with
      | nil => simp
      | append_singleton sections last ih =>
          rw [List.foldl_append, List.foldl_cons, List.foldl_nil]
          obtain ⟨member, highest⟩ := ih
          split
          next higher =>
            refine ⟨by simp, fun other otherMember => ?_⟩
            obtain earlier | rfl : other ∈ first :: sections ∨ other = last := by
              simpa [or_assoc] using otherMember
            · exact (highest other earlier).trans (Nat.le_of_lt higher)
            · exact le_rfl
          next lower =>
            refine ⟨by simp only [List.mem_cons, List.mem_append] at member ⊢; tauto,
              fun other otherMember => ?_⟩
            obtain earlier | rfl : other ∈ first :: sections ∨ other = last := by
              simpa [or_assoc] using otherMember
            · exact highest other earlier
            · exact Nat.le_of_not_lt lower

theorem recalcPrio_eq_none {sections : List Region} :
    recalcPrio table sections = none ↔ sections = [] := by
  cases sections <;> simp [recalcPrio]

/-! ### Coverage -/

/-- How often an entry lists a region over a page. -/
def MemoryMap.multiplicity [DecidableEq Region] (memory : MemoryMap Region) (region : Region)
    (page : Nat) : Nat :=
  (memory.ovl.get page).elim 0 fun entry => entry.sections.count region

/-- The region is mapped over the page, visible or not. -/
def MemoryMap.Mapped (memory : MemoryMap Region) (region : Region) (page : Nat) : Prop :=
  ∃ entry ∈ memory.ovl.get page, region ∈ entry.sections

theorem MemoryMap.mapped_iff [DecidableEq Region] (memory : MemoryMap Region) (region : Region)
    (page : Nat) : memory.Mapped region page ↔ 0 < memory.multiplicity region page := by
  unfold Mapped multiplicity
  cases memory.ovl.get page with
  | none => simp
  | some entry => simp [List.count_pos_iff]

variable [LinearOrder Region]

theorem MemoryMap.multiplicity_initNull (region : Region) (page : Nat) :
    (initNull table).multiplicity region page =
      if table.null = region ∧ page < totalPages then 1 else 0 := by
  simp only [multiplicity, initNull, SplitIntervalMap.add, SplitIntervalMap.alter,
    SplitIntervalMap.empty, Nat.zero_le, true_and]
  by_cases inside : page < totalPages
  · simp [inside, RegionEntry.single, List.count_singleton]
  · simp [inside]

theorem MemoryMap.multiplicity_mapRegion (memory : MemoryMap Region) (mapped : Region)
    (lower upper : Nat) (region : Region) (page : Nat) :
    (memory.mapRegion table mapped lower upper).multiplicity region page =
      memory.multiplicity region page +
        if mapped = region ∧ lower ≤ page ∧ page < upper then 1 else 0 := by
  simp only [multiplicity, mapRegion, SplitIntervalMap.add, SplitIntervalMap.alter]
  by_cases inside : lower ≤ page ∧ page < upper
  · cases held : memory.ovl.get page with
    | none => simp [inside, RegionEntry.single, List.count_singleton]
    | some entry =>
        simp [inside, RegionEntry.add, RegionEntry.single,
          (List.perm_orderedInsert (· ≤ ·) mapped entry.sections).count_eq, List.count_cons]
  · simp [inside]

theorem MemoryMap.multiplicity_unmap (memory : MemoryMap Region) (unmapped region : Region)
    (page : Nat) :
    (memory.unmap table unmapped).multiplicity region page =
      memory.multiplicity region page -
        if unmapped = region ∧ page < totalPages then 1 else 0 := by
  simp only [multiplicity, unmap, SplitIntervalMap.sub, SplitIntervalMap.alter, Nat.zero_le,
    true_and]
  by_cases inside : page < totalPages
  · cases held : memory.ovl.get page with
    | none => simp [inside]
    | some entry => simp [inside, RegionEntry.sub, RegionEntry.single, List.count_erase]
  · simp [inside]

end

end Ndse
