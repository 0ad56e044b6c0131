import Ndse.Library.LabelledRun
import Ndse.MemoryMap
import Mathlib.Data.Fintype.Basic
import Mathlib.Data.List.Nodup

/-!
# Which block a page resolves to

A page should resolve to the block of the visible region at its distance from
the start of that region's interval.  The page table is rewritten segment by
segment, and every segment starts counting blocks anew, so the distance is
right only for segments that start a whole number of region lengths into the
interval.  Over every run of map and unmap calls the page table is exact as
long as all rewritten segments start so, and no longer.
-/

namespace Ndse

/-- Where each region is currently mapped. -/
abbrev Placement (Region : Type*) := Region → Option (Nat × Nat)

section

variable {Region : Type*} (table : RegionTable Region)

namespace Placement

/-- The region is mapped over the page. -/
def Covers (placement : Placement Region) (region : Region) (page : Nat) : Prop :=
  ∃ span ∈ placement region, span.1 ≤ page ∧ page < span.2

instance (placement : Placement Region) (region : Region) (page : Nat) :
    Decidable (placement.Covers region page) :=
  inferInstanceAs (Decidable (∃ span ∈ placement region, _))

/-- The region has the highest priority of those mapped over the page. -/
def Top (placement : Placement Region) (region : Region) (page : Nat) : Prop :=
  placement.Covers region page ∧
    ∀ other, other ≠ region → placement.Covers other page →
      table.priority other < table.priority region

instance [Fintype Region] [DecidableEq Region] (placement : Placement Region)
    (region : Region) (page : Nat) : Decidable (placement.Top table region page) :=
  inferInstanceAs (Decidable (_ ∧ _))

theorem Top.unique {placement : Placement Region} {first second : Region} {page : Nat}
    (firstTop : placement.Top table first page) (secondTop : placement.Top table second page) :
    first = second := by
  by_contra different
  have below := firstTop.2 second (Ne.symm different) secondTop.1
  have above := secondTop.2 first different firstTop.1
  omega

end Placement

/-! ### Runs of map and unmap calls -/

/-- A call to the memory map. -/
inductive MapCall (Region : Type*)
  | mapRegion (region : Region) (lower upper : Nat)
  | unmap (region : Region)

/-- The memory map beside the placement the calls so far ask for. -/
structure MapRun (Region : Type*) where
  memory : MemoryMap Region
  placement : Placement Region

variable [LinearOrder Region]

/-- The state after `init_null`. -/
def MapRun.initNull : MapRun Region where
  memory := MemoryMap.initNull table
  placement := Function.update (fun _ => none) table.null (some (0, totalPages))

def mapStep (run : MapRun Region) : MapCall Region → MapRun Region
  | .mapRegion region lower upper =>
      { memory := run.memory.mapRegion table region lower upper
        placement := Function.update run.placement region (some (lower, upper)) }
  | .unmap region =>
      { memory := run.memory.unmap table region
        placement := Function.update run.placement region none }

/-- A map call maps a region that is not mapped, over pages that exist, and
shares no page with a region of equal priority. -/
def WellFormedCall (run : MapRun Region) : MapCall Region → Prop
  | .mapRegion region lower upper =>
      run.placement region = none ∧ lower < upper ∧ upper ≤ totalPages ∧
        ∀ other, ∀ span ∈ run.placement other, span.1 < upper → lower < span.2 →
          table.priority other ≠ table.priority region
  | .unmap _ => True

/-- Every page resolves to the block of its visible region at its distance from
the start of that region. -/
def PageExact (run : MapRun Region) : Prop :=
  ∀ page region, run.placement.Top table region page → ∀ span ∈ run.placement region,
    run.memory.map page = (region, (page - span.1) % table.pages region)

/-- The region visible at a page starts a whole number of its lengths before. -/
def AlignedAt (placement : Placement Region) (page : Nat) : Prop :=
  ∀ region, placement.Top table region page → ∀ span ∈ placement region,
    (page - span.1) % table.pages region = 0

/-- The call leaves aligned every segment start among the pages it rewrites:
those of the interval that is mapped, or those where the unmapped region was
visible. -/
def AlignedCall (run : MapRun Region) : MapCall Region → Prop
  | .mapRegion region lower upper =>
      ∀ cut ∈ lower :: run.memory.ovl.cuts, lower ≤ cut → cut < upper →
        AlignedAt table (Function.update run.placement region (some (lower, upper))) cut
  | .unmap region =>
      ∀ cut ∈ run.memory.ovl.cuts, run.placement.Top table region cut →
        AlignedAt table (Function.update run.placement region none) cut

/-! ### The overlay lists what is mapped -/

variable {table}

/-- An entry lists the regions over its page in order, with the visible one. -/
structure EntryFor (table : RegionTable Region) (placement : Placement Region) (page : Nat)
    (entry : RegionEntry Region) : Prop where
  ordered : entry.sections.Pairwise (· < ·)
  mem : ∀ region, region ∈ entry.sections ↔ placement.Covers region page
  visible : entry.prio = recalcPrio table entry.sections

/-- The overlay agrees with the placement. -/
structure OverlayAgrees (table : RegionTable Region) (run : MapRun Region) : Prop where
  domain : ∀ page, (run.memory.ovl.get page).isSome ↔ page < totalPages
  entries : ∀ page entry, run.memory.ovl.get page = some entry →
    EntryFor table run.placement page entry
  spans : ∀ region, ∀ span ∈ run.placement region, span.2 ≤ totalPages
  noClash : ∀ page first second, run.placement.Covers first page →
    run.placement.Covers second page → first ≠ second →
      table.priority first ≠ table.priority second

theorem EntryFor.top {placement : Placement Region} {page : Nat} {entry : RegionEntry Region}
    (listed : EntryFor table placement page entry)
    (noClash : ∀ first second, placement.Covers first page → placement.Covers second page →
      first ≠ second → table.priority first ≠ table.priority second)
    {region : Region} (visible : entry.prio = some region) :
    placement.Top table region page := by
  rw [listed.visible] at visible
  obtain ⟨member, highest⟩ := recalcPrio_spec table visible
  have covers := (listed.mem region).mp member
  refine ⟨covers, fun other different otherCovers => ?_⟩
  exact lt_of_le_of_ne (highest other ((listed.mem other).mpr otherCovers))
    (noClash other region otherCovers covers different)

theorem EntryFor.prio_of_covers {placement : Placement Region} {page : Nat}
    {entry : RegionEntry Region} (listed : EntryFor table placement page entry)
    {region : Region} (covers : placement.Covers region page) :
    ∃ top, entry.prio = some top := by
  rw [← Option.isSome_iff_exists, Option.isSome_iff_ne_none, listed.visible, Ne,
    recalcPrio_eq_none]
  exact List.ne_nil_of_mem ((listed.mem region).mpr covers)

theorem EntryFor.prio_of_top {placement : Placement Region} {page : Nat}
    {entry : RegionEntry Region} (listed : EntryFor table placement page entry)
    (noClash : ∀ first second, placement.Covers first page → placement.Covers second page →
      first ≠ second → table.priority first ≠ table.priority second)
    {region : Region} (top : placement.Top table region page) : entry.prio = some region := by
  obtain ⟨visible, equal⟩ := listed.prio_of_covers top.1
  rw [equal, (listed.top noClash equal).unique table top]

theorem covers_update (placement : Placement Region) (region : Region)
    (span : Option (Nat × Nat)) (other : Region) (page : Nat) :
    Placement.Covers (Function.update placement region span) other page ↔
      if other = region then ∃ bounds ∈ span, bounds.1 ≤ page ∧ page < bounds.2
      else placement.Covers other page := by
  unfold Placement.Covers
  by_cases same : other = region
  · rw [same, Function.update_self, if_pos rfl]
  · rw [Function.update_of_ne same, if_neg same]

/-- Merging one more region into an entry. -/
theorem EntryFor.add {placement : Placement Region} {page lower upper : Nat}
    {entry : RegionEntry Region} (listed : EntryFor table placement page entry)
    {region : Region} (unmapped : placement region = none) (low : lower ≤ page)
    (high : page < upper) :
    EntryFor table (Function.update placement region (some (lower, upper))) page
      (entry.add table (RegionEntry.single table region)) where
  ordered := by
    refine SplitIntervalMap.orderedInsert_pairwise_lt listed.ordered fun member => ?_
    obtain ⟨span, spanMember, -⟩ := (listed.mem region).mp member
    rw [unmapped] at spanMember
    cases spanMember
  mem := by
    intro other
    simp only [RegionEntry.add, RegionEntry.single, List.foldl_cons, List.foldl_nil,
      List.mem_orderedInsert, listed.mem, covers_update]
    split
    next same => simp [same, low, high]
    next different => simp [different]
  visible := rfl

/-- Removing a region from an entry. -/
theorem EntryFor.sub {placement : Placement Region} {page : Nat}
    {entry : RegionEntry Region} (listed : EntryFor table placement page entry)
    (region : Region) :
    EntryFor table (Function.update placement region none) page
      (entry.sub table (RegionEntry.single table region)) where
  ordered := by
    simp only [RegionEntry.sub, RegionEntry.single, List.diff_cons, List.diff_nil]
    exact listed.ordered.sublist List.erase_sublist
  mem := by
    intro other
    simp only [RegionEntry.sub, RegionEntry.single, List.diff_cons, List.diff_nil]
    rw [List.Nodup.mem_erase_iff (listed.ordered.imp ne_of_lt), listed.mem,
      covers_update]
    split
    next same => simp [same]
    next different => simp [different]
  visible := rfl

/-- An entry stays right where the placement is the same. -/
theorem EntryFor.congr {first second : Placement Region} {page : Nat}
    {entry : RegionEntry Region} (listed : EntryFor table first page entry)
    (same : ∀ region, first.Covers region page ↔ second.Covers region page) :
    EntryFor table second page entry :=
  ⟨listed.ordered, fun region => (listed.mem region).trans (same region), listed.visible⟩

theorem overlayAgrees_initNull (table : RegionTable Region) :
    OverlayAgrees table (MapRun.initNull table) where
  domain := by
    intro page
    simp only [MapRun.initNull, MemoryMap.initNull, SplitIntervalMap.add, SplitIntervalMap.alter,
      SplitIntervalMap.empty]
    by_cases inside : page < totalPages <;> simp [inside]
  entries := by
    intro page entry held
    simp only [MapRun.initNull, MemoryMap.initNull, SplitIntervalMap.add, SplitIntervalMap.alter,
      SplitIntervalMap.empty] at held
    split at held
    next inside =>
      obtain rfl : RegionEntry.single table table.null = entry := by simpa using held
      refine ⟨List.pairwise_singleton _ _, fun region => ?_, rfl⟩
      rw [MapRun.initNull, covers_update]
      by_cases isNull : region = table.null
      · simp [RegionEntry.single, isNull, inside.2]
      · simp [RegionEntry.single, isNull, Placement.Covers]
    next => cases held
  spans := by
    intro region span member
    simp only [MapRun.initNull, Function.update_apply] at member
    split at member
    · obtain rfl : (0, totalPages) = span := by simpa using member
      exact le_rfl
    · cases member
  noClash := by
    intro page first second firstCovers secondCovers different
    simp only [MapRun.initNull, covers_update] at firstCovers secondCovers
    split at firstCovers <;> split at secondCovers <;>
      simp_all [Placement.Covers]

theorem OverlayAgrees.mapRegion {run : MapRun Region} (agrees : OverlayAgrees table run)
    {region : Region} {lower upper : Nat}
    (formed : WellFormedCall table run (.mapRegion region lower upper)) :
    OverlayAgrees table (mapStep table run (.mapRegion region lower upper)) := by
  obtain ⟨unmapped, proper, inTable, apart⟩ := formed
  refine ⟨fun page => ?_, fun page entry held => ?_, fun other span member => ?_, ?_⟩
  · simp only [mapStep, MemoryMap.mapRegion, SplitIntervalMap.add, SplitIntervalMap.alter]
    split
    next inside => simp; omega
    next => exact agrees.domain page
  · simp only [mapStep, MemoryMap.mapRegion, SplitIntervalMap.add, SplitIntervalMap.alter]
      at held ⊢
    split at held
    next inside =>
      obtain ⟨old, oldHeld⟩ := Option.isSome_iff_exists.mp
        ((agrees.domain page).mpr (inside.2.trans_le inTable))
      rw [oldHeld, Option.some.injEq] at held
      subst held
      exact (agrees.entries page old oldHeld).add unmapped inside.1 inside.2
    next outside =>
      refine (agrees.entries page entry held).congr fun other => ?_
      rw [covers_update]
      split
      next same => simp [same, Placement.Covers, unmapped]; omega
      next => rfl
  · simp only [mapStep, Function.update_apply] at member
    split at member
    · obtain rfl : (lower, upper) = span := by simpa using member
      exact inTable
    · exact agrees.spans other span member
  · intro page first second firstCovers secondCovers different
    simp only [mapStep, covers_update] at firstCovers secondCovers
    have clear (other : Region) (covers : run.placement.Covers other page)
        (inside : lower ≤ page ∧ page < upper) :
        table.priority other ≠ table.priority region := by
      obtain ⟨span, member, low, high⟩ := covers
      exact apart other span member (by omega) (by omega)
    split at firstCovers
    next isRegion =>
      obtain ⟨bounds, boundsEq, inside⟩ := firstCovers
      obtain rfl : (lower, upper) = bounds := by simpa using boundsEq
      rw [if_neg (by rw [← isRegion]; exact Ne.symm different)] at secondCovers
      rw [isRegion]
      exact (clear second secondCovers inside).symm
    next notRegion =>
      split at secondCovers
      next isRegion =>
        obtain ⟨bounds, boundsEq, inside⟩ := secondCovers
        obtain rfl : (lower, upper) = bounds := by simpa using boundsEq
        rw [isRegion]
        exact clear first firstCovers inside
      next => exact agrees.noClash page first second firstCovers secondCovers different

theorem OverlayAgrees.unmap {run : MapRun Region} (agrees : OverlayAgrees table run)
    (region : Region) : OverlayAgrees table (mapStep table run (.unmap region)) := by
  have kept (other : Region) (page : Nat)
      (covers : Placement.Covers (Function.update run.placement region none) other page) :
      run.placement.Covers other page := by
    rw [covers_update] at covers
    split at covers
    · simp at covers
    · exact covers
  refine ⟨fun page => ?_, fun page entry held => ?_, fun other span member => ?_, ?_⟩
  · simp only [mapStep, MemoryMap.unmap, SplitIntervalMap.sub, SplitIntervalMap.alter]
    refine Iff.trans ?_ (agrees.domain page)
    split <;> simp
  · simp only [mapStep, MemoryMap.unmap, SplitIntervalMap.sub, SplitIntervalMap.alter] at held ⊢
    split at held
    next inside =>
      obtain ⟨old, oldHeld, rfl⟩ := Option.map_eq_some_iff.mp held
      exact (agrees.entries page old oldHeld).sub region
    next outside =>
      have inTable := (agrees.domain page).mp (by rw [held]; rfl)
      exact absurd ⟨Nat.zero_le page, inTable⟩ outside
  · simp only [mapStep, Function.update_apply] at member
    split at member
    · cases member
    · exact agrees.spans other span member
  · intro page first second firstCovers secondCovers different
    exact agrees.noClash page first second (kept first page firstCovers)
      (kept second page secondCovers) different

theorem OverlayAgrees.step {run : MapRun Region} (agrees : OverlayAgrees table run)
    {call : MapCall Region} (formed : WellFormedCall table run call) :
    OverlayAgrees table (mapStep table run call) := by
  cases call with
  | mapRegion region lower upper => exact agrees.mapRegion formed
  | unmap region => exact agrees.unmap region

theorem OverlayAgrees.prio_iff_top {run : MapRun Region} (agrees : OverlayAgrees table run)
    {page : Nat} {entry : RegionEntry Region} (held : run.memory.ovl.get page = some entry)
    (region : Region) :
    entry.prio = some region ↔ run.placement.Top table region page :=
  ⟨(agrees.entries page entry held).top (agrees.noClash page),
    (agrees.entries page entry held).prio_of_top (agrees.noClash page)⟩

theorem OverlayAgrees.get_of_covers {run : MapRun Region} (agrees : OverlayAgrees table run)
    {region : Region} {page : Nat} (covers : run.placement.Covers region page) :
    ∃ entry, run.memory.ovl.get page = some entry := by
  obtain ⟨span, member, -, high⟩ := covers
  exact Option.isSome_iff_exists.mp
    ((agrees.domain page).mpr (high.trans_le (agrees.spans region span member)))

/-! ### The page table follows the overlay -/

/-- Counting blocks from a point that is aligned counts them from the start of
the region. -/
theorem sub_mod_eq_of_aligned {start lower page pages : Nat} (startLe : start ≤ lower)
    (lowerLe : lower ≤ page) (aligned : (lower - start) % pages = 0) :
    (page - lower) % pages = (page - start) % pages := by
  have split : page - start = (page - lower) + (lower - start) := by omega
  rw [split, Nat.add_mod, aligned, Nat.add_zero, Nat.mod_mod]

/-- Rewriting segments that all start aligned makes their pages exact. -/
theorem foldl_applySegment_exact {memory : MemoryMap Region} {placement : Placement Region}
    (agrees : OverlayAgrees table ⟨memory, placement⟩) {intervals : List (Nat × Nat)}
    {map : Nat → MemoryBlock Region} {page : Nat}
    {interval : Nat × Nat} (member : interval ∈ intervals) (low : interval.1 ≤ page)
    (high : page < interval.2)
    (aligned : ∀ segment ∈ memory.ovl.intersect intervals, segment.Contains page →
      AlignedAt table placement segment.lower)
    {region : Region} (top : placement.Top table region page) {span : Nat × Nat}
    (spanMember : span ∈ placement region) :
    (memory.ovl.intersect intervals).foldl (applySegment table) map page =
      (region, (page - span.1) % table.pages region) := by
  obtain ⟨entry, held⟩ := agrees.get_of_covers top.1
  have visible : entry.prio = some region := (agrees.prio_iff_top held region).mpr top
  obtain ⟨segment, segmentMember, written, inside, prio, equal⟩ | ⟨silent, -⟩ :=
    foldl_applySegment_cases table (memory.ovl.intersect intervals) map page
  · obtain ⟨_, -, starts, -, values⟩ := memory.ovl.mem_intersect segmentMember
    obtain ⟨-, -, heldHere⟩ := values page inside
    obtain ⟨-, -, heldStart⟩ := values segment.lower starts
    have sameEntry : entry = segment.value := Option.some.inj (held.symm.trans heldHere)
    obtain rfl : written = region := Option.some.inj (by rw [← prio, ← sameEntry, visible])
    have topStart : placement.Top table written segment.lower :=
      (agrees.prio_iff_top heldStart written).mp prio
    obtain ⟨covering, coveringMember, startLe, -⟩ := topStart.1
    obtain rfl : covering = span :=
      Option.some.inj (coveringMember.symm.trans spanMember)
    rw [equal, sub_mod_eq_of_aligned startLe inside.1
      (aligned segment segmentMember inside written topStart covering spanMember)]
  · obtain ⟨segment, segmentMember, inside, value⟩ :=
      memory.ovl.exists_mem_intersect member low high held
    rw [← value, silent segment segmentMember inside] at visible
    cases visible

/-- A rewritten segment start resolves to the first block of its region, so an
exact page table has it aligned. -/
theorem aligned_of_exact {memory : MemoryMap Region} {placement : Placement Region}
    (agrees : OverlayAgrees table ⟨memory, placement⟩) {intervals : List (Nat × Nat)}
    {map : Nat → MemoryBlock Region} {cut : Nat} (isCut : cut ∈ memory.ovl.cuts)
    {interval : Nat × Nat} (member : interval ∈ intervals) (low : interval.1 ≤ cut)
    (high : cut < interval.2)
    (rewritten : memory.map = (memory.ovl.intersect intervals).foldl (applySegment table) map)
    (exact : PageExact table ⟨memory, placement⟩) : AlignedAt table placement cut := by
  intro region top span spanMember
  have resolved : memory.map cut = (region, (cut - span.1) % table.pages region) :=
    exact cut region top span spanMember
  obtain ⟨entry, held⟩ := agrees.get_of_covers top.1
  have visible : entry.prio = some region := (agrees.prio_iff_top held region).mpr top
  rw [rewritten] at resolved
  obtain ⟨segment, segmentMember, written, inside, prio, equal⟩ | ⟨silent, -⟩ :=
    foldl_applySegment_cases table (memory.ovl.intersect intervals) map cut
  · rw [equal, memory.ovl.lower_eq_of_mem_intersect segmentMember isCut inside, Nat.sub_self,
      Nat.zero_mod] at resolved
    obtain ⟨rfl, first⟩ := Prod.mk.inj resolved
    exact first.symm
  · obtain ⟨segment, segmentMember, inside, value⟩ :=
      memory.ovl.exists_mem_intersect member low high held
    rw [← value, silent segment segmentMember inside] at visible
    cases visible

omit [LinearOrder Region] in
/-- Pages outside the intervals keep their block. -/
theorem foldl_applySegment_outside (memory : MemoryMap Region)
    {intervals : List (Nat × Nat)} {map : Nat → MemoryBlock Region} {page : Nat}
    (outside : ∀ interval ∈ intervals, ¬ (interval.1 ≤ page ∧ page < interval.2)) :
    (memory.ovl.intersect intervals).foldl (applySegment table) map page = map page := by
  obtain ⟨segment, segmentMember, _, inside, -⟩ | ⟨-, equal⟩ :=
    foldl_applySegment_cases table (memory.ovl.intersect intervals) map page
  · obtain ⟨interval, member, -, -, values⟩ := memory.ovl.mem_intersect segmentMember
    obtain ⟨low, high, -⟩ := values page inside
    exact absurd ⟨low, high⟩ (outside interval member)
  · exact equal

/-- The intervals of a region hold exactly the pages where it is visible, and
start at cuts. -/
theorem OverlayAgrees.mem_visibleIntervals {run : MapRun Region}
    (agrees : OverlayAgrees table run) {region : Region} {interval : Nat × Nat}
    (member : interval ∈ run.memory.visibleIntervals region) :
    interval.1 ∈ run.memory.ovl.cuts ∧
      ∀ page, interval.1 ≤ page → page < interval.2 →
        run.placement.Top table region page := by
  simp only [MemoryMap.visibleIntervals, List.mem_map, List.mem_filter,
    decide_eq_true_eq] at member
  obtain ⟨segment, ⟨segmentMember, prio⟩, rfl⟩ := member
  obtain ⟨isCut, -, values⟩ := run.memory.ovl.mem_segments segmentMember
  exact ⟨isCut, fun page low high =>
    (agrees.prio_iff_top (values page ⟨low, high⟩) region).mp prio⟩

theorem OverlayAgrees.exists_visibleInterval {run : MapRun Region}
    (agrees : OverlayAgrees table run) {region : Region} {page : Nat}
    (top : run.placement.Top table region page) :
    ∃ interval ∈ run.memory.visibleIntervals region,
      interval.1 ≤ page ∧ page < interval.2 := by
  obtain ⟨entry, held⟩ := agrees.get_of_covers top.1
  obtain ⟨segment, segmentMember, inside, rfl⟩ := run.memory.ovl.exists_segment held
  refine ⟨(segment.lower, segment.upper), ?_, inside⟩
  simp only [MemoryMap.visibleIntervals, List.mem_map, List.mem_filter, decide_eq_true_eq]
  exact ⟨segment, ⟨segmentMember, (agrees.prio_iff_top held region).mpr top⟩, rfl⟩

/-- Where the unmapped region was not visible, the same region stays visible. -/
theorem OverlayAgrees.top_of_unmap {run : MapRun Region} (agrees : OverlayAgrees table run)
    {region visible : Region} {page : Nat}
    (top : Placement.Top table (Function.update run.placement region none) visible page)
    (hidden : ¬ run.placement.Top table region page) :
    run.placement.Top table visible page := by
  obtain ⟨covers, highest⟩ := top
  rw [covers_update] at covers
  split at covers
  · simp at covers
  next different =>
    obtain ⟨entry, held⟩ := agrees.get_of_covers covers
    obtain ⟨previous, prio⟩ := (agrees.entries page entry held).prio_of_covers covers
    have previousTop := (agrees.prio_iff_top held previous).mp prio
    by_cases same : previous = visible
    · exact same ▸ previousTop
    · have notRegion : previous ≠ region := fun equal => hidden (equal ▸ previousTop)
      have below := highest previous same (by
        rw [covers_update, if_neg notRegion]
        exact previousTop.1)
      have above := previousTop.2 visible (Ne.symm same) covers
      omega

theorem PageExact.mapRegion {run : MapRun Region} (agrees : OverlayAgrees table run)
    (exact : PageExact table run) {region : Region} {lower upper : Nat}
    (formed : WellFormedCall table run (.mapRegion region lower upper))
    (aligned : AlignedCall table run (.mapRegion region lower upper)) :
    PageExact table (mapStep table run (.mapRegion region lower upper)) := by
  have after := agrees.mapRegion formed
  obtain ⟨unmapped, proper, inTable, -⟩ := formed
  intro page visible top span spanMember
  by_cases inside : lower ≤ page ∧ page < upper
  · refine foldl_applySegment_exact after (List.mem_singleton.mpr rfl) inside.1 inside.2 ?_
      top spanMember
    intro segment segmentMember _
    obtain ⟨interval, member, starts, place, values⟩ :=
      (run.memory.mapRegion table region lower upper).ovl.mem_intersect segmentMember
    obtain rfl := List.mem_singleton.mp member
    obtain ⟨low, high, -⟩ := values segment.lower starts
    refine aligned segment.lower ?_ low high
    obtain isLower | isCut := place
    · exact isLower ▸ List.mem_cons_self
    · simp only [MemoryMap.mapRegion, SplitIntervalMap.add, SplitIntervalMap.alter,
        SplitIntervalMap.mem_insertCut] at isCut
      obtain isLower | isUpper | isCut := isCut
      · exact isLower ▸ List.mem_cons_self
      · exact absurd high (by simp [isUpper])
      · exact List.mem_cons_of_mem _ isCut
  · have kept : (mapStep table run (.mapRegion region lower upper)).memory.map page =
        run.memory.map page :=
      foldl_applySegment_outside (run.memory.mapRegion table region lower upper)
        fun interval member => by rwa [List.mem_singleton.mp member]
    have coversIff (other : Region) :
        Placement.Covers (Function.update run.placement region (some (lower, upper))) other page ↔
          run.placement.Covers other page := by
      rw [covers_update]
      split
      next same => simp [same, Placement.Covers, unmapped]; omega
      next => rfl
    have topBefore : run.placement.Top table visible page :=
      ⟨(coversIff visible).mp top.1, fun other different covers =>
        top.2 other different ((coversIff other).mpr covers)⟩
    have different : visible ≠ region := by
      rintro rfl
      obtain ⟨bounds, member, -⟩ := topBefore.1
      rw [unmapped] at member
      cases member
    simp only [mapStep, Function.update_of_ne different] at spanMember
    rw [kept]
    exact exact page visible topBefore span spanMember

theorem PageExact.unmap {run : MapRun Region} (agrees : OverlayAgrees table run)
    (exact : PageExact table run) {region : Region}
    (aligned : AlignedCall table run (.unmap region)) :
    PageExact table (mapStep table run (.unmap region)) := by
  have after := agrees.unmap region
  intro page visible top span spanMember
  by_cases uncovered : run.placement.Top table region page
  · obtain ⟨around, aroundMember, low, high⟩ := agrees.exists_visibleInterval uncovered
    refine foldl_applySegment_exact after aroundMember low high ?_ top spanMember
    intro segment segmentMember _
    obtain ⟨interval, member, starts, place, values⟩ :=
      (run.memory.unmap table region).ovl.mem_intersect segmentMember
    obtain ⟨low, high, held⟩ := values segment.lower starts
    obtain ⟨startsAtCut, visibleThere⟩ := agrees.mem_visibleIntervals member
    refine aligned segment.lower ?_ (visibleThere segment.lower low high)
    obtain isStart | isCut := place
    · exact isStart ▸ startsAtCut
    · simp only [MemoryMap.unmap, SplitIntervalMap.sub, SplitIntervalMap.alter,
        SplitIntervalMap.mem_insertCut] at isCut
      obtain isZero | isEnd | isCut := isCut
      · rw [isZero]
        exact run.memory.ovl.opens ((agrees.domain 0).mpr (by decide))
      · have inTable := (after.domain segment.lower).mp (Option.isSome_iff_exists.mpr ⟨_, held⟩)
        omega
      · exact isCut
  · have kept : (mapStep table run (.unmap region)).memory.map page = run.memory.map page :=
      foldl_applySegment_outside (run.memory.unmap table region)
        fun interval member inside =>
          uncovered ((agrees.mem_visibleIntervals member).2 page inside.1 inside.2)
    have different : visible ≠ region := by
      rintro rfl
      simp [mapStep] at spanMember
    simp only [mapStep, Function.update_of_ne different] at spanMember
    rw [kept]
    exact exact page visible (agrees.top_of_unmap top uncovered) span spanMember

theorem alignedCall_of_exact {run : MapRun Region} (agrees : OverlayAgrees table run)
    {call : MapCall Region} (formed : WellFormedCall table run call)
    (exact : PageExact table (mapStep table run call)) : AlignedCall table run call := by
  have after := agrees.step formed
  cases call with
  | mapRegion region lower upper =>
      intro cut member low high
      refine aligned_of_exact after ?_ (List.mem_singleton.mpr rfl) low high rfl exact
      simp only [MemoryMap.mapRegion, SplitIntervalMap.add, SplitIntervalMap.alter,
        SplitIntervalMap.mem_insertCut]
      obtain isLower | isCut := List.mem_cons.mp member
      · exact Or.inl isLower
      · exact Or.inr (Or.inr isCut)
  | unmap region =>
      intro cut member top
      obtain ⟨around, aroundMember, low, high⟩ := agrees.exists_visibleInterval top
      refine aligned_of_exact after ?_ aroundMember low high rfl exact
      simp only [MemoryMap.unmap, SplitIntervalMap.sub, SplitIntervalMap.alter,
        SplitIntervalMap.mem_insertCut]
      exact Or.inr (Or.inr member)

theorem pageExact_initNull (table : RegionTable Region) :
    PageExact table (MapRun.initNull table) := by
  intro page region top span spanMember
  simp only [MapRun.initNull, Function.update_apply] at spanMember
  split at spanMember
  next isNull =>
    rw [isNull, table.null_pages, Nat.mod_one]
    rfl
  next => cases spanMember

end

/-- Over every run of map and unmap calls from `init_null` in which regions of
equal priority never share a page and no region is mapped twice, every page
always resolves to the block of its visible region at its distance from the
start of that region exactly when every call finds aligned the segment starts
among the pages it rewrites. -/
theorem pageExact_iff {Region : Type*} [LinearOrder Region] (table : RegionTable Region)
    (calls : List (MapCall Region))
    (formed : LabelledRun.EveryStep (mapStep table) (WellFormedCall table)
      (MapRun.initNull table) calls) :
    LabelledRun.Always (mapStep table) (PageExact table) (MapRun.initNull table) calls ↔
      LabelledRun.EveryStep (mapStep table) (AlignedCall table) (MapRun.initNull table) calls := by
  refine LabelledRun.always_iff_everyStep
    (fun (run : MapRun Region) (inv : OverlayAgrees table run ∧ PageExact table run) => inv.2)
    (fun run call inv callFormed aligned => ⟨inv.1.step callFormed, ?_⟩)
    (fun run call inv callFormed exact => alignedCall_of_exact inv.1 callFormed exact)
    ⟨overlayAgrees_initNull table, pageExact_initNull table⟩ formed
  cases call with
  | mapRegion region lower upper => exact PageExact.mapRegion inv.1 inv.2 callFormed aligned
  | unmap region => exact PageExact.unmap inv.1 inv.2 aligned

/-- Three regions: the null region, one of four blocks and one of two blocks
in front of it. -/
def threeRegions : RegionTable (Fin 3) where
  pages := fun region => #v[1, 4, 2][region]
  priority := fun region => #v[0, 1, 2][region]
  null := 0
  pages_pos := by decide
  null_pages := rfl

instance {Region : Type*} [Fintype Region] [LinearOrder Region] (table : RegionTable Region)
    (run : MapRun Region) : DecidablePred (WellFormedCall table run)
  | .mapRegion _ _ _ => inferInstanceAs (Decidable (_ ∧ _ ∧ _ ∧ ∀ other,
      ∀ span ∈ run.placement other, _ → _ → _))
  | .unmap _ => isTrue trivial

/-- Mapping and unmapping one region alone stays exact, by the equivalence. -/
theorem pageExact_iff_alone :
    let calls := [.mapRegion 1 8 16, .unmap 1]
    LabelledRun.Always (mapStep threeRegions) (PageExact threeRegions)
        (MapRun.initNull threeRegions) calls ↔
      LabelledRun.EveryStep (mapStep threeRegions) (AlignedCall threeRegions)
        (MapRun.initNull threeRegions) calls :=
  pageExact_iff threeRegions _ (by decide)

/-- Uncovering the middle of a region restarts its blocks: page 10 resolves to
the first block and not the third. -/
theorem pageExact_fails_uncovered :
    let calls := [.mapRegion 1 8 16, .mapRegion 2 10 12, .unmap 2]
    LabelledRun.EveryStep (mapStep threeRegions) (WellFormedCall threeRegions)
        (MapRun.initNull threeRegions) calls ∧
      ¬ PageExact threeRegions
        (calls.foldl (mapStep threeRegions) (MapRun.initNull threeRegions)) := by
  refine ⟨by decide, fun exact => ?_⟩
  have resolved := exact 10 1 (by decide) (8, 16) rfl
  revert resolved
  decide

end Ndse
