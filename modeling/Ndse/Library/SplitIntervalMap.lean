import Mathlib.Data.List.Sort
import Mathlib.Order.Interval.Set.Basic

/-!
# Interval maps that split and never join

A map from points to values that changes its value only at recorded cuts.
Adding to a half-open interval combines pointwise and cuts at both ends of the
interval; no operation removes a cut.  Iterating the map yields the segments
between successive cuts, each with the one value it holds there.  A pass that
overwrites a pointwise table segment by segment is described by what one
segment writes.
-/

/-- A pointwise map with the cuts between which it is constant. -/
structure SplitIntervalMap (V : Type*) where
  get : Nat → Option V
  cuts : List Nat
  sorted : cuts.Pairwise (· < ·)
  constant : ∀ point, point + 1 ∉ cuts → get (point + 1) = get point
  opens : (get 0).isSome → 0 ∈ cuts
  closes : ∀ point, (get point).isSome → ∃ cut ∈ cuts, point < cut

namespace SplitIntervalMap

variable {V : Type*}

/-- One run of points with a common value. -/
structure Segment (V : Type*) where
  lower : Nat
  upper : Nat
  value : V

namespace Segment

/-- The points of a segment. -/
def Contains (segment : Segment V) (point : Nat) : Prop :=
  segment.lower ≤ point ∧ point < segment.upper

instance (segment : Segment V) (point : Nat) : Decidable (segment.Contains point) :=
  inferInstanceAs (Decidable (_ ∧ _))

/-- The part of a segment inside an interval, if there is one. -/
def clip (segment : Segment V) (lower upper : Nat) : Option (Segment V) :=
  if max segment.lower lower < min segment.upper upper then
    some ⟨max segment.lower lower, min segment.upper upper, segment.value⟩
  else none

end Segment

/-! ### Operations -/

/-- The map without a point. -/
def empty : SplitIntervalMap V where
  get := fun _ => none
  cuts := []
  sorted := List.Pairwise.nil
  constant := fun _ _ => rfl
  opens := fun some => absurd some (by simp)
  closes := fun _ some => absurd some (by simp)

/-- Record a cut. -/
def insertCut (cut : Nat) (cuts : List Nat) : List Nat :=
  if cut ∈ cuts then cuts else cuts.orderedInsert (· ≤ ·) cut

@[simp]
theorem mem_insertCut {cut other : Nat} {cuts : List Nat} :
    other ∈ insertCut cut cuts ↔ other = cut ∨ other ∈ cuts := by
  unfold insertCut
  split
  next member =>
    exact ⟨Or.inr, fun either => either.elim (fun equal => equal ▸ member) id⟩
  next => exact List.mem_orderedInsert (· ≤ ·)

/-- Inserting a new element keeps a list strictly ordered. -/
theorem orderedInsert_pairwise_lt {α : Type*} [LinearOrder α] {new : α} {list : List α}
    (ordered : list.Pairwise (· < ·)) (fresh : new ∉ list) :
    (list.orderedInsert (· ≤ ·) new).Pairwise (· < ·) := by
  have weakly : (list.orderedInsert (· ≤ ·) new).Pairwise (· ≤ ·) :=
    (ordered.imp le_of_lt).orderedInsert new list
  have distinct : (list.orderedInsert (· ≤ ·) new).Nodup := by
    rw [(List.perm_orderedInsert (· ≤ ·) new list).nodup_iff, List.nodup_cons]
    exact ⟨fresh, ordered.imp ne_of_lt⟩
  exact (weakly.and distinct).imp fun both => lt_of_le_of_ne both.1 both.2

theorem insertCut_sorted {cut : Nat} {cuts : List Nat} (sorted : cuts.Pairwise (· < ·)) :
    (insertCut cut cuts).Pairwise (· < ·) := by
  unfold insertCut
  split
  next => exact sorted
  next fresh => exact orderedInsert_pairwise_lt sorted fresh

/-- Rewrite the values of an interval pointwise and cut at its ends. -/
def alter (map : SplitIntervalMap V) (lower upper : Nat) (change : Option V → Option V) :
    SplitIntervalMap V where
  get := fun point =>
    if lower ≤ point ∧ point < upper then change (map.get point) else map.get point
  cuts := insertCut lower (insertCut upper map.cuts)
  sorted := insertCut_sorted (insertCut_sorted map.sorted)
  constant := by
    intro point uncut
    simp only [mem_insertCut, not_or] at uncut
    rw [map.constant point uncut.2.2]
    have same : (lower ≤ point + 1 ∧ point + 1 < upper) ↔ (lower ≤ point ∧ point < upper) := by
      omega
    simp only [same]
  opens := by
    intro present
    rw [mem_insertCut, mem_insertCut]
    split at present
    next inside => exact Or.inl (by omega)
    next => exact Or.inr (Or.inr (map.opens present))
  closes := by
    intro point present
    split at present
    next inside => exact ⟨upper, by simp, inside.2⟩
    next =>
      obtain ⟨cut, member, later⟩ := map.closes point present
      exact ⟨cut, by simp [member], later⟩

/-- `+=`: combine a value with what the interval holds. -/
def add (combine : V → V → V) (map : SplitIntervalMap V) (lower upper : Nat) (value : V) :
    SplitIntervalMap V :=
  map.alter lower upper fun held => some (held.elim value (combine · value))

/-- `-=`: subtract a value from what the interval holds. -/
def sub (separate : V → V → V) (map : SplitIntervalMap V) (lower upper : Nat) (value : V) :
    SplitIntervalMap V :=
  map.alter lower upper fun held => held.map (separate · value)

/-- The runs between successive cuts. -/
def segmentsBetween (get : Nat → Option V) : List Nat → List (Segment V)
  | lower :: upper :: cuts =>
      (get lower).toList.map (⟨lower, upper, ·⟩) ++ segmentsBetween get (upper :: cuts)
  | _ => []

/-- Iterate the map. -/
def segments (map : SplitIntervalMap V) : List (Segment V) :=
  segmentsBetween map.get map.cuts

/-- Intersect the map with a set of intervals and iterate the result. -/
def intersect (map : SplitIntervalMap V) (intervals : List (Nat × Nat)) : List (Segment V) :=
  intervals.flatMap fun interval =>
    map.segments.filterMap (·.clip interval.1 interval.2)

/-! ### Segments -/

theorem get_eq_of_no_cut (map : SplitIntervalMap V) {lower point : Nat} (below : lower ≤ point)
    (uncut : ∀ cut ∈ map.cuts, cut ≤ lower ∨ point < cut) : map.get point = map.get lower := by
  induction point, below using Nat.le_induction with
  | base => rfl
  | succ point below ih =>
      rw [map.constant point fun member => by have := uncut _ member; omega]
      exact ih fun cut member => by have := uncut cut member; omega

theorem mem_segmentsBetween {get : Nat → Option V} {cuts : List Nat} {segment : Segment V}
    (sorted : cuts.Pairwise (· < ·)) (member : segment ∈ segmentsBetween get cuts) :
    segment.lower ∈ cuts ∧ segment.lower < segment.upper ∧
      get segment.lower = some segment.value ∧
        ∀ cut ∈ cuts, cut ≤ segment.lower ∨ segment.upper ≤ cut := by
  induction cuts with
  | nil => simp [segmentsBetween] at member
  | cons lower cuts ih =>
      cases cuts with
      | nil => simp [segmentsBetween] at member
      | cons upper cuts =>
          obtain ⟨below, rest⟩ := List.pairwise_cons.mp sorted
          simp only [segmentsBetween, List.mem_append, List.mem_map, Option.mem_toList] at member
          obtain ⟨value, held, rfl⟩ | later := member
          · refine ⟨by simp, below upper (by simp), held, fun cut cutMember => ?_⟩
            obtain rfl | isUpper | cutMember := by simpa using cutMember
            · exact Or.inl le_rfl
            · exact Or.inr isUpper.ge
            · exact Or.inr ((List.pairwise_cons.mp rest).1 cut cutMember).le
          · obtain ⟨inCuts, proper, held, between⟩ := ih rest later
            refine ⟨List.mem_cons_of_mem _ inCuts, proper, held, fun cut cutMember => ?_⟩
            obtain rfl | cutMember := List.mem_cons.mp cutMember
            · exact Or.inl (below _ inCuts).le
            · exact between cut cutMember

/-- A segment starts at a cut, contains no other cut, and has one value. -/
theorem mem_segments (map : SplitIntervalMap V) {segment : Segment V}
    (member : segment ∈ map.segments) :
    segment.lower ∈ map.cuts ∧
      (∀ cut ∈ map.cuts, cut ≤ segment.lower ∨ segment.upper ≤ cut) ∧
        ∀ point, segment.Contains point → map.get point = some segment.value := by
  obtain ⟨inCuts, proper, held, between⟩ := mem_segmentsBetween map.sorted member
  refine ⟨inCuts, between, fun point inside => ?_⟩
  rw [map.get_eq_of_no_cut inside.1, held]
  exact fun cut cutMember => (between cut cutMember).imp_right inside.2.trans_le

theorem exists_segmentBetween (get : Nat → Option V) {cuts : List Nat} {point : Nat}
    (sorted : cuts.Pairwise (· < ·)) (opened : ∃ cut ∈ cuts, cut ≤ point)
    (closed : ∃ cut ∈ cuts, point < cut) :
    ∃ lower ∈ cuts, ∃ upper, lower ≤ point ∧ point < upper ∧
      (∀ cut ∈ cuts, cut ≤ lower ∨ upper ≤ cut) ∧
        ∀ value, get lower = some value → ⟨lower, upper, value⟩ ∈ segmentsBetween get cuts := by
  induction cuts with
  | nil => simp at opened
  | cons first cuts ih =>
      obtain ⟨below, rest⟩ := List.pairwise_cons.mp sorted
      cases cuts with
      | nil =>
          obtain ⟨low, lowMember, lowLe⟩ := opened
          obtain ⟨high, highMember, highLt⟩ := closed
          simp only [List.mem_singleton] at lowMember highMember
          omega
      | cons second cuts =>
          by_cases later : second ≤ point
          · obtain ⟨high, highMember, highLt⟩ := closed
            have laterClosed : ∃ cut ∈ second :: cuts, point < cut := by
              obtain rfl | highMember := List.mem_cons.mp highMember
              · have := below second (by simp)
                omega
              · exact ⟨high, highMember, highLt⟩
            obtain ⟨lower, lowerMember, upper, lowerLe, ltUpper, between, found⟩ :=
              ih rest ⟨second, by simp, later⟩ laterClosed
            refine ⟨lower, List.mem_cons_of_mem _ lowerMember, upper, lowerLe, ltUpper, ?_, ?_⟩
            · intro cut cutMember
              obtain rfl | cutMember := List.mem_cons.mp cutMember
              · exact Or.inl (below _ lowerMember).le
              · exact between cut cutMember
            · intro value held
              rw [segmentsBetween, List.mem_append]
              exact Or.inr (found value held)
          · have firstLe : first ≤ point := by
              obtain ⟨low, lowMember, lowLe⟩ := opened
              obtain rfl | lowMember := List.mem_cons.mp lowMember
              · exact lowLe
              · exact (below low lowMember).le.trans lowLe
            refine ⟨first, by simp, second, firstLe, Nat.lt_of_not_le later, ?_, ?_⟩
            · intro cut cutMember
              obtain rfl | isSecond | cutMember := by simpa using cutMember
              · exact Or.inl le_rfl
              · exact Or.inr isSecond.ge
              · exact Or.inr ((List.pairwise_cons.mp rest).1 cut cutMember).le
            · intro value held
              simp [segmentsBetween, held]

/-- Every point that holds a value lies in a segment. -/
theorem exists_segment (map : SplitIntervalMap V) {point : Nat} {value : V}
    (held : map.get point = some value) :
    ∃ segment ∈ map.segments, segment.Contains point ∧ segment.value = value := by
  have present : (map.get point).isSome := by rw [held]; rfl
  have opened : ∃ cut ∈ map.cuts, cut ≤ point := by
    by_contra none
    push Not at none
    refine absurd (none 0 (map.opens ?_)) (Nat.not_lt_zero _)
    rwa [← map.get_eq_of_no_cut (Nat.zero_le point) fun cut member => Or.inr (none cut member)]
  obtain ⟨lower, lowerMember, upper, lowerLe, ltUpper, between, found⟩ :=
    exists_segmentBetween map.get map.sorted opened (map.closes point present)
  refine ⟨⟨lower, upper, value⟩, found value ?_, ⟨lowerLe, ltUpper⟩, rfl⟩
  rw [← held, map.get_eq_of_no_cut lowerLe]
  exact fun cut member => (between cut member).imp_right ltUpper.trans_le

/-! ### Intersections -/

theorem Segment.clip_eq_some {segment clipped : Segment V} {lower upper : Nat} :
    segment.clip lower upper = some clipped ↔
      clipped.lower < clipped.upper ∧ clipped.lower = max segment.lower lower ∧
        clipped.upper = min segment.upper upper ∧ clipped.value = segment.value := by
  obtain ⟨clippedLower, clippedUpper, clippedValue⟩ := clipped
  unfold clip
  split
  next proper => simp; grind
  next => simp; grind

/-- A segment of an intersection lies in one of the intervals, starts there or
at a cut, and holds one value. -/
theorem mem_intersect (map : SplitIntervalMap V) {intervals : List (Nat × Nat)}
    {segment : Segment V} (member : segment ∈ map.intersect intervals) :
    ∃ interval ∈ intervals, segment.Contains segment.lower ∧
      (segment.lower = interval.1 ∨ segment.lower ∈ map.cuts) ∧
        ∀ point, segment.Contains point →
          interval.1 ≤ point ∧ point < interval.2 ∧ map.get point = some segment.value := by
  simp only [intersect, List.mem_flatMap, List.mem_filterMap] at member
  obtain ⟨interval, inIntervals, whole, wholeMember, clipped⟩ := member
  obtain ⟨proper, lower, upper, value⟩ := Segment.clip_eq_some.mp clipped
  obtain ⟨inCuts, -, held⟩ := map.mem_segments wholeMember
  refine ⟨interval, inIntervals, ⟨le_rfl, proper⟩, ?_, fun point inside => ?_⟩
  · obtain below | above := Nat.le_total whole.lower interval.1
    · exact Or.inl (lower.trans (Nat.max_eq_right below))
    · exact Or.inr ((lower.trans (Nat.max_eq_left above)) ▸ inCuts)
  · obtain ⟨low, high⟩ := inside
    rw [lower] at low
    rw [upper] at high
    exact ⟨by omega, by omega, value ▸ held point ⟨by omega, by omega⟩⟩

/-- Every point of an interval that holds a value lies in a segment of the
intersection. -/
theorem exists_mem_intersect (map : SplitIntervalMap V) {intervals : List (Nat × Nat)}
    {interval : Nat × Nat} (inIntervals : interval ∈ intervals) {point : Nat} {value : V}
    (low : interval.1 ≤ point) (high : point < interval.2) (held : map.get point = some value) :
    ∃ segment ∈ map.intersect intervals, segment.Contains point ∧ segment.value = value := by
  obtain ⟨whole, wholeMember, inside, valueEq⟩ := map.exists_segment held
  refine ⟨⟨max whole.lower interval.1, min whole.upper interval.2, value⟩, ?_,
    ⟨max_le inside.1 low, lt_min inside.2 high⟩, rfl⟩
  simp only [intersect, List.mem_flatMap, List.mem_filterMap]
  refine ⟨interval, inIntervals, whole, wholeMember, Segment.clip_eq_some.mpr ?_⟩
  exact ⟨(max_le inside.1 low).trans_lt (lt_min inside.2 high), rfl, rfl, valueEq.symm⟩

/-- A segment of an intersection that contains a cut starts there. -/
theorem lower_eq_of_mem_intersect (map : SplitIntervalMap V) {intervals : List (Nat × Nat)}
    {segment : Segment V} (member : segment ∈ map.intersect intervals) {cut : Nat}
    (inCuts : cut ∈ map.cuts) (inside : segment.Contains cut) : segment.lower = cut := by
  simp only [intersect, List.mem_flatMap, List.mem_filterMap] at member
  obtain ⟨interval, -, whole, wholeMember, clipped⟩ := member
  obtain ⟨-, lower, upper, -⟩ := Segment.clip_eq_some.mp clipped
  obtain ⟨-, between, -⟩ := map.mem_segments wholeMember
  have low := inside.1
  have high := inside.2
  have apart := between cut inCuts
  omega

/-! ### Overwriting a table segment by segment -/

/-- After a pass of pointwise overwrites a point holds what some item writing
to it wrote, or, when none does, what it held before. -/
theorem foldl_overwrite_cases {S B : Type*} {overwrite : (Nat → B) → S → Nat → B}
    {writes : S → Nat → Prop} [∀ item point, Decidable (writes item point)]
    {written : S → Nat → B}
    (spec : ∀ table item point, overwrite table item point =
      if writes item point then written item point else table point)
    (table : Nat → B) (items : List S) (point : Nat) :
    (∃ item ∈ items, writes item point ∧
        items.foldl overwrite table point = written item point) ∨
      (∀ item ∈ items, ¬ writes item point) ∧
        items.foldl overwrite table point = table point := by
  induction items generalizing table with
  | nil => exact Or.inr ⟨by simp, rfl⟩
  | cons first items ih =>
      obtain ⟨item, member, here, equal⟩ | ⟨nowhere, equal⟩ := ih (overwrite table first)
      · exact Or.inl ⟨item, List.mem_cons_of_mem _ member, here, equal⟩
      · rw [spec] at equal
        by_cases here : writes first point
        · exact Or.inl ⟨first, by simp, here, by rw [List.foldl_cons, equal, if_pos here]⟩
        · refine Or.inr ⟨fun item member => ?_, by rw [List.foldl_cons, equal, if_neg here]⟩
          obtain rfl | member := List.mem_cons.mp member
          · exact here
          · exact nowhere item member

end SplitIntervalMap
