import Mathlib.Data.BitVec

/-!
# Source lookups

The debug database maps addresses to the source infos that cover them, and lines
of files to the source infos that come from them.  The front end asks for one
entry at a time, by an index that may be negative when it counts from the end.
-/

namespace Ndse

/-! ### The database -/

/-- `source_info`, without the symbol that nothing here sets. -/
structure SourceInfo where
  lineno : Int
  fileno : Int
  colno : Int
  lopc : BitVec 32
  hipc : BitVec 32
deriving DecidableEq, Repr

/-- `itl::closed_interval` and `itl::rightopen_interval` over addresses. -/
structure Interval where
  lower : BitVec 32
  upper : BitVec 32
  includeEnd : Bool
deriving DecidableEq, Repr

/-- `interval::contains`. -/
def Interval.contains (interval : Interval) (addr : BitVec 32) : Bool :=
  decide (interval.lower ≤ addr) &&
    if interval.includeEnd then decide (addr ≤ interval.upper) else decide (addr < interval.upper)

/-- `source_fileinfo`. -/
structure SourceFileinfo where
  filename : List (BitVec 16)
  lineinfo : List (Option (List SourceInfo))
deriving DecidableEq, Repr

/-- `DebugMap`: intervals in ascending order with the infos that cover them. -/
abbrev DebugMap : Type := List (Interval × List SourceInfo)

/-- `source_debug`. -/
structure SourceDebug where
  debugMap : DebugMap
  files : List SourceFileinfo
deriving DecidableEq, Repr

namespace SourceDebug

/-- `source_debug::line_for`, with the rest of `debug_map` that is to be searched. -/
def lineFor (addr : BitVec 32) : DebugMap → Option (List SourceInfo)
  | [] => none
  | (interval, set) :: rest =>
      if addr < interval.lower then none
      else if interval.contains addr then some set
      else lineFor addr rest

/-! ### The source line of an address -/

/-- The loop of `ARM9_SourceLine` for an index that is not negative. -/
def forwardFrom : Nat → List SourceInfo → Option SourceInfo
  | 0, it => it.head?
  | idx + 1, it => if it.tail = [] then none else forwardFrom idx it.tail

/-- Its loop for a negative index, over the reversed list.  It does not count. -/
def reverseFrom (idx : Int) : List SourceInfo → Option SourceInfo
  | [] => none
  | it :: rest => if idx < 0 then (if rest = [] then none else reverseFrom idx rest) else some it

/-- `ARM9_SourceLine`. -/
def arm9SourceLine (debug : SourceDebug) (addr : BitVec 32) (idx : Int) : Option SourceInfo :=
  match lineFor addr debug.debugMap with
  | none => none
  | some set =>
      if 0 ≤ idx then forwardFrom idx.toNat set
      else reverseFrom (idx + 1) set.reverse

/-- The entry at an index, which counts from the end when it is negative. -/
def entryAt (set : List SourceInfo) (idx : Int) : Option SourceInfo :=
  if 0 ≤ idx then set[idx.toNat]?
  else if -set.length ≤ idx then set[(set.length + idx).toNat]?
  else none

theorem forwardFrom_eq (idx : Nat) (set : List SourceInfo) : forwardFrom idx set = set[idx]? := by
  induction idx generalizing set with
  | zero => exact List.head?_eq_getElem?
  | succ idx ih =>
      rw [forwardFrom, ← List.getElem?_tail]
      split
      · next last => rw [last, List.getElem?_nil]
      · exact ih set.tail

theorem reverseFrom_neg {idx : Int} (negative : idx < 0) (set : List SourceInfo) :
    reverseFrom idx set = none := by
  induction set with
  | nil => rfl
  | cons it rest ih =>
      rw [reverseFrom, if_pos negative]
      split
      · rfl
      · exact ih

theorem reverseFrom_zero (set : List SourceInfo) : reverseFrom 0 set = set.head? := by
  cases set with
  | nil => rfl
  | cons it rest => rfl

variable {debug : SourceDebug} {addr : BitVec 32} {set : List SourceInfo}

/-- Among the negative indices only the last entry is found. -/
theorem arm9SourceLine_iff (found : lineFor addr debug.debugMap = some set) (some : set ≠ [])
    (idx : Int) : debug.arm9SourceLine addr idx = entryAt set idx ↔
      ¬(-set.length ≤ idx ∧ idx < -1) := by
  have positive := List.length_pos_of_ne_nil some
  rw [arm9SourceLine, found, entryAt]
  by_cases forward : 0 ≤ idx
  · simp only [if_pos forward, forwardFrom_eq, true_iff]
    omega
  simp only [if_neg forward]
  by_cases last : idx = -1
  · subst last
    have head : set[(set.length + -1 : Int).toNat]? = set.getLast? := by
      rw [List.getLast?_eq_getElem?]
      congr 1
      omega
    rw [Int.add_left_neg, reverseFrom_zero, List.head?_reverse, if_pos (by omega), head]
    simp
  · rw [reverseFrom_neg (by omega)]
    by_cases inside : -set.length ≤ idx
    · have entry : (set.length + idx).toNat < set.length := by omega
      rw [if_pos inside, List.getElem?_eq_getElem entry]
      have between : idx < -1 := by omega
      simp [inside, between]
    · rw [if_neg inside]
      simp [inside]

/-! ### The infos of a line -/

/-- `++it` for an index that the list has; `none` is a step beyond its end. -/
def advance : Nat → List SourceInfo → Option SourceInfo
  | 0, it => it.head?
  | idx + 1, it => advance idx it.tail

/-- `DEBUGGER_SourceLine`; the outer `none` is an access out of range. -/
def debuggerSourceLine (debug : SourceDebug) (fileno lineno idx : Int) :
    Option (Option SourceInfo) :=
  if fileno < 0 ∨ debug.files.length < fileno ∨ lineno < 0 ∨ idx < 0 then some none
  else
    match debug.files[fileno.toNat]? with
    | none => none
    | some file =>
        if file.lineinfo.length ≤ lineno then some none
        else
          match file.lineinfo[lineno.toNat]? with
          | none => none
          | some none => some none
          | some (some infos) =>
              if infos.length ≤ idx then some none
              else (advance idx.toNat infos).map some

/-- The entry of a file's line, where there is one. -/
def lineEntry (debug : SourceDebug) (fileno lineno idx : Int) : Option SourceInfo :=
  if 0 ≤ fileno ∧ 0 ≤ lineno ∧ 0 ≤ idx then
    ((debug.files[fileno.toNat]?.bind fun file => file.lineinfo[lineno.toNat]?).join).bind
      fun infos => infos[idx.toNat]?
  else none

theorem advance_eq (idx : Nat) (it : List SourceInfo) : advance idx it = it[idx]? := by
  induction idx generalizing it with
  | zero => exact List.head?_eq_getElem?
  | succ idx ih => rw [advance, ih, List.getElem?_tail]

/-- The index behind the last file is the only one that is not caught. -/
theorem debuggerSourceLine_iff (debug : SourceDebug) (fileno lineno idx : Int) :
    debug.debuggerSourceLine fileno lineno idx = some (debug.lineEntry fileno lineno idx) ↔
      ¬(fileno = debug.files.length ∧ 0 ≤ lineno ∧ 0 ≤ idx) := by
  rw [debuggerSourceLine]
  split
  · next caught =>
    have outside : debug.lineEntry fileno lineno idx = none := by
      rw [lineEntry]
      split
      · next signs =>
        rw [List.getElem?_eq_none (by omega)]
        rfl
      · rfl
    simp only [outside, true_iff]
    omega
  next passed =>
  rw [lineEntry, if_pos (by omega)]
  cases file : debug.files[fileno.toNat]? with
  | none =>
      have beyond := List.getElem?_eq_none_iff.mp file
      simp only [reduceCtorEq, false_iff, not_not]
      omega
  | some file' =>
      have inside := (List.getElem?_eq_some_iff.mp file).1
      have known : ¬(fileno = debug.files.length ∧ 0 ≤ lineno ∧ 0 ≤ idx) := by omega
      simp only [known, not_false_eq_true, iff_true, Option.bind_some]
      split
      · next beyond =>
        rw [List.getElem?_eq_none (by omega)]
        rfl
      · next short =>
        rw [List.getElem?_eq_getElem (by omega)]
        cases file'.lineinfo[lineno.toNat] with
        | none => rfl
        | some infos =>
            change (if infos.length ≤ idx then _ else _) = some infos[idx.toNat]?
            split
            · next beyond => rw [List.getElem?_eq_none (by omega)]
            · next short =>
              rw [advance_eq, List.getElem?_eq_getElem (by omega)]
              rfl

/-- The two lookups, with the indices for which they are right. -/
theorem sourceLines_iff (debug : SourceDebug) :
    (∀ addr set, lineFor addr debug.debugMap = some set → set ≠ [] → ∀ idx,
      debug.arm9SourceLine addr idx = entryAt set idx ↔ ¬(-set.length ≤ idx ∧ idx < -1)) ∧
    ∀ fileno lineno idx,
      debug.debuggerSourceLine fileno lineno idx = some (debug.lineEntry fileno lineno idx) ↔
        ¬(fileno = debug.files.length ∧ 0 ≤ lineno ∧ 0 ≤ idx) :=
  ⟨fun _ _ found some idx => arm9SourceLine_iff found some idx, debuggerSourceLine_iff debug⟩

/-- Two infos at one address, of line 1 and line 2 of a file. -/
def twoLines : SourceDebug :=
  ⟨[(⟨0, 8, false⟩, [⟨1, 0, -1, 0, 8⟩, ⟨2, 0, -1, 0, 8⟩])],
    [⟨[], [none, some [⟨1, 0, -1, 0, 8⟩], some [⟨2, 0, -1, 0, 8⟩]]⟩]⟩

theorem sourceLines_twoLines :
    twoLines.arm9SourceLine 4 (-1) = some ⟨2, 0, -1, 0, 8⟩ ∧
      twoLines.arm9SourceLine 4 (-3) = none ∧
      twoLines.debuggerSourceLine 0 2 0 = some (some ⟨2, 0, -1, 0, 8⟩) := by
  have found : lineFor 4 twoLines.debugMap = some [⟨1, 0, -1, 0, 8⟩, ⟨2, 0, -1, 0, 8⟩] := rfl
  have lookups := sourceLines_iff twoLines
  exact ⟨(lookups.1 4 _ found (by decide) (-1)).mpr (by decide),
    (lookups.1 4 _ found (by decide) (-3)).mpr (by decide),
    (lookups.2 0 2 0).mpr (by decide)⟩

/-- The second entry from the end is not found, and the file behind the last is
looked up. -/
theorem sourceLines_ends :
    lineFor 4 twoLines.debugMap = some [⟨1, 0, -1, 0, 8⟩, ⟨2, 0, -1, 0, 8⟩] ∧
      twoLines.arm9SourceLine 4 (-2) ≠ entryAt [⟨1, 0, -1, 0, 8⟩, ⟨2, 0, -1, 0, 8⟩] (-2) ∧
      twoLines.debuggerSourceLine 1 0 0 ≠ some (twoLines.lineEntry 1 0 0) ∧
      twoLines.debuggerSourceLine 1 0 0 = none := by
  decide

end SourceDebug

end Ndse
