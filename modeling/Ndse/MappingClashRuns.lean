import Ndse.MappingClash

/-!
# Runs without mapping clashes

The banks A to G are unmapped before they are mapped again, and so are the
tightly coupled memories.  Only bank H, which the control byte of bank I maps
and does not unmap, can be mapped where it already is.
-/

namespace Ndse

/-! ### The invariant -/

/-- The video memory banks and the tightly coupled memories have priorities of
their own. -/
theorem priority_alone {region : PhysRegion} (special : 1 < region.priority) :
    ∀ other, physTable.priority other = physTable.priority region → other = region := by
  revert special
  cases region <;> intro special other <;> cases other <;> revert special <;> decide

/-- The banks the mapper moves under their own region. -/
def VramBank.Plain (bank : VramBank) : Prop := bank ≠ .h ∧ bank ≠ .i

instance (bank : VramBank) : Decidable bank.Plain := inferInstanceAs (Decidable (_ ∧ _))

/-- The first page of a place of bank H. -/
def BankHPlace (place : BitVec 32) : Prop := place = 0x06898000 ∨ place = 0x06200000

/-- Nothing clashes, a plain bank that is not remembered is not mapped, and bank
H is where the history of bank I says. -/
structure Tracks (state : VramState) (history : BankIHistory) : Prop where
  clashless : ∀ cpu, (state.memory cpu).Clashless physTable
  bounded : ∀ cpu, (state.memory cpu).Bounded
  forgotten : ∀ cpu (bank : VramBank), bank.Plain → state.mapping cpu bank.idx = 0 →
    ∀ page, (state.memory cpu).multiplicity bank.region page = 0
  unused : ∀ cpu, state.mapping cpu 7 = 0
  memo : state.mapping .arm9 8 = history.current.getD 0
  memo_arm7 : state.mapping .arm7 8 = 0
  places : ∀ place, history.Holds place → BankHPlace place
  uncovered_iff : ∀ page, (state.memory .arm9).multiplicity .vramH page = 0 ↔
    ∀ place, history.Holds place → ¬ SpansAt .vramH place page

theorem Tracks.clashFree {state : VramState} {history : BankIHistory}
    (tracks : Tracks state history) : state.ClashFree :=
  fun cpu => ⟨tracks.clashless cpu, (tracks.clashless cpu).not_reports⟩

theorem idx_ne_of_plain {bank : VramBank} (plain : bank.Plain) : bank.idx ≠ 7 ∧ bank.idx ≠ 8 := by
  obtain ⟨notH, notI⟩ := plain
  cases bank <;> first | exact absurd rfl notH | exact absurd rfl notI | decide

theorem region_of_plain {bank : VramBank} (plain : bank.Plain) :
    bank.region ≠ .vramH ∧ 1 < bank.region.priority := by
  obtain ⟨notH, notI⟩ := plain
  cases bank <;> first | exact absurd rfl notH | exact absurd rfl notI | decide

section

variable {state : VramState} {history : BankIHistory}

theorem VramState.clashless_unmapBank
    (clashless : ∀ cpu, (state.memory cpu).Clashless physTable) (moved : Cpu) (idx : Fin 10)
    (region : PhysRegion) (cpu : Cpu) :
    ((state.unmapBank moved idx region).memory cpu).Clashless physTable := by
  unfold unmapBank
  split
  · by_cases own : cpu = moved
    · subst own
      simpa using (clashless cpu).unmap physTable region
    · simpa [own] using clashless cpu
  · exact clashless cpu

theorem VramState.bounded_unmapBank (bounded : ∀ cpu, (state.memory cpu).Bounded) (moved : Cpu)
    (idx : Fin 10) (region : PhysRegion) (cpu : Cpu) :
    ((state.unmapBank moved idx region).memory cpu).Bounded := by
  unfold unmapBank
  split
  · by_cases own : cpu = moved
    · subst own
      simpa using (bounded cpu).unmap physTable region
    · simpa [own] using bounded cpu
  · exact bounded cpu

theorem VramState.memory_mapBank {moved : Cpu} {idx : Fin 10} {addr : BitVec 32}
    (different : state.mapping moved idx ≠ addr) (region : PhysRegion) (cpu : Cpu) :
    (state.mapBank moved idx region addr).memory cpu =
      if cpu = moved then
        ((state.unmapBank moved idx region).memory cpu).mapAt region (addr >>> 9).toNat
      else (state.unmapBank moved idx region).memory cpu := by
  rw [mapBank, if_pos different]
  by_cases own : cpu = moved
  · subst own
    simp
  · simp [own]

/-- Mapping a bank clashes with nothing when it is nowhere at its new place. -/
theorem VramState.clashless_mapBank
    (clashless : ∀ cpu, (state.memory cpu).Clashless physTable) {region : PhysRegion}
    (special : 1 < region.priority) {moved : Cpu} {idx : Fin 10} {addr : BitVec 32}
    (free : ∀ page, SpansAt region addr page →
      ((state.unmapBank moved idx region).memory moved).multiplicity region page = 0) (cpu : Cpu) :
    ((state.mapBank moved idx region addr).memory cpu).Clashless physTable := by
  by_cases same : state.mapping moved idx = addr
  · rw [mapBank, if_neg (not_not.mpr same)]
    exact clashless cpu
  · have cleared := clashless_unmapBank clashless moved idx region cpu
    rw [memory_mapBank same]
    split
    · next own =>
      subst own
      exact cleared.mapRegion physTable (priority_alone special) fun page lowerLe ltUpper =>
        free page ⟨lowerLe, ltUpper⟩
    · exact cleared

theorem VramState.bounded_mapBank (bounded : ∀ cpu, (state.memory cpu).Bounded)
    {region : PhysRegion} {addr : BitVec 32}
    (fits : (addr >>> 9).toNat + region.pages ≤ totalPages) (moved : Cpu) (idx : Fin 10)
    (cpu : Cpu) : ((state.mapBank moved idx region addr).memory cpu).Bounded := by
  by_cases same : state.mapping moved idx = addr
  · rw [mapBank, if_neg (not_not.mpr same)]
    exact bounded cpu
  · have cleared := bounded_unmapBank bounded moved idx region cpu
    rw [memory_mapBank same]
    split
    · exact cleared.mapRegion physTable region _ fits
    · exact cleared

theorem Tracks.unmapBank (tracks : Tracks state history) {bank : VramBank} (plain : bank.Plain)
    (moved : Cpu) : Tracks (state.unmapBank moved bank.idx bank.region) history where
  clashless := VramState.clashless_unmapBank tracks.clashless moved bank.idx bank.region
  bounded := VramState.bounded_unmapBank tracks.bounded moved bank.idx bank.region
  forgotten := by
    intro cpu other otherPlain forgotten page
    rw [VramState.unmapBank_multiplicity]
    rw [VramState.unmapBank_mapping] at forgotten
    by_cases own : cpu = moved ∧ other.idx = bank.idx
    · obtain ⟨rfl, sameIdx⟩ := own
      obtain rfl := VramBank.idx_injective sameIdx
      by_cases remembered : state.mapping cpu other.idx = 0
      · rw [tracks.forgotten cpu other plain remembered page, Nat.zero_sub]
      · have once := tracks.clashless cpu (physTable.priority other.region) page
        have counted := (state.memory cpu).multiplicity_le_priorityCount physTable other.region page
        by_cases inside : page < totalPages
        · rw [if_pos ⟨rfl, remembered, rfl, inside⟩]
          omega
        · rw [tracks.bounded cpu other.region page (not_lt.mp inside), Nat.zero_sub]
    · rw [if_neg own] at forgotten
      rw [tracks.forgotten cpu other otherPlain forgotten page, Nat.zero_sub]
  unused := by
    intro cpu
    rw [VramState.unmapBank_mapping, if_neg (fun same => (idx_ne_of_plain plain).1 same.2.symm)]
    exact tracks.unused cpu
  memo := by
    rw [VramState.unmapBank_mapping, if_neg (fun same => (idx_ne_of_plain plain).2 same.2.symm)]
    exact tracks.memo
  memo_arm7 := by
    rw [VramState.unmapBank_mapping, if_neg (fun same => (idx_ne_of_plain plain).2 same.2.symm)]
    exact tracks.memo_arm7
  places := tracks.places
  uncovered_iff := by
    intro page
    rw [VramState.unmapBank_multiplicity,
      if_neg (fun same => (region_of_plain plain).1 same.2.2.1), Nat.sub_zero]
    exact tracks.uncovered_iff page

/-- A plain bank is off before it is mapped, so that nothing clashes. -/
theorem Tracks.mapBank (tracks : Tracks state history) {bank : VramBank} (plain : bank.Plain)
    (moved : Cpu) {addr : BitVec 32} (nonzero : addr ≠ 0)
    (fits : (addr >>> 9).toNat + bank.region.pages ≤ totalPages) :
    Tracks (state.mapBank moved bank.idx bank.region addr) history where
  clashless := by
    apply VramState.clashless_mapBank tracks.clashless (region_of_plain plain).2
    intro page _
    apply (tracks.unmapBank plain moved).forgotten moved bank plain
    rw [VramState.unmapBank_mapping, if_pos ⟨rfl, rfl⟩]
  bounded := VramState.bounded_mapBank tracks.bounded fits moved bank.idx
  forgotten := by
    intro cpu other otherPlain forgotten page
    rw [VramState.mapBank_mapping] at forgotten
    by_cases own : cpu = moved ∧ other.idx = bank.idx
    · rw [if_pos own] at forgotten
      exact absurd forgotten nonzero
    · rw [if_neg own] at forgotten
      have before := tracks.forgotten cpu other otherPlain forgotten page
      have cleared := (tracks.unmapBank plain moved).forgotten cpu other otherPlain
        (by rwa [VramState.unmapBank_mapping, if_neg own]) page
      have apart : ¬ (cpu = moved ∧ bank.region = other.region ∧ SpansAt bank.region addr page) :=
        fun same =>
          own ⟨same.1, congrArg VramBank.idx (VramBank.region_injective same.2.1.symm)⟩
      rw [VramState.mapBank_multiplicity, before, cleared, if_neg apart, ite_self]
  unused := by
    intro cpu
    rw [VramState.mapBank_mapping, if_neg (fun same => (idx_ne_of_plain plain).1 same.2.symm)]
    exact tracks.unused cpu
  memo := by
    rw [VramState.mapBank_mapping, if_neg (fun same => (idx_ne_of_plain plain).2 same.2.symm)]
    exact tracks.memo
  memo_arm7 := by
    rw [VramState.mapBank_mapping, if_neg (fun same => (idx_ne_of_plain plain).2 same.2.symm)]
    exact tracks.memo_arm7
  places := tracks.places
  uncovered_iff := by
    intro page
    have other : ¬ (Cpu.arm9 = moved ∧ bank.region = .vramH ∧ SpansAt bank.region addr page) :=
      fun same => (region_of_plain plain).1 same.2.1
    rw [VramState.mapBank_multiplicity, if_neg other, Nat.add_zero]
    split
    · exact tracks.uncovered_iff page
    · exact (tracks.unmapBank plain moved).uncovered_iff page

/-! ### One line of `remap` -/

/-- A plain bank asks for its own region, at a place in the table. -/
def PlainRequest (bank : VramBank) : VcntRequest → Prop
  | .map _ region addr =>
      region = bank.region ∧ addr ≠ 0 ∧ (addr >>> 9).toNat + bank.region.pages ≤ totalPages
  | _ => True

instance (bank : VramBank) : DecidablePred (PlainRequest bank)
  | .map _ _ _ => inferInstanceAs (Decidable (_ ∧ _))
  | .invalid => inferInstanceAs (Decidable True)
  | .outOfBounds => inferInstanceAs (Decidable True)

theorem plainRequest_bankRequest {bank : VramBank} (plain : bank.Plain) :
    ∀ value, PlainRequest bank (bankRequest bank value) := by
  obtain ⟨notH, notI⟩ := plain
  cases bank <;> first | exact absurd rfl notH | exact absurd rfl notI | decide +kernel

theorem VramState.remapBank_eq (state : VramState) (bank : VramBank) :
    state.remapBank bank =
      if vramEnabled (state.vramcnt bank.byteIndex) then
        match bankRequest bank (state.vramcnt bank.byteIndex) with
        | .map cpu region addr => some (state.mapBank cpu bank.idx region addr)
        | .invalid => some state
        | .outOfBounds => none
      else
        some
          ((state.unmapBank .arm7 bank.idx bank.region).unmapBank .arm9 bank.idx bank.region) := by
  have region := vcntBanks_idx bank
  rw [remapBank, mapVcnt]
  simp only [vramEnabled_iff]
  split
  · rfl
  · rw [VramBank.idx] at region
    rw [region]
    rfl

theorem VramState.bankStages_eq (state : VramState) (bank : VramBank) :
    state.bankStages bank =
      if vramEnabled (state.vramcnt bank.byteIndex) then
        match bankRequest bank (state.vramcnt bank.byteIndex) with
        | .map cpu region addr => state.mapBankStages cpu bank.idx region addr
        | _ => []
      else
        [state.unmapBank .arm7 bank.idx bank.region,
          (state.unmapBank .arm7 bank.idx bank.region).unmapBank .arm9 bank.idx bank.region] := by
  have region := vcntBanks_idx bank
  rw [bankStages, mapVcntStages]
  simp only [vramEnabled_iff]
  split
  · rfl
  · rw [VramBank.idx] at region
    rw [region]
    rfl

/-- The line of a plain bank clashes nowhere and keeps the invariant. -/
theorem Tracks.remapBank_plain (tracks : Tracks state history) {bank : VramBank}
    (plain : bank.Plain) :
    (∀ stage ∈ state.bankStages bank, stage.ClashFree) ∧
      ∀ next ∈ state.remapBank bank, Tracks next history ∧ next.vramcnt = state.vramcnt := by
  have asked := plainRequest_bankRequest plain (state.vramcnt bank.byteIndex)
  rw [VramState.bankStages_eq, VramState.remapBank_eq]
  by_cases enabled : vramEnabled (state.vramcnt bank.byteIndex)
  · rw [if_pos enabled, if_pos enabled]
    cases request : bankRequest bank (state.vramcnt bank.byteIndex) with
    | map cpu region addr =>
        rw [request] at asked
        obtain ⟨rfl, nonzero, fits⟩ := asked
        have mapped := tracks.mapBank plain cpu nonzero fits
        constructor
        · intro stage member
          simp only [VramState.mapBankStages] at member
          split at member
          · rw [List.mem_pair] at member
            rcases member with rfl | rfl
            · exact (tracks.unmapBank plain cpu).clashFree
            · exact mapped.clashFree
          · cases member
        · rintro next ⟨⟩
          exact ⟨mapped, VramState.mapBank_vramcnt _ _ _ _ _⟩
    | invalid =>
        refine ⟨fun stage member => (nomatch member), ?_⟩
        rintro next ⟨⟩
        exact ⟨tracks, rfl⟩
    | outOfBounds =>
        exact ⟨fun stage member => (nomatch member), fun next member => (nomatch member)⟩
  · rw [if_neg enabled, if_neg enabled]
    have first := tracks.unmapBank plain .arm7
    have second := first.unmapBank plain .arm9
    constructor
    · intro stage member
      rw [List.mem_pair] at member
      rcases member with rfl | rfl
      · exact first.clashFree
      · exact second.clashFree
    · rintro next ⟨⟩
      exact ⟨second, by simp⟩

/-- The line of bank H does nothing. -/
theorem Tracks.remapBank_h (tracks : Tracks state history) :
    (∀ stage ∈ state.bankStages .h, stage.ClashFree) ∧ state.remapBank .h = some state := by
  have ignored : ∀ value, bankRequest .h value = .invalid := by decide +kernel
  have kept (cpu : Cpu) (state : VramState) (unused : state.mapping cpu 7 = 0) :
      state.unmapBank cpu VramBank.h.idx VramBank.h.region = state :=
    if_neg (not_not.mpr unused)
  rw [VramState.bankStages_eq, VramState.remapBank_eq, ignored]
  split
  · exact ⟨fun stage member => (nomatch member), rfl⟩
  · rw [kept .arm7 state (tracks.unused .arm7), kept .arm9 state (tracks.unused .arm9)]
    refine ⟨fun stage member => ?_, rfl⟩
    rw [List.mem_pair, or_self] at member
    rw [member]
    exact tracks.clashFree

/-! ### The line of bank I -/

instance (place : BitVec 32) : Decidable (BankHPlace place) :=
  inferInstanceAs (Decidable (_ ∨ _))

/-- Bank I has the index of bank H's case. -/
theorem bankRequest_i : ∀ value, vramEnabled value →
    bankRequest .i value =
      (bankIPlace value).elim .invalid fun place => .map .arm9 .vramH place := by
  decide +kernel

theorem bankIPlace_valid {value : BitVec 8} {place : BitVec 32}
    (placed : place ∈ bankIPlace value) : BankHPlace place := by
  rw [bankIPlace, vcntH] at placed
  split_ifs at placed
  · exact Or.inl (Option.some.inj placed).symm
  · exact Or.inr (Option.some.inj placed).symm
  · cases placed
  · cases placed

theorem BankHPlace.valid {place : BitVec 32} (valid : BankHPlace place) :
    place ≠ 0 ∧ (place >>> 9).toNat + PhysRegion.vramH.pages ≤ totalPages := by
  rcases valid with rfl | rfl <;> decide

/-- The two places of bank H have no page in common. -/
theorem BankHPlace.eq_of_spansAt {first second : BitVec 32} (firstValid : BankHPlace first)
    (secondValid : BankHPlace second) {page : Nat} (inFirst : SpansAt .vramH first page)
    (inSecond : SpansAt .vramH second page) : first = second := by
  have low : ((0x06200000 : BitVec 32) >>> 9).toNat + PhysRegion.vramH.pages ≤
      ((0x06898000 : BitVec 32) >>> 9).toNat := by decide
  unfold SpansAt at inFirst inSecond
  rcases firstValid with rfl | rfl <;> rcases secondValid with rfl | rfl
  · rfl
  · omega
  · omega
  · rfl

theorem spansAt_start (place : BitVec 32) : SpansAt .vramH place (place >>> 9).toNat :=
  ⟨le_rfl, Nat.lt_add_of_pos_right (by decide)⟩

/-- Bank H is mapped at a new place; before, after its unmapping, it is at some
others. -/
theorem Tracks.mapBankH (tracks : Tracks state history) {place : BitVec 32}
    (valid : BankHPlace place) {left : List (BitVec 32)}
    (leftValid : ∀ other ∈ left, BankHPlace other)
    (cleared : ∀ page,
      ((state.unmapBank .arm9 8 .vramH).memory .arm9).multiplicity .vramH page = 0 ↔
      ∀ other ∈ left, ¬ SpansAt .vramH other page)
    (fresh : place ∉ left) (moves : state.mapping .arm9 8 ≠ place) :
    Tracks (state.mapBank .arm9 8 .vramH place) ⟨some place, left⟩ where
  clashless := by
    apply VramState.clashless_mapBank tracks.clashless (by decide)
    intro page inside
    rw [cleared]
    intro other member otherInside
    rw [valid.eq_of_spansAt (leftValid other member) inside otherInside] at fresh
    exact fresh member
  bounded := VramState.bounded_mapBank tracks.bounded valid.valid.2 .arm9 8
  forgotten := by
    intro cpu bank plain forgotten page
    obtain ⟨notH, -⟩ := region_of_plain plain
    rw [VramState.mapBank_mapping, if_neg (fun same => (idx_ne_of_plain plain).2 same.2)]
      at forgotten
    have before := tracks.forgotten cpu bank plain forgotten page
    have apart : ¬ (cpu = .arm9 ∧ PhysRegion.vramH = bank.region ∧ SpansAt .vramH place page) :=
      fun same => notH same.2.1.symm
    rw [VramState.mapBank_multiplicity, VramState.unmapBank_multiplicity, before, Nat.zero_sub,
      if_neg apart, ite_self]
  unused := by
    intro cpu
    rw [VramState.mapBank_mapping, if_neg (fun same => absurd same.2 (by decide))]
    exact tracks.unused cpu
  memo := by rw [VramState.mapBank_mapping, if_pos ⟨rfl, rfl⟩, Option.getD_some]
  memo_arm7 := by
    rw [VramState.mapBank_mapping, if_neg (fun same => absurd same.1 (by decide))]
    exact tracks.memo_arm7
  places := by
    rintro other (here | member)
    · rwa [← Option.some.inj here]
    · exact leftValid other member
  uncovered_iff := by
    intro page
    rw [VramState.mapBank_multiplicity, if_neg moves]
    by_cases inside : SpansAt .vramH place page
    · rw [if_pos ⟨rfl, rfl, inside⟩]
      exact ⟨fun zero => absurd zero (Nat.succ_ne_zero _),
        fun outside => absurd inside (outside place (Or.inl rfl))⟩
    · rw [if_neg (fun same => inside same.2.2), Nat.add_zero, cleared]
      constructor
      · rintro outside other (here | member)
        · rwa [← Option.some.inj here]
        · exact outside other member
      · exact fun outside other member => outside other (Or.inr member)

/-- Disabling bank I forgets where bank H is and leaves it there. -/
theorem Tracks.disableI (tracks : Tracks state history) :
    Tracks (state.unmapBank .arm9 8 .vramI) ⟨none, history.current.toList ++ history.left⟩ where
  clashless := VramState.clashless_unmapBank tracks.clashless .arm9 8 .vramI
  bounded := VramState.bounded_unmapBank tracks.bounded .arm9 8 .vramI
  forgotten := by
    intro cpu bank plain forgotten page
    rw [VramState.unmapBank_mapping, if_neg (fun same => (idx_ne_of_plain plain).2 same.2)]
      at forgotten
    rw [VramState.unmapBank_multiplicity, tracks.forgotten cpu bank plain forgotten page,
      Nat.zero_sub]
  unused := by
    intro cpu
    rw [VramState.unmapBank_mapping, if_neg (fun same => absurd same.2 (by decide))]
    exact tracks.unused cpu
  memo := by rw [VramState.unmapBank_mapping, if_pos ⟨rfl, rfl⟩, Option.getD_none]
  memo_arm7 := by
    rw [VramState.unmapBank_mapping, if_neg (fun same => absurd same.1 (by decide))]
    exact tracks.memo_arm7
  places := by
    rintro place (here | member)
    · cases here
    · apply tracks.places
      simpa [BankIHistory.Holds] using member
  uncovered_iff := by
    intro page
    rw [VramState.unmapBank_multiplicity, if_neg (fun same => nomatch same.2.2.1), Nat.sub_zero,
      tracks.uncovered_iff]
    simp [BankIHistory.Holds]

/-- The line of bank I, by its byte. -/
def BankILine (state : VramState) (history : BankIHistory) (value : BitVec 8) : Prop :=
  ((∀ stage ∈ state.bankStages .i, stage.ClashFree) ↔ history.Fresh value) ∧
    (history.Fresh value → ∃ next ∈ state.remapBank .i,
      Tracks next (history.write value) ∧ next.vramcnt = state.vramcnt)

theorem Tracks.remapBank_i_disabled (tracks : Tracks state history)
    (disabled : ¬ vramEnabled (state.vramcnt 9)) :
    BankILine state history (state.vramcnt 9) := by
  have fresh : history.Fresh (state.vramcnt 9) := by
    intro place placed
    rw [bankIPlace, if_neg disabled] at placed
    cases placed
  have kept : state.unmapBank .arm7 VramBank.i.idx VramBank.i.region = state :=
    if_neg (not_not.mpr tracks.memo_arm7)
  have next := tracks.disableI
  rw [BankILine, VramState.bankStages_eq, VramState.remapBank_eq,
    show VramBank.i.byteIndex = 9 from rfl, if_neg disabled, if_neg disabled, kept,
    BankIHistory.write, if_neg disabled]
  refine ⟨iff_of_true (fun stage member => ?_) fresh, fun _ => ⟨_, rfl, next, by simp⟩⟩
  rw [List.mem_pair] at member
  rcases member with rfl | rfl
  · exact tracks.clashFree
  · exact next.clashFree

/-- Enabled where bank H was left behind, bank H is mapped a second time. -/
theorem Tracks.not_clashFree_mapBankH (tracks : Tracks state history)
    (current : history.current = none) {place : BitVec 32} (left : place ∈ history.left) :
    ¬ (state.mapBank .arm9 8 .vramH place).ClashFree := by
  have valid := (tracks.places place (Or.inr left)).valid
  have forgotten : state.mapping .arm9 8 = 0 := by
    rw [tracks.memo, current]
    rfl
  have moves : state.mapping .arm9 8 ≠ place := by
    rw [forgotten]
    exact valid.1.symm
  have kept : state.unmapBank .arm9 8 .vramH = state := if_neg (not_not.mpr forgotten)
  have start := spansAt_start place
  have once : (state.memory .arm9).multiplicity .vramH (place >>> 9).toNat ≠ 0 :=
    fun zero => (tracks.uncovered_iff _).mp zero place (Or.inr left) start
  have twice : ((state.mapBank .arm9 8 .vramH place).memory .arm9).multiplicity .vramH
      (place >>> 9).toNat = (state.memory .arm9).multiplicity .vramH (place >>> 9).toNat + 1 := by
    rw [VramState.mapBank_multiplicity, if_neg moves, kept, if_pos ⟨rfl, rfl, start⟩]
  intro clashFree
  have counted := ((state.mapBank .arm9 8 .vramH place).memory
    .arm9).multiplicity_le_priorityCount physTable .vramH (place >>> 9).toNat
  have single := (clashFree .arm9).1 (physTable.priority .vramH) (place >>> 9).toNat
  omega

theorem Tracks.remapBank_i_enabled (tracks : Tracks state history)
    (enabled : vramEnabled (state.vramcnt 9)) :
    BankILine state history (state.vramcnt 9) := by
  rw [BankILine, VramState.bankStages_eq, VramState.remapBank_eq,
    show VramBank.i.byteIndex = 9 from rfl, show VramBank.i.idx = 8 from rfl, if_pos enabled,
    if_pos enabled, bankRequest_i _ enabled, BankIHistory.write, if_pos enabled, BankIHistory.Fresh]
  cases placed : bankIPlace (state.vramcnt 9) with
  | none =>
      refine ⟨iff_of_true (fun stage member => (nomatch member)) (by simp), fun _ => ?_⟩
      exact ⟨state, rfl, tracks, rfl⟩
  | some place =>
      have valid := bankIPlace_valid placed
      cases current : history.current with
      | none =>
          have forgotten : state.mapping .arm9 8 = 0 := by
            rw [tracks.memo, current]
            rfl
          have moves : state.mapping .arm9 8 ≠ place := by
            rw [forgotten]
            exact valid.valid.1.symm
          have kept : state.unmapBank .arm9 8 .vramH = state := if_neg (not_not.mpr forgotten)
          have mapped (fresh : place ∉ history.left) :
              Tracks (state.mapBank .arm9 8 .vramH place)
                { history with current := some place } := by
            apply tracks.mapBankH valid (fun other member => tracks.places other (Or.inr member))
              _ fresh moves
            intro page
            rw [kept, tracks.uncovered_iff]
            simp [BankIHistory.Holds, current]
          constructor
          · dsimp only [Option.elim_some]
            rw [VramState.mapBankStages]
            constructor
            · rintro clashFree other ⟨⟩ - left
              apply tracks.not_clashFree_mapBankH current left
              apply clashFree
              rw [if_pos moves]
              exact List.mem_pair.mpr (Or.inr rfl)
            · intro fresh stage member
              rw [if_pos moves] at member
              rcases List.mem_pair.mp member with rfl | rfl
              · rw [kept]
                exact tracks.clashFree
              · exact (mapped (fresh place rfl rfl)).clashFree
          · intro fresh
            exact ⟨_, rfl, mapped (fresh place rfl rfl), VramState.mapBank_vramcnt _ _ _ _ _⟩
      | some old =>
          have remembered : state.mapping .arm9 8 = old := by
            rw [tracks.memo, current]
            rfl
          have fresh : ∀ other ∈ some place, some old = none → other ∉ history.left :=
            fun _ _ impossible => nomatch impossible
          dsimp only [Option.elim_some]
          rw [VramState.mapBankStages]
          by_cases same : old = place
          · have stays : state.mapping .arm9 8 = place := remembered.trans same
            rw [if_neg (not_not.mpr stays)]
            refine ⟨iff_of_true (fun stage member => (nomatch member)) fresh, fun _ => ?_⟩
            refine ⟨_, rfl, ?_, VramState.mapBank_vramcnt _ _ _ _ _⟩
            rw [VramState.mapBank, if_neg (not_not.mpr stays), if_pos same]
            exact tracks
          · have moves : state.mapping .arm9 8 ≠ place := remembered.trans_ne same
            have nonzero : state.mapping .arm9 8 ≠ 0 := by
              rw [remembered]
              exact (tracks.places old (Or.inl current)).valid.1
            have mapped : Tracks (state.mapBank .arm9 8 .vramH place) ⟨some place, []⟩ := by
              apply tracks.mapBankH valid (by simp) _ (by simp) moves
              intro page
              simp only [List.not_mem_nil, false_implies, implies_true, iff_true]
              rw [VramState.unmapBank, if_pos nonzero]
              simpa using (tracks.clashless .arm9).multiplicity_unmap_self physTable
                (tracks.bounded .arm9) .vramH page
            rw [if_pos moves, if_neg same]
            refine ⟨iff_of_true (fun stage member => ?_) fresh, fun _ => ?_⟩
            · rcases List.mem_pair.mp member with rfl | rfl
              · intro cpu
                have clashless :=
                  VramState.clashless_unmapBank tracks.clashless .arm9 8 .vramH cpu
                exact ⟨clashless, clashless.not_reports⟩
              · exact mapped.clashFree
            · exact ⟨_, rfl, mapped, VramState.mapBank_vramcnt _ _ _ _ _⟩

/-! ### Whole operations -/

/-- The invariant only looks at the banks, what is remembered of them and
whether there are clashes. -/
theorem Tracks.congr (tracks : Tracks state history) {next : VramState}
    (mapping : next.mapping = state.mapping)
    (clashless : ∀ cpu, (next.memory cpu).Clashless physTable)
    (bounded : ∀ cpu, (next.memory cpu).Bounded)
    (same : ∀ cpu (bank : VramBank) page, (next.memory cpu).multiplicity bank.region page =
      (state.memory cpu).multiplicity bank.region page) : Tracks next history where
  clashless := clashless
  bounded := bounded
  forgotten := by
    intro cpu bank plain forgotten page
    rw [same]
    rw [mapping] at forgotten
    exact tracks.forgotten cpu bank plain forgotten page
  unused := by
    rw [mapping]
    exact tracks.unused
  memo := by
    rw [mapping]
    exact tracks.memo
  memo_arm7 := by
    rw [mapping]
    exact tracks.memo_arm7
  places := tracks.places
  uncovered_iff := by
    intro page
    have bankH := same .arm9 .h page
    rw [show VramBank.h.region = .vramH from rfl] at bankH
    rw [bankH]
    exact tracks.uncovered_iff page

theorem region_ne_tcm (bank : VramBank) (mode : BitVec 32) :
    VramState.tcmRegion mode ≠ bank.region := by
  unfold VramState.tcmRegion
  split <;> cases bank <;> decide

theorem tcm_special (mode : BitVec 32) : 1 < (VramState.tcmRegion mode).priority := by
  unfold VramState.tcmRegion
  split <;> decide

theorem Tracks.unmapTcm (tracks : Tracks state history) (mode : BitVec 32) :
    Tracks (state.unmapTcm (VramState.tcmRegion mode)) history := by
  have mapping : (state.unmapTcm (VramState.tcmRegion mode)).mapping = state.mapping := rfl
  apply tracks.congr mapping
  · intro cpu
    cases cpu with
    | arm9 => exact (tracks.clashless .arm9).unmap physTable _
    | arm7 => exact tracks.clashless .arm7
  · intro cpu
    cases cpu with
    | arm9 => exact (tracks.bounded .arm9).unmap physTable _
    | arm7 => exact tracks.bounded .arm7
  · intro cpu bank page
    cases cpu with
    | arm9 =>
        refine (MemoryMap.multiplicity_unmap physTable _ _ _ _).trans ?_
        rw [if_neg (fun same => region_ne_tcm bank mode same.1), Nat.sub_zero]
    | arm7 => rfl

theorem Tracks.remapTcm (tracks : Tracks state history) (call : TcmCall) :
    Tracks (state.remapTcm call) history := by
  have cleared := tracks.unmapTcm call.mode
  have mapping : (state.remapTcm call).mapping =
      (state.unmapTcm (VramState.tcmRegion call.mode)).mapping := rfl
  apply cleared.congr mapping
  · intro cpu
    cases cpu with
    | arm9 =>
        apply (cleared.clashless .arm9).mapRegion physTable (priority_alone (tcm_special call.mode))
        intro page _ _
        exact
          (tracks.clashless .arm9).multiplicity_unmap_self physTable (tracks.bounded .arm9) _ page
    | arm7 => exact tracks.clashless .arm7
  · intro cpu
    cases cpu with
    | arm9 =>
        apply (cleared.bounded .arm9).mapRegion physTable
        exact Nat.div_le_of_le_mul (BitVec.isLt _).le
    | arm7 => exact tracks.bounded .arm7
  · intro cpu bank page
    cases cpu with
    | arm9 =>
        refine (MemoryMap.multiplicity_mapRegion physTable _ _ _ _ _ _).trans ?_
        rw [if_neg (fun same => region_ne_tcm bank call.mode same.1), Nat.add_zero]
    | arm7 => rfl

/-- The lines of plain banks, one after the other. -/
theorem Tracks.remap_plain {banks : List VramBank} (plain : ∀ bank ∈ banks, bank.Plain)
    {state : VramState} (tracks : Tracks state history) :
    (∀ stage ∈ VramState.remapStages banks state, stage.ClashFree) ∧
      ∀ next ∈ banks.foldlM VramState.remapBank state,
        Tracks next history ∧ next.vramcnt = state.vramcnt := by
  induction banks generalizing state with
  | nil =>
      refine ⟨fun stage member => (nomatch member), ?_⟩
      rintro next ⟨⟩
      exact ⟨tracks, rfl⟩
  | cons bank banks ih =>
      obtain ⟨clashFree, keeps⟩ := tracks.remapBank_plain (plain bank List.mem_cons_self)
      rw [VramState.remapStages, List.foldlM_cons]
      cases moved : state.remapBank bank with
      | none =>
          refine ⟨fun stage member => clashFree stage (by simpa using member), ?_⟩
          intro next member
          cases member
      | some first =>
          obtain ⟨firstTracks, firstBytes⟩ := keeps first moved
          obtain ⟨laterFree, laterKeeps⟩ :=
            ih (fun other member => plain other (List.mem_cons_of_mem _ member)) firstTracks
          refine ⟨fun stage member => ?_, fun next member => ?_⟩
          · rcases List.mem_append.mp member with now | later
            · exact clashFree stage now
            · exact laterFree stage later
          · obtain ⟨nextTracks, nextBytes⟩ := laterKeeps next member
            exact ⟨nextTracks, nextBytes.trans firstBytes⟩

theorem VramState.remapStages_append (first second : List VramBank) (state : VramState) :
    remapStages (first ++ second) state =
      remapStages first state ++
        match first.foldlM remapBank state with
        | some next => remapStages second next
        | none => [] := by
  induction first generalizing state with
  | nil => rfl
  | cons bank first ih =>
      rw [List.cons_append, remapStages, remapStages, List.foldlM_cons]
      cases state.remapBank bank with
      | none => simp
      | some next =>
          simp only [ih]
          rw [List.append_assoc]
          rfl

/-- The banks before bank H in `remap`. -/
def plainBanks : List VramBank := [.a, .b, .c, .d, .e, .f, .g]

theorem plain_of_mem : ∀ bank ∈ plainBanks, bank.Plain := by
  intro bank member
  simp only [plainBanks, List.mem_cons, List.not_mem_nil, or_false] at member
  rcases member with rfl | rfl | rfl | rfl | rfl | rfl | rfl <;> exact ⟨nofun, nofun⟩

theorem mem_plainBanks {bank : VramBank} (plain : bank.Plain) : bank ∈ plainBanks := by
  obtain ⟨notH, notI⟩ := plain
  cases bank <;> first | exact absurd rfl notH | exact absurd rfl notI | decide

/-- The lines of plain banks go through when no lookup is out of bounds. -/
theorem foldlM_isSome_iff {banks : List VramBank} (state : VramState) :
    (banks.foldlM VramState.remapBank state).isSome ↔
      ∀ bank ∈ banks, ¬ LookupOutside bank (state.vramcnt bank.byteIndex) := by
  induction banks generalizing state with
  | nil => simp
  | cons bank banks ih =>
      have line : (state.remapBank bank).isSome ↔
          ¬ LookupOutside bank (state.vramcnt bank.byteIndex) := by
        rw [VramState.remapBank_eq, LookupOutside]
        split
        · next enabled =>
          cases bankRequest bank (state.vramcnt bank.byteIndex) <;> simp [enabled]
        · next disabled => simp [disabled]
      rw [List.foldlM_cons, List.forall_mem_cons, ← line]
      cases moved : state.remapBank bank with
      | none => simp
      | some next =>
          have bytes : next.vramcnt = state.vramcnt := (remapBank_frame moved).1
          simpa [bytes] using ih next

/-- A lookup out of bounds ends `remap` before banks H and I. -/
theorem Tracks.remap_outside (tracks : Tracks state history) {bank : VramBank}
    (outside : LookupOutside bank (state.vramcnt bank.byteIndex)) (plain : bank.Plain) :
    (∀ stage ∈ VramState.remapStages [.a, .b, .c, .d, .e, .f, .g, .h, .i] state,
      stage.ClashFree) ∧ state.remap = none := by
  have stopped : plainBanks.foldlM VramState.remapBank state = none := by
    rw [← Option.not_isSome_iff_eq_none, foldlM_isSome_iff]
    exact fun inside => inside bank (mem_plainBanks plain) outside
  have split : [VramBank.a, .b, .c, .d, .e, .f, .g, .h, .i] = plainBanks ++ [.h, .i] := rfl
  rw [VramState.remap, split, VramState.remapStages_append, List.foldlM_append, stopped,
    List.append_nil]
  exact ⟨(tracks.remap_plain plain_of_mem).1, rfl⟩

/-- With all lookups in bounds `remap` clashes when the byte of bank I enables
it where it was disabled. -/
theorem Tracks.remap_inside (tracks : Tracks state history)
    (inside : ∀ bank : VramBank, ¬ LookupOutside bank (state.vramcnt bank.byteIndex)) :
    ((∀ stage ∈ VramState.remapStages [.a, .b, .c, .d, .e, .f, .g, .h, .i] state,
        stage.ClashFree) ↔ history.Fresh (state.vramcnt 9)) ∧
      (history.Fresh (state.vramcnt 9) → ∃ next ∈ state.remap,
        Tracks next (history.write (state.vramcnt 9)) ∧ next.vramcnt = state.vramcnt) := by
  have passed : (plainBanks.foldlM VramState.remapBank state).isSome :=
    (foldlM_isSome_iff state).mpr fun bank _ => inside bank
  obtain ⟨first, moved⟩ := Option.isSome_iff_exists.mp passed
  obtain ⟨clashFree, keeps⟩ := tracks.remap_plain plain_of_mem
  obtain ⟨firstTracks, bytes⟩ := keeps first moved
  obtain ⟨hFree, hMoved⟩ := firstTracks.remapBank_h
  have line : BankILine first history (first.vramcnt 9) := by
    by_cases enabled : vramEnabled (first.vramcnt 9)
    · exact firstTracks.remapBank_i_enabled enabled
    · exact firstTracks.remapBank_i_disabled enabled
  rw [bytes] at line
  have split : [VramBank.a, .b, .c, .d, .e, .f, .g, .h, .i] = plainBanks ++ [.h, .i] := rfl
  have later : VramState.remapStages [.h, .i] first =
      first.bankStages .h ++ first.bankStages .i := by
    rw [VramState.remapStages, hMoved]
    simp only [VramState.remapStages]
    cases first.remapBank .i <;> simp
  have last : [VramBank.h, .i].foldlM VramState.remapBank first = first.remapBank .i := by
    rw [List.foldlM_cons, hMoved]
    exact bind_pure (first.remapBank .i)
  rw [VramState.remap, split, VramState.remapStages_append, List.foldlM_append, moved]
  dsimp only
  rw [later]
  constructor
  · rw [← line.1]
    simp only [List.mem_append]
    exact ⟨fun all stage member => all stage (Or.inr (Or.inr member)), fun all stage member =>
      member.elim (clashFree stage) fun member => member.elim (hFree stage) (all stage)⟩
  · intro fresh
    obtain ⟨next, isNext, nextTracks, nextBytes⟩ := line.2 fresh
    exact ⟨next, last.trans isNext, nextTracks, nextBytes.trans bytes⟩

end

/-! ### Runs -/

/-- The byte of bank I has been taken in. -/
def BankIHistory.TookIn (history : BankIHistory) (value : BitVec 8) : Prop :=
  history.write value = history ∧ history.Fresh value

theorem BankIHistory.tookIn_write (history : BankIHistory) (value : BitVec 8) :
    (history.write value).TookIn value := by
  rw [TookIn]
  by_cases enabled : vramEnabled value
  · cases placed : bankIPlace value with
    | none => simp [write, Fresh, enabled, placed]
    | some place =>
        have current : (history.write value).current = some place := by
          rw [write, if_pos enabled, placed]
          cases remembered : history.current with
          | none => rfl
          | some old =>
              by_cases same : old = place
              · simp [same, remembered]
              · simp [same]
        constructor
        · rw [write, if_pos enabled, placed, current]
          exact if_pos rfl
        · intro other _ forgotten
          rw [current] at forgotten
          cases forgotten
  · have off : bankIPlace value = none := if_neg enabled
    simp [write, Fresh, enabled, off]

/-- The state and the history belong together. -/
def Together : Option VramState → Option BankIHistory → Prop
  | some state, some history =>
      Tracks state history ∧ history.TookIn (state.vramcnt 9) ∧
        ∀ bank : VramBank, ¬ LookupOutside bank (state.vramcnt bank.byteIndex)
  | none, none => True
  | _, _ => False

/-- Writing another control byte leaves the one of bank I. -/
theorem update_vramcnt_nine (bytes : Fin 10 → BitVec 8) (bank : VramBank) (value : BitVec 8) :
    Function.update bytes bank.byteIndex value 9 = if bank = .i then value else bytes 9 := by
  cases bank <;> rfl

theorem plain_of_lookupOutside : ∀ (bank : VramBank) (value : BitVec 8),
    LookupOutside bank value → bank.Plain := by
  intro bank
  cases bank with
  | h => decide +kernel
  | i => decide +kernel
  | _ => exact fun _ _ => ⟨nofun, nofun⟩

theorem Tracks.together_write {state : VramState} {history : BankIHistory}
    (tracks : Tracks state history) (tookIn : history.TookIn (state.vramcnt 9))
    (inside : ∀ bank : VramBank, ¬ LookupOutside bank (state.vramcnt bank.byteIndex))
    (bank : VramBank) (value : BitVec 8) :
    (OpClashFree (some state) (.writeVcnt bank value) ↔
        OpFresh (some history) (.writeVcnt bank value)) ∧
      (OpFresh (some history) (.writeVcnt bank value) →
        Together (mapOpStep (some state) (.writeVcnt bank value))
          (historyStep (some history) (.writeVcnt bank value))) := by
  have written : Tracks { state with
      vramcnt := Function.update state.vramcnt bank.byteIndex value } history :=
    tracks.congr rfl tracks.clashless tracks.bounded fun _ _ _ => rfl
  have clashFree : OpClashFree (some state) (.writeVcnt bank value) ↔
      ∀ stage ∈ VramState.remapStages [.a, .b, .c, .d, .e, .f, .g, .h, .i]
        { state with vramcnt := Function.update state.vramcnt bank.byteIndex value },
        stage.ClashFree := by
    simp [OpClashFree, VramState.stages]
  have fresh : OpFresh (some history) (.writeVcnt bank value) ↔
      (bank = .i → history.Fresh value) := by
    constructor
    · rintro fresh rfl
      exact fresh history rfl value rfl
    · rintro fresh _ ⟨⟩ _ ⟨⟩
      exact fresh rfl
  rw [clashFree, fresh]
  by_cases outside : LookupOutside bank value
  · have plain := plain_of_lookupOutside bank value outside
    have updated : LookupOutside bank
        (Function.update state.vramcnt bank.byteIndex value bank.byteIndex) := by
      rwa [Function.update_self]
    obtain ⟨allFree, stopped⟩ := written.remap_outside updated plain
    refine ⟨iff_of_true allFree fun isI => absurd isI plain.2, fun _ => ?_⟩
    have noHistory : historyStep (some history) (.writeVcnt bank value) = none := if_pos outside
    have noState : mapOpStep (some state) (.writeVcnt bank value) = none := stopped
    rw [noHistory, noState]
    trivial
  · have allInside (other : VramBank) : ¬ LookupOutside other
        (Function.update state.vramcnt bank.byteIndex value other.byteIndex) := by
      by_cases same : other = bank
      · subst same
        simpa using outside
      · rw [Function.update_of_ne (fun equal => same (VramBank.byteIndex_injective equal))]
        exact inside other
    obtain ⟨free, moves⟩ := written.remap_inside allInside
    have nine := update_vramcnt_nine state.vramcnt bank value
    have asked : history.Fresh (Function.update state.vramcnt bank.byteIndex value 9) ↔
        (bank = .i → history.Fresh value) := by
      rw [nine]
      by_cases isI : bank = .i
      · simp [isI]
      · simp [isI, tookIn.2]
    refine ⟨free.trans asked, fun isFresh => ?_⟩
    obtain ⟨next, moved, nextTracks, bytes⟩ := moves (asked.mpr isFresh)
    have isNext : mapOpStep (some state) (.writeVcnt bank value) = some next := moved
    have isHistory : historyStep (some history) (.writeVcnt bank value) =
        some (history.write (Function.update state.vramcnt bank.byteIndex value 9)) := by
      refine (if_neg outside).trans ?_
      rw [nine]
      by_cases isI : bank = .i
      · rw [if_pos isI, if_pos isI]
      · rw [if_neg isI, if_neg isI, tookIn.1]
    rw [isNext, isHistory]
    refine ⟨nextTracks, ?_, ?_⟩
    · rw [bytes]
      exact history.tookIn_write _
    · rw [bytes]
      exact allInside

/-- One operation: it clashes nowhere exactly when it is fresh, and then state
and history stay together. -/
theorem Together.step {state : Option VramState} {history : Option BankIHistory}
    (together : Together state history) (op : MapOp) :
    (OpClashFree state op ↔ OpFresh history op) ∧
      (OpFresh history op → Together (mapOpStep state op) (historyStep history op)) := by
  cases state with
  | none =>
      cases history with
      | none => exact ⟨iff_of_true nofun nofun, fun _ => trivial⟩
      | some history => exact together.elim
  | some state =>
      cases history with
      | none => exact together.elim
      | some history =>
          obtain ⟨tracks, tookIn, inside⟩ := together
          cases op with
          | remapTcm call =>
              have moved := tracks.remapTcm call
              refine ⟨iff_of_true ?_ nofun, fun _ => ⟨moved, tookIn, inside⟩⟩
              rintro _ ⟨⟩ stage member
              rcases List.mem_pair.mp member with rfl | rfl
              · exact (tracks.unmapTcm call.mode).clashFree
              · exact moved.clashFree
          | writeVcnt bank value =>
              exact tracks.together_write tookIn inside bank value

namespace MemoryMap

theorem priorityCount_mapRange (memory : MemoryMap PhysRegion) (region : PhysRegion)
    (low high priority page : Nat) :
    (memory.mapRange region low high).priorityCount physTable priority page =
      memory.priorityCount physTable priority page +
        if region.priority = priority ∧ low / 512 ≤ page ∧ page < high / 512 then 1 else 0 :=
  priorityCount_mapRegion physTable memory region (low / 512) (high / 512) priority page

theorem priorityCount_mapAt (memory : MemoryMap PhysRegion) (region : PhysRegion)
    (start priority page : Nat) :
    (memory.mapAt region start).priorityCount physTable priority page =
      memory.priorityCount physTable priority page +
        if region.priority = priority ∧ start ≤ page ∧ page < start + region.pages then 1 else 0 :=
  priorityCount_mapRegion physTable memory region start (start + region.pages) priority page

theorem Clashless.mapRange {memory : MemoryMap PhysRegion}
    (clashless : memory.Clashless physTable) {region : PhysRegion} {low high : Nat}
    (apart : ∀ page, low / 512 ≤ page → page < high / 512 →
      memory.priorityCount physTable region.priority page = 0) :
    (memory.mapRange region low high).Clashless physTable :=
  clashless.mapRegion_apart physTable apart

theorem Clashless.mapAt {memory : MemoryMap PhysRegion} (clashless : memory.Clashless physTable)
    {region : PhysRegion} {start : Nat}
    (apart : ∀ page, start ≤ page → page < start + region.pages →
      memory.priorityCount physTable region.priority page = 0) :
    (memory.mapAt region start).Clashless physTable :=
  clashless.mapRegion_apart physTable apart

theorem priorityCount_null (priority page : Nat) :
    (initNull physTable).priorityCount physTable priority page =
      if 0 = priority ∧ page < totalPages then 1 else 0 :=
  priorityCount_initNull physTable priority page

theorem clashless_null : (initNull physTable).Clashless physTable := by
  intro priority page
  rw [priorityCount_null]
  split <;> omega

end MemoryMap

/-- The regions of the initial mapping lie apart, over the null region. -/
theorem clashless_initializeMapping (cpu : Cpu) :
    (initializeMapping cpu).Clashless physTable := by
  cases cpu with
  | arm9 =>
      unfold initializeMapping
      refine .mapRange (.mapAt (.mapAt (.mapAt (.mapAt (.mapAt MemoryMap.clashless_null
        ?_) ?_) ?_) ?_) ?_) ?_
      all_goals
        intro page lowerLe ltUpper
        simp only [PhysRegion.pages, PhysRegion.bytes, Nat.reduceDiv] at lowerLe ltUpper
        simp (disch := omega) only [MemoryMap.priorityCount_mapAt, MemoryMap.priorityCount_null,
          PhysRegion.priority, PhysRegion.pages, PhysRegion.bytes, if_neg]
  | arm7 =>
      unfold initializeMapping
      refine .mapRange (.mapRange (.mapRange (.mapRange (.mapAt (.mapAt (.mapRange (.mapRange
        (.mapRange (.mapAt MemoryMap.clashless_null ?_) ?_) ?_) ?_) ?_) ?_) ?_) ?_) ?_) ?_
      all_goals
        intro page lowerLe ltUpper
        simp only [PhysRegion.pages, PhysRegion.bytes, Nat.reduceDiv] at lowerLe ltUpper
        simp (disch := omega) only [MemoryMap.priorityCount_mapRange,
          MemoryMap.priorityCount_mapAt, MemoryMap.priorityCount_null, PhysRegion.priority,
          PhysRegion.pages, PhysRegion.bytes, if_neg]

theorem bounded_initializeMapping (cpu : Cpu) : (initializeMapping cpu).Bounded := by
  have null : (MemoryMap.initNull physTable).Bounded := by
    intro region page beyond
    rw [MemoryMap.multiplicity_initNull, if_neg (by omega)]
  have mapAt {memory : MemoryMap PhysRegion} (bounded : memory.Bounded) {region : PhysRegion}
      {start : Nat} (fits : start + region.pages ≤ totalPages) :
      (memory.mapAt region start).Bounded := bounded.mapRegion physTable region start fits
  have mapRange {memory : MemoryMap PhysRegion} (bounded : memory.Bounded) {region : PhysRegion}
      {low high : Nat} (fits : high / 512 ≤ totalPages) :
      (memory.mapRange region low high).Bounded :=
    bounded.mapRegion physTable region (low / 512) fits
  cases cpu with
  | arm9 =>
      unfold initializeMapping
      refine mapRange (mapAt (mapAt (mapAt (mapAt (mapAt null ?_) ?_) ?_) ?_) ?_) ?_ <;> decide
  | arm7 =>
      unfold initializeMapping
      refine mapRange (mapRange (mapRange (mapRange (mapAt (mapAt (mapRange (mapRange
        (mapRange (mapAt null ?_) ?_) ?_) ?_) ?_) ?_) ?_) ?_) ?_) ?_ <;> decide

theorem unmapped_init (cpu : Cpu) (bank : VramBank) (page : Nat) :
    (VramState.init.memory cpu).multiplicity bank.region page = 0 := by
  have located := vramTracks_init.located cpu bank
  have place : vramPlace bank (VramState.init.vramcnt bank.byteIndex) cpu = none := by
    cases bank <;> rfl
  rw [place] at located
  simpa using located.covered page

theorem tracks_init : Tracks VramState.init ⟨none, []⟩ where
  clashless := clashless_initializeMapping
  bounded := bounded_initializeMapping
  forgotten := fun cpu bank _ _ page => unmapped_init cpu bank page
  unused := fun _ => rfl
  memo := rfl
  memo_arm7 := rfl
  places := by simp [BankIHistory.Holds]
  uncovered_iff := by
    intro page
    refine iff_of_true (unmapped_init .arm9 .h page) ?_
    simp [BankIHistory.Holds]

theorem together_init : Together (some VramState.init) (some ⟨none, []⟩) := by
  have off : ¬ vramEnabled 0 := by decide
  exact ⟨tracks_init, ⟨rfl, nofun⟩, fun _ outside => off outside.1⟩

/-- From the initial mapping, over all writes of control bytes and all moves of
the tightly coupled memories, no page comes to lie under two regions of one
priority and `recalc_prio` never reports a clash, exactly when bank I is never
enabled where it was disabled. -/
theorem mapping_clashFree_iff (ops : List MapOp) :
    LabelledRun.EveryStep mapOpStep OpClashFree (some VramState.init) ops ↔
      LabelledRun.EveryStep historyStep OpFresh (some ⟨none, []⟩) ops :=
  LabelledRun.everyStep_iff_of_related
    (fun (state : Option VramState) (history : Option BankIHistory) op
      (together : Together state history) (_ : True) => (together.step op).1)
    (fun _ _ op together _ fresh => (together.step op).2 fresh) together_init
    fun _ _ => trivial

/-- What `recalc_prio` reports over one page. -/
def MemoryMap.reportsAt (memory : MemoryMap PhysRegion) (page : Nat) : Bool :=
  (memory.ovl.get page).elim false fun entry => recalcReports physTable entry.sections

theorem MemoryMap.reports_of_reportsAt {memory : MemoryMap PhysRegion} {page : Nat}
    (reported : memory.reportsAt page = true) : memory.Reports physTable := by
  unfold reportsAt at reported
  cases held : memory.ovl.get page with
  | none => simp [held] at reported
  | some entry => exact ⟨page, entry, held, by simpa [held] using reported⟩

/-- Bank I on, off and on again: bank H is mapped over itself, and `recalc_prio`
reports it. -/
theorem mapping_clashes_bankI :
    ¬ ∀ ops, LabelledRun.EveryStep mapOpStep OpClashFree (some VramState.init) ops := by
  intro clashFree
  have steps := clashFree [.writeVcnt .i 0x80, .writeVcnt .i 0x00, .writeVcnt .i 0x80]
  have last := steps.2.2.1
  have reported : ((mapOpStep (mapOpStep (some .init) (.writeVcnt .i 0x80))
      (.writeVcnt .i 0x00)).bind fun current =>
        ((current.stages (.writeVcnt .i 0x80)).getLast?.map fun stage =>
          (stage.memory .arm9).reportsAt 0x344C0)) = some true := by
    decide +kernel
  obtain ⟨current, isCurrent, stages⟩ := Option.bind_eq_some_iff.mp reported
  obtain ⟨stage, isLast, reports⟩ := Option.map_eq_some_iff.mp stages
  have free := last current isCurrent stage (List.mem_of_getLast? isLast) .arm9
  exact free.2 (MemoryMap.reports_of_reportsAt reports)

end Ndse
