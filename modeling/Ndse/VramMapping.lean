import Ndse.Library.LabelledRun
import Ndse.Vram

/-!
# Video memory is placed by its control bytes

Where a bank is mapped should be a function of its current control byte.  The
incremental mapper loses this for banks H and I, whose indices miss their
cases, for banks F and G with an offset, and for a bank that goes directly from
one visible mode to an invisible one or to the other processor.  Over all
sequences of control writes the mapping follows the bytes exactly when none of
these is written.
-/

namespace Ndse

/-! ### What a control byte means -/

/-- The mapping a request asks for. -/
def VcntRequest.target : VcntRequest → Option (Cpu × BitVec 32)
  | .map cpu _ addr => some (cpu, addr)
  | _ => none

/-- The region a request moves. -/
def VcntRequest.moves : VcntRequest → Option PhysRegion
  | .map _ region _ => some region
  | _ => none

/-- Bit 7 of a control byte. -/
def vramEnabled (cnt : BitVec 8) : Prop := cnt.getLsbD 7

instance (cnt : BitVec 8) : Decidable (vramEnabled cnt) :=
  inferInstanceAs (Decidable (_ = true))

/-- Where a control byte places a bank: the bank's own cases, with the offset
table indexed by the two-bit offset. -/
def vramTarget (bank : VramBank) (cnt : BitVec 8) : Option (Cpu × BitVec 32) :=
  if vramEnabled cnt then
    let mst := cnt.setWidth 32 &&& 0x7
    let ofs := (cnt.setWidth 32 >>> 3) &&& 0x3
    match bank with
    | .a => (vcntAB .vramA 0x06800000 (mst &&& 0x3) (ofs <<< 3)).target
    | .b => (vcntAB .vramB 0x06820000 (mst &&& 0x3) (ofs <<< 3)).target
    | .c => (vcntCD .vramC 0x06840000 0x06200000 mst (ofs <<< 3)).target
    | .d => (vcntCD .vramD 0x06860000 0x06600000 mst (ofs <<< 3)).target
    | .e => (vcntE mst).target
    | .f => (vcntFG .vramF 0x06890000 mst ofs).target
    | .g => (vcntFG .vramG 0x06894000 mst ofs).target
    | .h => (vcntH (mst &&& 0x3)).target
    | .i => (vcntI (mst &&& 0x3)).target
  else none

/-- The address a control byte gives a bank on one processor. -/
def vramPlace (bank : VramBank) (cnt : BitVec 8) (cpu : Cpu) : Option (BitVec 32) :=
  (vramTarget bank cnt).bind fun target => if target.1 = cpu then some target.2 else none

/-- The pages of a region that starts at an address. -/
def SpansAt (region : PhysRegion) (addr : BitVec 32) (page : Nat) : Prop :=
  (addr >>> 9).toNat ≤ page ∧ page < (addr >>> 9).toNat + region.pages

instance (region : PhysRegion) (addr : BitVec 32) (page : Nat) :
    Decidable (SpansAt region addr page) :=
  inferInstanceAs (Decidable (_ ∧ _))

/-- Each bank is mapped on each processor exactly where its control byte says. -/
def MappingFollows (state : VramState) : Prop :=
  ∀ cpu bank page, (state.memory cpu).Mapped bank.region page ↔
    ∃ addr ∈ vramPlace bank (state.vramcnt bank.byteIndex) cpu, SpansAt bank.region addr page

/-! ### Control writes -/

/-- A write of one control byte. -/
structure VcntWrite where
  bank : VramBank
  value : BitVec 8
deriving DecidableEq

/-- Run a write, unless a lookup was out of bounds before. -/
def vcntStep (state : Option VramState) (write : VcntWrite) : Option VramState :=
  state.bind fun state => state.writeVcnt write.bank write.value

/-- No lookup was out of bounds and the mapping follows the control bytes. -/
def VramGood (state : Option VramState) : Prop :=
  ∃ current ∈ state, MappingFollows current

/-- The control bytes the mapper can serve: banks H and I invisible, and banks F
and G without offset where they would look it up. -/
def VcntSupported : VramBank → BitVec 8 → Prop
  | .f, cnt | .g, cnt =>
      vramEnabled cnt → cnt &&& 0x7 = 1 ∨ cnt &&& 0x7 = 2 → cnt &&& 0x18 = 0
  | .h, cnt => vramTarget .h cnt = none
  | .i, cnt => vramTarget .i cnt = none
  | _, _ => True

instance : ∀ bank cnt, Decidable (VcntSupported bank cnt)
  | .f, _ | .g, _ => inferInstanceAs (Decidable (_ → _ → _))
  | .h, _ | .i, _ => inferInstanceAs (Decidable (_ = _))
  | .a, _ | .b, _ | .c, _ | .d, _ | .e, _ => isTrue trivial

/-- The byte is supported, and a bank that is visible on one processor stays
visible there or is disabled. -/
def VcntServed (state : Option VramState) (write : VcntWrite) : Prop :=
  VcntSupported write.bank write.value ∧
    ∀ current ∈ state, ∀ cpu,
      (vramPlace write.bank (current.vramcnt write.bank.byteIndex) cpu).isSome →
        vramEnabled write.value → (vramPlace write.bank write.value cpu).isSome

/-! ### One bank on one processor -/

/-- The index `remap` passes for a bank. -/
def VramBank.idx (bank : VramBank) : Fin 10 := (VramState.remapArgs bank).2.2

theorem VramBank.idx_injective : Function.Injective VramBank.idx := by
  intro first second
  cases first <;> cases second <;> decide

theorem VramBank.byteIndex_injective : Function.Injective VramBank.byteIndex := by
  intro first second
  cases first <;> cases second <;> decide

theorem VramBank.region_injective : Function.Injective VramBank.region := by
  intro first second
  cases first <;> cases second <;> decide

/-- A bank is remembered at an address and mapped once, over its pages there. -/
structure BankAt (state : VramState) (cpu : Cpu) (bank : VramBank)
    (place : Option (BitVec 32)) : Prop where
  remembered : state.mapping cpu bank.idx = place.getD 0
  covered : ∀ page, (state.memory cpu).multiplicity bank.region page =
    if ∃ addr ∈ place, SpansAt bank.region addr page then 1 else 0

/-- Addresses the mapper can remember, of regions that fit the address space. -/
def PlaceValid (bank : VramBank) (place : Option (BitVec 32)) : Prop :=
  ∀ addr ∈ place, addr ≠ 0 ∧ (addr >>> 9).toNat + bank.region.pages ≤ totalPages

theorem vramTarget_valid (bank : VramBank) :
    ∀ cnt, ∀ target ∈ vramTarget bank cnt,
      target.2 ≠ 0 ∧ (target.2 >>> 9).toNat + bank.region.pages ≤ totalPages := by
  cases bank <;> decide +kernel

theorem vramPlace_valid (bank : VramBank) (cnt : BitVec 8) (cpu : Cpu) :
    PlaceValid bank (vramPlace bank cnt cpu) := by
  intro addr member
  obtain ⟨target, targetMember, placed⟩ := Option.bind_eq_some_iff.mp member
  split at placed
  · obtain rfl := Option.some.inj placed
    exact vramTarget_valid bank cnt target targetMember
  · cases placed

namespace VramState

@[simp]
theorem unmapBank_vramcnt (state : VramState) (cpu : Cpu) (idx : Fin 10)
    (region : PhysRegion) : (state.unmapBank cpu idx region).vramcnt = state.vramcnt := by
  unfold unmapBank
  split <;> rfl

@[simp]
theorem mapBank_vramcnt (state : VramState) (cpu : Cpu) (idx : Fin 10)
    (region : PhysRegion) (addr : BitVec 32) :
    (state.mapBank cpu idx region addr).vramcnt = state.vramcnt := by
  unfold mapBank
  split
  · exact unmapBank_vramcnt state cpu idx region
  · rfl

theorem unmapBank_mapping (state : VramState) (cpu : Cpu) (idx : Fin 10)
    (region : PhysRegion) (otherCpu : Cpu) (otherIdx : Fin 10) :
    (state.unmapBank cpu idx region).mapping otherCpu otherIdx =
      if otherCpu = cpu ∧ otherIdx = idx then 0 else state.mapping otherCpu otherIdx := by
  unfold unmapBank
  by_cases sameCpu : otherCpu = cpu <;> by_cases sameIdx : otherIdx = idx <;>
    split <;> simp_all

theorem mapBank_mapping (state : VramState) (cpu : Cpu) (idx : Fin 10)
    (region : PhysRegion) (addr : BitVec 32) (otherCpu : Cpu) (otherIdx : Fin 10) :
    (state.mapBank cpu idx region addr).mapping otherCpu otherIdx =
      if otherCpu = cpu ∧ otherIdx = idx then addr else state.mapping otherCpu otherIdx := by
  unfold mapBank
  by_cases sameCpu : otherCpu = cpu <;> by_cases sameIdx : otherIdx = idx <;>
    split <;> simp_all [unmapBank_mapping]

theorem unmapBank_multiplicity (state : VramState) (cpu : Cpu) (idx : Fin 10)
    (region : PhysRegion) (otherCpu : Cpu) (other : PhysRegion) (page : Nat) :
    ((state.unmapBank cpu idx region).memory otherCpu).multiplicity other page =
      (state.memory otherCpu).multiplicity other page -
        if otherCpu = cpu ∧ state.mapping cpu idx ≠ 0 ∧ region = other ∧ page < totalPages then 1
        else 0 := by
  unfold unmapBank
  by_cases sameCpu : otherCpu = cpu
  · subst sameCpu
    split
    next mapped =>
      have remembered : state.mapping otherCpu idx ≠ 0#32 := mapped
      simp [remembered, MemoryMap.multiplicity_unmap]
    next unmapped => simp [not_not.mp unmapped]
  · split <;> simp [sameCpu]

theorem mapBank_multiplicity (state : VramState) (cpu : Cpu) (idx : Fin 10)
    (region : PhysRegion) (addr : BitVec 32) (otherCpu : Cpu) (other : PhysRegion)
    (page : Nat) :
    ((state.mapBank cpu idx region addr).memory otherCpu).multiplicity other page =
      if state.mapping cpu idx = addr then (state.memory otherCpu).multiplicity other page
      else
        ((state.unmapBank cpu idx region).memory otherCpu).multiplicity other page +
          if otherCpu = cpu ∧ region = other ∧ SpansAt region addr page then 1 else 0 := by
  unfold mapBank
  by_cases same : state.mapping cpu idx = addr
  · simp [same]
  · rw [if_pos same, if_neg same]
    by_cases sameCpu : otherCpu = cpu
    · subst sameCpu
      simp [MemoryMap.mapAt, MemoryMap.multiplicity_mapRegion, SpansAt]
    · simp [sameCpu]

end VramState

/-- Unmapping a bank leaves it nowhere on that processor. -/
theorem BankAt.unmapBank {state : VramState} {cpu : Cpu} {bank : VramBank}
    {place : Option (BitVec 32)} (located : BankAt state cpu bank place)
    (valid : PlaceValid bank place) :
    BankAt (state.unmapBank cpu bank.idx bank.region) cpu bank none where
  remembered := by simp [VramState.unmapBank_mapping]
  covered := by
    intro page
    rw [VramState.unmapBank_multiplicity, located.covered page, located.remembered]
    cases place with
    | none => simp
    | some addr =>
        obtain ⟨nonzero, fits⟩ := valid addr rfl
        by_cases inside : SpansAt bank.region addr page
        · have inTable : page < totalPages := inside.2.trans_le fits
          have moved : addr ≠ 0#32 := nonzero
          simp [inside, moved, inTable]
        · simp [inside]

/-- Mapping a bank places it at the address, wherever it was before. -/
theorem BankAt.mapBank {state : VramState} {cpu : Cpu} {bank : VramBank}
    {place : Option (BitVec 32)} (located : BankAt state cpu bank place)
    (valid : PlaceValid bank place) {addr : BitVec 32} (nonzero : addr ≠ 0) :
    BankAt (state.mapBank cpu bank.idx bank.region addr) cpu bank (some addr) where
  remembered := by simp [VramState.mapBank_mapping]
  covered := by
    intro page
    rw [VramState.mapBank_multiplicity]
    by_cases same : state.mapping cpu bank.idx = addr
    · rw [if_pos same, located.covered page]
      rw [located.remembered] at same
      cases place with
      | none => exact absurd same.symm nonzero
      | some old => rw [Option.getD_some] at same; rw [same]
    · rw [if_neg same, (located.unmapBank valid).covered page]
      simp

/-- Moving a bank does not touch another bank or the other processor. -/
theorem BankAt.unmapBank_other {state : VramState} {cpu : Cpu} {bank : VramBank}
    {place : Option (BitVec 32)} (located : BankAt state cpu bank place)
    {movedCpu : Cpu} {moved : VramBank} (other : cpu ≠ movedCpu ∨ bank ≠ moved) :
    BankAt (state.unmapBank movedCpu moved.idx moved.region) cpu bank place where
  remembered := by
    rw [VramState.unmapBank_mapping, if_neg, located.remembered]
    rintro ⟨sameCpu, sameIdx⟩
    exact other.elim (absurd sameCpu) (absurd (VramBank.idx_injective sameIdx))
  covered := by
    intro page
    rw [VramState.unmapBank_multiplicity, if_neg, located.covered page, Nat.sub_zero]
    rintro ⟨sameCpu, -, sameRegion, -⟩
    exact other.elim (absurd sameCpu) (absurd (VramBank.region_injective sameRegion).symm)

theorem BankAt.mapBank_other {state : VramState} {cpu : Cpu} {bank : VramBank}
    {place : Option (BitVec 32)} (located : BankAt state cpu bank place)
    {movedCpu : Cpu} {moved : VramBank} (other : cpu ≠ movedCpu ∨ bank ≠ moved)
    (addr : BitVec 32) :
    BankAt (state.mapBank movedCpu moved.idx moved.region addr) cpu bank place where
  remembered := by
    rw [VramState.mapBank_mapping, if_neg, located.remembered]
    rintro ⟨sameCpu, sameIdx⟩
    exact other.elim (absurd sameCpu) (absurd (VramBank.idx_injective sameIdx))
  covered := by
    intro page
    rw [VramState.mapBank_multiplicity]
    split
    · exact located.covered page
    · rw [(located.unmapBank_other other).covered page]
      refine (congrArg _ (if_neg ?_)).trans (Nat.add_zero _)
      rintro ⟨sameCpu, sameRegion, -⟩
      exact other.elim (absurd sameCpu) (absurd (VramBank.region_injective sameRegion).symm)

/-! ### One line of `remap` -/

theorem vramEnabled_iff : ∀ cnt : BitVec 8,
    cnt.setWidth 32 &&& (0x80 : BitVec 32) ≠ 0 ↔ vramEnabled cnt := by
  decide +kernel

/-- For a supported byte the switch of `map_vcnt` asks for what the bank's own
cases say. -/
theorem vcntRequest_eq (bank : VramBank) :
    ∀ cnt, VcntSupported bank cnt → vramEnabled cnt →
      vcntRequest bank.idx (cnt.setWidth 32 &&& (VramState.remapArgs bank).1)
          (cnt.setWidth 32 &&& (VramState.remapArgs bank).2.1) =
        (vramTarget bank cnt).elim .invalid fun target => .map target.1 bank.region target.2 := by
  cases bank <;> decide +kernel

/-- For an unsupported byte of bank F or G the lookup is out of bounds. -/
theorem vcntRequest_outOfBounds (bank : VramBank) (offsets : bank = .f ∨ bank = .g) :
    ∀ cnt, ¬ VcntSupported bank cnt →
      vramEnabled cnt ∧ vcntRequest bank.idx (cnt.setWidth 32 &&& (VramState.remapArgs bank).1)
        (cnt.setWidth 32 &&& (VramState.remapArgs bank).2.1) = .outOfBounds := by
  obtain rfl | rfl := offsets <;> decide +kernel

/-- Banks H and I are never mapped: the index of the one has no case, and the
index of the other selects the cases of the one. -/
theorem vcntRequest_hidden (bank : VramBank) (hidden : bank = .h ∨ bank = .i) :
    ∀ cnt : BitVec 8,
      (vcntRequest bank.idx (cnt.setWidth 32 &&& (VramState.remapArgs bank).1)
        (cnt.setWidth 32 &&& (VramState.remapArgs bank).2.1)).moves ≠ some bank.region := by
  obtain rfl | rfl := hidden <;> decide +kernel

theorem vcntBanks_idx (bank : VramBank) : vcntBanks[bank.idx.val]? = some bank.region := by
  cases bank <;> rfl

theorem remapBank_of_supported {state : VramState} {bank : VramBank}
    (supported : VcntSupported bank (state.vramcnt bank.byteIndex)) :
    state.remapBank bank =
      some (if vramEnabled (state.vramcnt bank.byteIndex) then
        (vramTarget bank (state.vramcnt bank.byteIndex)).elim state fun target =>
          state.mapBank target.1 bank.idx bank.region target.2
      else (state.unmapBank .arm7 bank.idx bank.region).unmapBank .arm9 bank.idx bank.region) := by
  unfold VramState.remapBank VramState.mapVcnt
  by_cases enabled : vramEnabled (state.vramcnt bank.byteIndex)
  · simp only [if_pos ((vramEnabled_iff _).mpr enabled), if_pos enabled]
    have request := vcntRequest_eq bank _ supported enabled
    rw [VramBank.idx] at request
    rw [request]
    cases vramTarget bank (state.vramcnt bank.byteIndex) <;> rfl
  · simp only [if_neg (mt (vramEnabled_iff _).mp enabled), if_neg enabled]
    have region := vcntBanks_idx bank
    rw [VramBank.idx] at region
    rw [region]
    rfl

/-- For an unsupported byte of bank F or G `remap` reads behind its table. -/
theorem remapBank_outOfBounds {state : VramState} {bank : VramBank}
    (offsets : bank = .f ∨ bank = .g)
    (unsupported : ¬ VcntSupported bank (state.vramcnt bank.byteIndex)) :
    state.remapBank bank = none := by
  obtain ⟨enabled, request⟩ := vcntRequest_outOfBounds bank offsets _ unsupported
  rw [VramBank.idx] at request
  simp only [VramState.remapBank, VramState.mapVcnt, request,
    if_pos ((vramEnabled_iff _).mpr enabled)]

/-- `remap` never maps bank H or I itself. -/
theorem remapBank_hidden {state next : VramState} {bank : VramBank}
    (hidden : bank = .h ∨ bank = .i) (enabled : vramEnabled (state.vramcnt bank.byteIndex))
    (moved : state.remapBank bank = some next) {cpu : Cpu}
    (none : ∀ page, (state.memory cpu).multiplicity bank.region page = 0) (page : Nat) :
    (next.memory cpu).multiplicity bank.region page = 0 := by
  have elsewhere := vcntRequest_hidden bank hidden (state.vramcnt bank.byteIndex)
  rw [VramBank.idx] at elsewhere
  simp only [VramState.remapBank, VramState.mapVcnt,
    if_pos ((vramEnabled_iff _).mpr enabled)] at moved
  split at moved
  next movedCpu region addr request =>
    obtain rfl := Option.some.inj moved
    have different : region ≠ bank.region := fun same =>
      elsewhere (by rw [request, same]; rfl)
    rw [VramState.mapBank_multiplicity, VramState.unmapBank_multiplicity]
    simp only [different, false_and, and_false, if_false, none, ite_self]
  next =>
    obtain rfl := Option.some.inj moved
    exact none page
  next => cases moved

/-- A supported bank whose remembered addresses are those of its byte. -/
structure Settled (state : VramState) (bank : VramBank) : Prop where
  supported : VcntSupported bank (state.vramcnt bank.byteIndex)
  remembered : ∀ cpu, state.mapping cpu bank.idx =
    (vramPlace bank (state.vramcnt bank.byteIndex) cpu).getD 0

/-- `remap` leaves a settled bank alone. -/
theorem Settled.remapBank {state : VramState} {bank : VramBank} (settled : Settled state bank) :
    state.remapBank bank = some state := by
  rw [remapBank_of_supported settled.supported]
  have remembered := settled.remembered
  simp only [vramPlace] at remembered
  by_cases enabled : vramEnabled (state.vramcnt bank.byteIndex)
  · rw [if_pos enabled]
    cases placed : vramTarget bank (state.vramcnt bank.byteIndex) with
    | none => rfl
    | some target =>
        have here := remembered target.1
        rw [placed, Option.bind_some, if_pos rfl, Option.getD_some] at here
        simp only [Option.elim_some, VramState.mapBank, here, ne_eq, not_true, if_false]
  · rw [if_neg enabled]
    have nowhere (cpu : Cpu) : state.mapping cpu bank.idx = 0 := by
      rw [remembered cpu, vramTarget, if_neg enabled]
      rfl
    simp only [VramState.unmapBank, nowhere, ne_eq, not_true, if_false]

/-- One line of `remap` writes no control byte and remembers only at its own
index. -/
theorem remapBank_frame {state next : VramState} {bank : VramBank}
    (moved : state.remapBank bank = some next) :
    next.vramcnt = state.vramcnt ∧
      ∀ cpu other, other ≠ bank → next.mapping cpu other.idx = state.mapping cpu other.idx := by
  have apart {other : VramBank} (different : other ≠ bank) : other.idx ≠ bank.idx :=
    fun same => different (VramBank.idx_injective same)
  unfold VramState.remapBank VramState.mapVcnt at moved
  have index : (VramState.remapArgs bank).2.2 = bank.idx := rfl
  simp only [index] at moved
  split at moved
  · split at moved
    next cpu region addr _ =>
      obtain rfl := Option.some.inj moved
      refine ⟨VramState.mapBank_vramcnt _ _ _ _ _, fun other bank different => ?_⟩
      rw [VramState.mapBank_mapping, if_neg fun both => apart different both.2]
    next =>
      obtain rfl := Option.some.inj moved
      exact ⟨rfl, fun _ _ _ => rfl⟩
    next => cases moved
  · rw [vcntBanks_idx] at moved
    obtain rfl := Option.some.inj moved
    refine ⟨by rw [VramState.unmapBank_vramcnt, VramState.unmapBank_vramcnt],
      fun cpu other different => ?_⟩
    rw [VramState.unmapBank_mapping, if_neg fun both => apart different both.2,
      VramState.unmapBank_mapping, if_neg fun both => apart different both.2]

theorem Settled.frame {state next : VramState} {bank other : VramBank}
    (settled : Settled state other) (moved : state.remapBank bank = some next)
    (different : other ≠ bank) : Settled next other := by
  obtain ⟨bytes, mappings⟩ := remapBank_frame moved
  refine ⟨bytes ▸ settled.supported, fun cpu => ?_⟩
  rw [mappings cpu other different, bytes]
  exact settled.remembered cpu

theorem foldlM_settled {state : VramState} {banks : List VramBank}
    (settled : ∀ bank ∈ banks, Settled state bank) :
    banks.foldlM VramState.remapBank state = some state := by
  induction banks with
  | nil => rfl
  | cons bank banks ih =>
      rw [List.foldlM_cons, (settled bank (by simp)).remapBank]
      exact ih fun other member => settled other (List.mem_cons_of_mem _ member)

/-- When all other banks are settled, `remap` is its line for one bank. -/
theorem remap_eq_remapBank {state : VramState} (bank : VramBank)
    (settled : ∀ other, other ≠ bank → Settled state other) :
    state.remap = state.remapBank bank := by
  have member : bank ∈ [VramBank.a, .b, .c, .d, .e, .f, .g, .h, .i] := by
    cases bank <;> decide
  have distinct : [VramBank.a, .b, .c, .d, .e, .f, .g, .h, .i].Nodup := by decide
  unfold VramState.remap
  obtain ⟨before, after, split⟩ := List.append_of_mem member
  rw [split] at distinct ⊢
  obtain ⟨-, distinctAfter, apart⟩ := List.nodup_append.mp distinct
  have notBefore : ∀ other ∈ before, other ≠ bank := fun other inBefore =>
    apart other inBefore bank List.mem_cons_self
  have notAfter : ∀ other ∈ after, other ≠ bank := fun other inAfter same =>
    (List.nodup_cons.mp distinctAfter).1 (same ▸ inAfter)
  rw [List.foldlM_append,
    foldlM_settled fun other inBefore => settled other (notBefore other inBefore)]
  change (bank :: after).foldlM VramState.remapBank state = _
  rw [List.foldlM_cons]
  cases moved : state.remapBank bank with
  | none => rfl
  | some next =>
      exact foldlM_settled fun other inAfter =>
        (settled other (notAfter other inAfter)).frame moved (notAfter other inAfter)

/-! ### Whole writes -/

/-- Every bank has a supported byte and is where the byte says on both
processors. -/
structure VramTracks (state : VramState) : Prop where
  supported : ∀ bank : VramBank, VcntSupported bank (state.vramcnt bank.byteIndex)
  located : ∀ cpu bank,
    BankAt state cpu bank (vramPlace bank (state.vramcnt bank.byteIndex) cpu)

theorem BankAt.mapped_iff {state : VramState} {cpu : Cpu} {bank : VramBank}
    {place : Option (BitVec 32)} (located : BankAt state cpu bank place) (page : Nat) :
    (state.memory cpu).Mapped bank.region page ↔
      ∃ addr ∈ place, SpansAt bank.region addr page := by
  rw [MemoryMap.mapped_iff, located.covered page]
  split <;> simp_all

theorem VramTracks.follows {state : VramState} (tracks : VramTracks state) :
    MappingFollows state :=
  fun cpu bank => (tracks.located cpu bank).mapped_iff

/-- A region starts at its address. -/
theorem spansAt_first (bank : VramBank) (addr : BitVec 32) :
    SpansAt bank.region addr (addr >>> 9).toNat :=
  ⟨le_rfl, Nat.lt_add_of_pos_right (physTable.pages_pos bank.region)⟩

/-- Where a supported write leaves a bank: where the byte says, or where it was
if the byte is enabled and says nothing for that processor. -/
def placeAfter (bank : VramBank) (old new : BitVec 8) (cpu : Cpu) : Option (BitVec 32) :=
  if vramEnabled new then (vramPlace bank new cpu).or (vramPlace bank old cpu) else none

theorem remapBank_located (state : VramState) (bank : VramBank) {old : BitVec 8}
    (supported : VcntSupported bank (state.vramcnt bank.byteIndex))
    (located : ∀ cpu, BankAt state cpu bank (vramPlace bank old cpu)) :
    ∃ next, state.remapBank bank = some next ∧
      (∀ cpu, BankAt next cpu bank (placeAfter bank old (state.vramcnt bank.byteIndex) cpu)) ∧
        ∀ cpu other place, other ≠ bank → BankAt state cpu other place →
          BankAt next cpu other place := by
  refine ⟨_, remapBank_of_supported supported, ?_⟩
  by_cases enabled : vramEnabled (state.vramcnt bank.byteIndex)
  · simp only [placeAfter, if_pos enabled, vramPlace]
    cases placed : vramTarget bank (state.vramcnt bank.byteIndex) with
    | none =>
        exact ⟨fun cpu => by
            simpa only [Option.bind_none, Option.none_or, Option.elim_none, vramPlace]
              using located cpu,
          fun _ _ _ _ elsewhere => elsewhere⟩
    | some target =>
        refine ⟨fun cpu => ?_, fun cpu other place different elsewhere =>
          elsewhere.mapBank_other (Or.inr different) target.2⟩
        rw [Option.bind_some]
        split
        next same =>
          subst same
          exact (located target.1).mapBank (vramPlace_valid bank old target.1)
            (vramTarget_valid bank _ target placed).1
        next different =>
          exact (located cpu).mapBank_other (Or.inl (Ne.symm different)) target.2
  · simp only [placeAfter, if_neg enabled]
    refine ⟨fun cpu => ?_, fun cpu other place different elsewhere =>
      (elsewhere.unmapBank_other (Or.inr different)).unmapBank_other (Or.inr different)⟩
    cases cpu with
    | arm7 =>
        exact ((located .arm7).unmapBank (vramPlace_valid bank old .arm7)).unmapBank_other
          (Or.inl (by decide))
    | arm9 =>
        exact ((located .arm9).unmapBank_other (Or.inl (by decide))).unmapBank
          (vramPlace_valid bank old .arm9)

section

variable {state : VramState} (tracks : VramTracks state) (bank : VramBank) (value : BitVec 8)
include tracks

theorem VramTracks.settled_of_ne (other : VramBank) (different : other ≠ bank) :
    Settled { state with vramcnt := Function.update state.vramcnt bank.byteIndex value }
      other := by
  have byte : Function.update state.vramcnt bank.byteIndex value other.byteIndex =
      state.vramcnt other.byteIndex :=
    Function.update_of_ne (fun same => different (VramBank.byteIndex_injective same)) _ _
  refine ⟨?_, fun cpu => ?_⟩
  · simpa only [byte] using tracks.supported other
  · simpa only [byte] using (tracks.located cpu other).remembered

/-- What a supported write does to all banks. -/
theorem VramTracks.writeVcnt_of_supported (supported : VcntSupported bank value) :
    ∃ next, state.writeVcnt bank value = some next ∧
      next.vramcnt = Function.update state.vramcnt bank.byteIndex value ∧
        (∀ cpu, BankAt next cpu bank
          (placeAfter bank (state.vramcnt bank.byteIndex) value cpu)) ∧
          ∀ cpu other, other ≠ bank →
            BankAt next cpu other (vramPlace other (state.vramcnt other.byteIndex) cpu) := by
  unfold VramState.writeVcnt
  rw [remap_eq_remapBank bank (tracks.settled_of_ne bank value)]
  obtain ⟨next, moved, here, elsewhere⟩ := remapBank_located
    { state with vramcnt := Function.update state.vramcnt bank.byteIndex value }
    bank (by simpa using supported) fun cpu =>
      ⟨(tracks.located cpu bank).remembered, (tracks.located cpu bank).covered⟩
  refine ⟨next, moved, (remapBank_frame moved).1, by simpa using here,
    fun cpu other different => elsewhere cpu other _ different ?_⟩
  exact ⟨(tracks.located cpu other).remembered, (tracks.located cpu other).covered⟩

/-- A served write keeps all banks where their bytes say. -/
theorem VramTracks.writeVcnt (served : VcntServed (some state) ⟨bank, value⟩) :
    ∃ next, state.writeVcnt bank value = some next ∧ VramTracks next := by
  obtain ⟨supported, stays⟩ := served
  obtain ⟨next, written, bytes, here, elsewhere⟩ :=
    tracks.writeVcnt_of_supported bank value supported
  have byte {other : VramBank} (different : other ≠ bank) :
      next.vramcnt other.byteIndex = state.vramcnt other.byteIndex := by
    rw [bytes, Function.update_of_ne]
    exact fun same => different (VramBank.byteIndex_injective same)
  have written' : next.vramcnt bank.byteIndex = value := by rw [bytes, Function.update_self]
  refine ⟨next, written, fun other => ?_, fun cpu other => ?_⟩
  · by_cases same : other = bank
    · rw [same, written']
      exact supported
    · rw [byte same]
      exact tracks.supported other
  · by_cases same : other = bank
    · rw [same, written']
      convert here cpu using 1
      have stay := stays state rfl cpu
      unfold placeAfter
      by_cases enabled : vramEnabled value
      · rw [if_pos enabled]
        cases new : vramPlace bank value cpu with
        | some addr => rfl
        | none =>
            cases old : vramPlace bank (state.vramcnt bank.byteIndex) cpu with
            | none => rfl
            | some addr =>
                have visible := stay (by simp only [old, Option.isSome_some]) enabled
                simp only [new, Option.isSome_none] at visible
                cases visible
      · rw [if_neg enabled, vramPlace, vramTarget, if_neg enabled]
        rfl
    · rw [byte same]
      exact elsewhere cpu other same

/-- An unsupported write is visible at once: a lookup is out of bounds, or a
bank that should be visible is not mapped. -/
theorem VramTracks.supported_of_good (good : VramGood (state.writeVcnt bank value)) :
    VcntSupported bank value := by
  by_contra unsupported
  obtain ⟨next, written, follows⟩ := good
  have moved := written
  unfold VramState.writeVcnt at moved
  rw [remap_eq_remapBank bank (tracks.settled_of_ne bank value)] at moved
  have bytes : next.vramcnt bank.byteIndex = value := by
    rw [(remapBank_frame moved).1]
    exact Function.update_self _ _ _
  obtain offsets | hidden : (bank = .f ∨ bank = .g) ∨ bank = .h ∨ bank = .i := by
    cases bank <;> first | exact absurd trivial unsupported | decide
  · rw [remapBank_outOfBounds offsets (by simpa using unsupported)] at moved
    cases moved
  · have invisible (cnt : BitVec 8) (fits : VcntSupported bank cnt) :
        vramTarget bank cnt = none := by
      obtain rfl | rfl := hidden <;> exact fits
    obtain ⟨⟨cpu, addr⟩, placed⟩ : ∃ target, vramTarget bank value = some target := by
      rw [← Option.isSome_iff_exists, Option.isSome_iff_ne_none]
      obtain rfl | rfl := hidden <;> exact unsupported
    have enabled : vramEnabled value := by
      by_contra disabled
      rw [vramTarget, if_neg disabled] at placed
      cases placed
    have unmapped (page : Nat) : (state.memory cpu).multiplicity bank.region page = 0 := by
      rw [(tracks.located cpu bank).covered page, vramPlace,
        invisible _ (tracks.supported bank)]
      simp
    have mapped : (next.memory cpu).Mapped bank.region (addr >>> 9).toNat := by
      rw [follows cpu bank, bytes, vramPlace, placed]
      exact ⟨addr, by simp, spansAt_first bank addr⟩
    rw [MemoryMap.mapped_iff,
      remapBank_hidden hidden (by simpa using enabled) moved unmapped] at mapped
    exact absurd mapped (lt_irrefl 0)

/-- A write after which the mapping is right was served. -/
theorem VramTracks.served_of_good (good : VramGood (state.writeVcnt bank value)) :
    VcntServed (some state) ⟨bank, value⟩ := by
  have supported := tracks.supported_of_good bank value good
  refine ⟨supported, fun current isState cpu visible enabled => ?_⟩
  obtain rfl : state = current := Option.some.inj isState
  obtain ⟨next, written, bytes, here, -⟩ := tracks.writeVcnt_of_supported bank value supported
  obtain ⟨good, isNext, follows⟩ := good
  obtain rfl : next = good := Option.some.inj (written.symm.trans isNext)
  obtain ⟨old, oldPlace⟩ := Option.isSome_iff_exists.mp visible
  cases new : vramPlace bank value cpu with
  | some addr => rfl
  | none =>
      have mapped : (next.memory cpu).Mapped bank.region (old >>> 9).toNat := by
        rw [(here cpu).mapped_iff]
        refine ⟨old, ?_, spansAt_first bank old⟩
        rw [placeAfter, if_pos enabled, new, oldPlace]
        rfl
      rw [follows cpu bank, bytes, Function.update_self, new] at mapped
      obtain ⟨addr, member, -⟩ := mapped
      cases member

end

/-- No bank is mapped before the first write. -/
theorem vramTracks_init : VramTracks VramState.init where
  supported := by intro bank; cases bank <;> decide
  located := by
    intro cpu bank
    have place : vramPlace bank (VramState.init.vramcnt bank.byteIndex) cpu = none := by
      cases bank <;> rfl
    rw [place]
    refine ⟨rfl, fun page => ?_⟩
    simp only [Option.mem_def, reduceCtorEq, false_and, exists_false, if_false]
    cases cpu <;>
      simp only [VramState.init, initializeMapping, MemoryMap.mapAt, MemoryMap.mapRange,
        MemoryMap.multiplicity_mapRegion, MemoryMap.multiplicity_initNull] <;>
      cases bank <;> simp [VramBank.region, physTable]

/-- Over every sequence of control writes after `vram::init`, each followed by
`remap`, every lookup is in bounds and every bank is mapped exactly where its
control byte says, exactly when every write is served. -/
theorem vramGood_iff (writes : List VcntWrite) :
    LabelledRun.Always vcntStep VramGood (some VramState.init) writes ↔
      LabelledRun.EveryStep vcntStep VcntServed (some VramState.init) writes := by
  refine LabelledRun.always_iff_everyStep
    (fun (state : Option VramState) (inv : ∃ current ∈ state, VramTracks current) => ?_)
    (fun state write inv _ served => ?_) (fun state write inv _ good => ?_)
    ⟨_, rfl, vramTracks_init⟩ (LabelledRun.everyStep_of_forall fun _ _ => trivial)
  · obtain ⟨current, isCurrent, tracks⟩ := inv
    exact ⟨current, isCurrent, tracks.follows⟩
  · obtain ⟨current, rfl, tracks⟩ := inv
    obtain ⟨next, written, nextTracks⟩ := tracks.writeVcnt write.bank write.value served
    exact ⟨next, written, nextTracks⟩
  · obtain ⟨current, rfl, tracks⟩ := inv
    exact tracks.served_of_good write.bank write.value good

/-- Enabling bank H as plain memory maps it nowhere. -/
theorem vramGood_fails_bankH :
    ¬ LabelledRun.Always vcntStep VramGood (some VramState.init) [⟨.h, 0x80⟩] := by
  intro always
  have good := always [⟨.h, 0x80⟩] (List.prefix_refl _)
  rw [List.foldl_cons, List.foldl_nil, vcntStep, Option.bind_some] at good
  exact absurd (vramTracks_init.supported_of_good .h 0x80 good) (by decide)

end Ndse
