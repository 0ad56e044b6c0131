import Ndse.Breakpoint

/-!
# Patching is reversible while positions are not shared

The code, the table and the saved bytes agree as long as no two used
`break_info`s stand at the same position and a break is only switched on with
the translated byte as its saved byte.  Each call then keeps that agreement, and
with it what the debugger promises about the translated code.
-/

namespace Ndse

open LabelledRun

namespace Breakpoints

variable {Block : Type*}

/-! ### Fields after an update -/

section Fields

variable (state : Breakpoints Block) (owner : BreakOwner Block) (ref : BreakRef Block)
  (pos : Nat)

@[simp]
theorem data_poke (byte : BitVec 8) : (state.poke pos byte).data owner = state.data owner := by
  cases owner <;> rfl

@[simp]
theorem data_setDt (entry : Option (BreakRef Block)) :
    (state.setDt pos entry).data owner = state.data owner := by
  cases owner <;> rfl

@[simp]
theorem info_poke (byte : BitVec 8) : (state.poke pos byte).info ref = state.info ref := by
  rw [info, data_poke, info]

@[simp]
theorem info_setDt (entry : Option (BreakRef Block)) :
    (state.setDt pos entry).info ref = state.info ref := by
  rw [info, data_setDt, info]

variable [DecidableEq Block]

@[simp]
theorem data_setData (data : BreakData) (other : BreakOwner Block) :
    (state.setData owner data).data other = if other = owner then data else state.data other := by
  cases owner with
  | regular isa physical =>
      cases other with
      | regular otherIsa otherPhysical =>
          by_cases sameIsa : otherIsa = isa
          · subst sameIsa
            by_cases same : otherPhysical = physical <;> simp [setData, Breakpoints.data, same]
          · simp [setData, Breakpoints.data, sameIsa]
      | oneTime otherIsa slot => simp [setData, Breakpoints.data]
  | oneTime isa slot =>
      cases other with
      | regular otherIsa physical => simp [setData, Breakpoints.data]
      | oneTime otherIsa otherSlot =>
          by_cases sameIsa : otherIsa = isa
          · subst sameIsa
            by_cases same : otherSlot = slot <;> simp [setData, Breakpoints.data, same]
          · simp [setData, Breakpoints.data, sameIsa]

@[simp]
theorem code_setData (data : BreakData) : (state.setData owner data).code = state.code := by
  cases owner <;> rfl

@[simp]
theorem dt_setData (data : BreakData) : (state.setData owner data).dt = state.dt := by
  cases owner <;> rfl

theorem info_setInfo (bi : BreakInfo) (other : BreakRef Block) :
    (state.setInfo ref bi).info other = if other = ref then bi else state.info other := by
  obtain ⟨owner, subcode⟩ := ref
  obtain ⟨otherOwner, otherSubcode⟩ := other
  by_cases sameOwner : otherOwner = owner
  · subst sameOwner
    simp [info, setInfo, Function.update_apply]
  · simp [info, setInfo, sameOwner]

@[simp]
theorem info_setInfo_self (bi : BreakInfo) : (state.setInfo ref bi).info ref = bi := by
  rw [info_setInfo, if_pos rfl]

theorem info_setInfo_of_ne (bi : BreakInfo) {other : BreakRef Block} (ne : other ≠ ref) :
    (state.setInfo ref bi).info other = state.info other := by
  rw [info_setInfo, if_neg ne]

theorem addr_setInfo (bi : BreakInfo) :
    ((state.setInfo ref bi).data owner).addr = (state.data owner).addr := by
  rw [setInfo, data_setData]
  split
  · next same => rw [same]
  · rfl

@[simp]
theorem code_setInfo (bi : BreakInfo) : (state.setInfo ref bi).code = state.code :=
  code_setData _ _ _

@[simp]
theorem dt_setInfo (bi : BreakInfo) : (state.setInfo ref bi).dt = state.dt :=
  dt_setData _ _ _

end Fields

/-! ### What the debugger promises -/

/-- A `break_info` in use at a position. -/
def Uses (state : Breakpoints Block) (ref : BreakRef Block) (pos : Nat) : Prop :=
  (state.info ref).used = true ∧ (state.info ref).pos = some pos

instance (state : Breakpoints Block) (ref : BreakRef Block) (pos : Nat) :
    Decidable (state.Uses ref pos) :=
  inferInstanceAs (Decidable (_ ∧ _))

/-- The code carries a trap exactly at the positions in use and is as translated
elsewhere, and the debugger table has exactly these positions. -/
structure Reversible (env : Translations Block) (state : Breakpoints Block) : Prop where
  trapped : ∀ pos, (∃ ref, state.Uses ref pos) → state.code pos = debugBreak
  untouched : ∀ pos, (¬ ∃ ref, state.Uses ref pos) → state.code pos = env.compiled pos
  mapped : ∀ pos, (∃ ref, state.Uses ref pos) → ∃ ref, state.resolve pos = some ref
  resolved : ∀ pos ref, state.resolve pos = some ref → state.Uses ref pos
  restored : (∀ ref, (state.info ref).used = false) →
    state.code = env.compiled ∧ ∀ pos, state.resolve pos = none

/-! ### When a call shares no position -/

/-- A `break_info` of the one-time slots of an instruction set. -/
def OneTime (isa : InstructionSet) (ref : BreakRef Block) : Prop :=
  ref.owner = .oneTime isa 0 ∨ ref.owner = .oneTime isa 1

instance [DecidableEq Block] (isa : InstructionSet) (ref : BreakRef Block) :
    Decidable (OneTime isa ref) :=
  inferInstanceAs (Decidable (_ ∨ _))

/-- The regular breakpoint a toggle switches on finds no other at its position,
and unless it is read anew its saved byte is the translated one. -/
def ToggleUnshared (env : Translations Block) (state : Breakpoints Block)
    (isa : InstructionSet) (addr : BitVec 32) (subcode : Fin maxSubinstructions) : Prop :=
  let bi := state.info ⟨.regular isa (env.physical addr), subcode⟩
  match state.breaks isa (env.physical addr) with
  | none => ∀ pos ∈ env.linePosition isa addr subcode, state.resolve pos = none
  | some _ => bi.used = false →
      ∀ pos ∈ bi.pos, state.resolve pos = none ∧ bi.originalByte = env.compiled pos

/-- Where a break of a one-time slot stands once the slot has the address. -/
def slotPosition (env : Translations Block) (state : Breakpoints Block) (isa : InstructionSet)
    (slot : Fin 2) (addr : BitVec 32) (subcode : Fin maxSubinstructions) : Option Nat :=
  if (state.data (.oneTime isa slot)).addr ≠ addr then env.linePosition isa addr subcode
  else (state.info ⟨.oneTime isa slot, subcode⟩).pos

/-- The same for a break of a one-time slot; the other breaks of these slots are
switched off first. -/
def SlotUnshared (env : Translations Block) (state : Breakpoints Block) (isa : InstructionSet)
    (slot : Fin 2) (addr : BitVec 32) (subcode : Fin maxSubinstructions) : Prop :=
  ∀ pos ∈ state.slotPosition env isa slot addr subcode,
    (∀ ref ∈ state.resolve pos, OneTime isa ref) ∧
      ((state.data (.oneTime isa slot)).addr = addr →
        (state.info ⟨.oneTime isa slot, subcode⟩).originalByte = env.compiled pos)

/-- Two breaks of the one-time slots that do not stand at one position. -/
def Apart (first second : Option Nat) : Prop := ∀ pos ∈ first, second ≠ some pos

/-- No break the call switches on shares its position with another in use, nor
was its saved byte read while the position was patched. -/
def Unshared (env : Translations Block) (state : Breakpoints Block) : BreakCall → Prop
  | .toggle isa addr subcode =>
      ∀ inRange : subcode < maxSubinstructions, state.ToggleUnshared env isa addr ⟨subcode, inRange⟩
  | .setOnetime isa addr1 subcode1 addr2 subcode2 numAddr =>
      ∀ inRange1 : subcode1 < maxSubinstructions,
        if numAddr > 1 then
          ∀ inRange2 : subcode2 < maxSubinstructions,
            let second : Fin 2 := if addr2 = addr1 then 0 else 1
            state.SlotUnshared env isa 0 addr1 ⟨subcode1, inRange1⟩ ∧
              (addr2 = addr1 ∧ subcode1 = subcode2 ∨
                state.SlotUnshared env isa second addr2 ⟨subcode2, inRange2⟩ ∧
                  Apart (state.slotPosition env isa 0 addr1 ⟨subcode1, inRange1⟩)
                    (state.slotPosition env isa second addr2 ⟨subcode2, inRange2⟩))
        else state.SlotUnshared env isa 0 addr1 ⟨subcode1, inRange1⟩
  | .unsetOnetime _ => True

section Decidability

variable [DecidableEq Block] (env : Translations Block) (state : Breakpoints Block)
  (isa : InstructionSet) (addr : BitVec 32) (subcode : Fin maxSubinstructions)

instance : Decidable (state.ToggleUnshared env isa addr subcode) := by
  unfold ToggleUnshared
  split <;> infer_instance

instance (slot : Fin 2) : Decidable (state.SlotUnshared env isa slot addr subcode) :=
  inferInstanceAs (Decidable (∀ pos ∈ state.slotPosition env isa slot addr subcode, _ ∧ _))

instance (first second : Option Nat) : Decidable (Apart first second) :=
  inferInstanceAs (Decidable (∀ pos ∈ first, second ≠ some pos))

instance (next : BreakCall) : Decidable (state.Unshared env next) := by
  cases next <;> unfold Unshared <;> infer_instance

end Decidability

/-! ### The invariant -/

/-- One owner at most stands at a position, the table names it, the code shows
it, and its saved byte is the translated one. -/
structure Consistent (env : Translations Block) (state : Breakpoints Block) : Prop where
  table : ∀ pos ref, state.dt pos = some ref ↔ state.Uses ref pos
  code : ∀ pos, state.code pos = if (state.dt pos).isSome then debugBreak else env.compiled pos
  patched : ∀ ref, (state.info ref).patched =
    ((state.info ref).used && (state.info ref).pos.isSome)
  saved : ∀ pos ref, state.Uses ref pos →
    (state.info ref).originalByte = env.compiled pos

namespace Consistent

variable {env : Translations Block} {state : Breakpoints Block}

theorem reversible (consistent : Consistent env state) : Reversible env state where
  trapped := by
    rintro pos ⟨ref, uses⟩
    rw [consistent.code, (consistent.table pos ref).mpr uses]
    rfl
  untouched := by
    intro pos unused
    have absent : state.dt pos = none := by
      rw [Option.eq_none_iff_forall_ne_some]
      exact fun ref found => unused ⟨ref, (consistent.table pos ref).mp found⟩
    rw [consistent.code, absent]
    rfl
  mapped := by
    rintro pos ⟨ref, uses⟩
    exact ⟨ref, (consistent.table pos ref).mpr uses⟩
  resolved := fun pos ref found => (consistent.table pos ref).mp found
  restored := by
    intro idle
    have empty : ∀ pos, state.dt pos = none := by
      intro pos
      rw [Option.eq_none_iff_forall_ne_some]
      intro ref found
      have uses := (consistent.table pos ref).mp found
      exact Bool.false_ne_true ((idle ref).symm.trans uses.1)
    refine ⟨funext fun pos => ?_, empty⟩
    rw [consistent.code, empty]
    rfl

theorem code_of_absent (consistent : Consistent env state) {pos : Nat}
    (absent : state.dt pos = none) : state.code pos = env.compiled pos := by
  rw [consistent.code, absent]
  rfl

/-- Changes to a `break_info` that stays out of use. -/
theorem of_idle (consistent : Consistent env state) {next : Breakpoints Block}
    (code : next.code = state.code) (dt : next.dt = state.dt)
    (same : ∀ ref, next.info ref = state.info ref ∨
      (state.info ref).used = false ∧ (next.info ref).used = false ∧
        (next.info ref).patched = false) :
    Consistent env next := by
  have uses : ∀ ref pos, next.Uses ref pos ↔ state.Uses ref pos := by
    intro ref pos
    rcases same ref with kept | ⟨before, after, _⟩
    · rw [Uses, Uses, kept]
    · simp [Uses, before, after]
  refine ⟨fun pos ref => ?_, fun pos => ?_, fun ref => ?_, fun pos ref used => ?_⟩
  · rw [dt, uses, consistent.table]
  · rw [code, dt, consistent.code]
  · rcases same ref with kept | ⟨_, after, unpatched⟩
    · rw [kept, consistent.patched]
    · rw [after, unpatched, Bool.false_and]
  · rcases same ref with kept | ⟨_, after, _⟩
    · rw [kept]
      exact consistent.saved pos ref ((uses ref pos).mp used)
    · exact absurd (after.symm.trans used.1) Bool.false_ne_true

end Consistent

theorem consistent_boot (env : Translations Block) : Consistent env (boot env) := by
  have idle : ∀ ref : BreakRef Block, (boot env).info ref = {} := by
    rintro ⟨owner, subcode⟩
    cases owner <;> rfl
  refine ⟨fun pos ref => ?_, fun pos => rfl, fun ref => ?_, fun pos ref used => ?_⟩
  · rw [Uses, idle]
    exact ⟨fun found => (nomatch found), fun uses => absurd uses.1 Bool.false_ne_true⟩
  · rw [idle]
    rfl
  · rw [Uses, idle] at used
    exact absurd used.1 Bool.false_ne_true

/-! ### Toggling one break -/

variable [DecidableEq Block]

section Toggling

variable {state : Breakpoints Block} {ref : BreakRef Block}

theorem toggleSub_of_unplaced (unplaced : (state.info ref).pos = none) :
    state.toggleSub ref =
      state.setInfo ref { state.info ref with used := !(state.info ref).used } := by
  simp only [toggleSub, unplaced]

theorem toggleSub_on {pos : Nat} (unused : (state.info ref).used = false)
    (unpatched : (state.info ref).patched = false) (placed : (state.info ref).pos = some pos) :
    state.toggleSub ref =
      (((state.setInfo ref { state.info ref with used := true }).setDt pos (some ref)).poke pos
        debugBreak).setInfo ref { state.info ref with used := true, patched := true } := by
  simp [toggleSub, patchBi, placed, unused, unpatched]

theorem toggleSub_off {pos : Nat} (used : (state.info ref).used = true)
    (patched : (state.info ref).patched = true) (placed : (state.info ref).pos = some pos) :
    state.toggleSub ref =
      (((state.setInfo ref { state.info ref with used := false }).poke pos
        (state.info ref).originalByte).setInfo ref
          { state.info ref with used := false, patched := false }).setDt pos none := by
  simp [toggleSub, unpatchBi, placed, used, patched]

/-- What a toggle of one break leaves as it was. -/
structure Toggles (state next : Breakpoints Block) (ref : BreakRef Block) : Prop where
  addr : ∀ owner, (next.data owner).addr = (state.data owner).addr
  flipped : (next.info ref).used = !(state.info ref).used
  pos : (next.info ref).pos = (state.info ref).pos
  byte : (next.info ref).originalByte = (state.info ref).originalByte
  others : ∀ other, other ≠ ref → next.info other = state.info other

theorem toggles_toggleSub (patched : (state.info ref).patched =
    ((state.info ref).used && (state.info ref).pos.isSome)) :
    Toggles state (state.toggleSub ref) ref := by
  cases placed : (state.info ref).pos with
  | none =>
      rw [toggleSub_of_unplaced placed]
      refine ⟨fun owner => addr_setInfo _ _ _ _, ?_, ?_, ?_, fun other ne => ?_⟩
      · rw [info_setInfo_self]
      · rw [info_setInfo_self]
      · rw [info_setInfo_self]
      · exact info_setInfo_of_ne _ _ _ ne
  | some pos =>
      cases used : (state.info ref).used with
      | false =>
          rw [used, Bool.false_and] at patched
          rw [toggleSub_on used patched placed]
          refine ⟨fun owner => ?_, ?_, ?_, ?_, fun other ne => ?_⟩
          · simp only [addr_setInfo, data_poke, data_setDt]
          · rw [info_setInfo_self, used]
            rfl
          · rw [info_setInfo_self]
          · rw [info_setInfo_self]
          · rw [info_setInfo_of_ne _ _ _ ne, info_poke, info_setDt, info_setInfo_of_ne _ _ _ ne]
      | true =>
          rw [used, placed] at patched
          rw [toggleSub_off used patched placed]
          refine ⟨fun owner => ?_, ?_, ?_, ?_, fun other ne => ?_⟩
          · simp only [addr_setInfo, data_poke, data_setDt]
          · rw [info_setDt, info_setInfo_self, used]
            rfl
          · rw [info_setDt, info_setInfo_self]
          · rw [info_setDt, info_setInfo_self]
          · rw [info_setDt, info_setInfo_of_ne _ _ _ ne, info_poke, info_setInfo_of_ne _ _ _ ne]

end Toggling

namespace Consistent

variable {env : Translations Block} {state : Breakpoints Block} {ref : BreakRef Block}

theorem toggles (consistent : Consistent env state) (ref : BreakRef Block) :
    Toggles state (state.toggleSub ref) ref :=
  toggles_toggleSub (consistent.patched ref)

theorem toggleSub_unplaced (consistent : Consistent env state)
    (unplaced : (state.info ref).pos = none) : Consistent env (state.toggleSub ref) := by
  have next := consistent.toggles ref
  have unused : ∀ pos, ¬ (state.toggleSub ref).Uses ref pos ∧ ¬ state.Uses ref pos := by
    intro pos
    constructor
    · rintro ⟨_, placed⟩
      rw [next.pos, unplaced] at placed
      cases placed
    · rintro ⟨_, placed⟩
      rw [unplaced] at placed
      cases placed
  have uses : ∀ pos other, (state.toggleSub ref).Uses other pos ↔ state.Uses other pos := by
    intro pos other
    by_cases same : other = ref
    · rw [same]
      exact iff_of_false (unused pos).1 (unused pos).2
    · rw [Uses, Uses, next.others other same]
  have dt : (state.toggleSub ref).dt = state.dt := by
    rw [toggleSub_of_unplaced unplaced, dt_setInfo]
  have code : (state.toggleSub ref).code = state.code := by
    rw [toggleSub_of_unplaced unplaced, code_setInfo]
  refine ⟨fun pos other => ?_, fun pos => ?_, fun other => ?_, fun pos other used => ?_⟩
  · rw [dt, uses, consistent.table]
  · rw [code, dt, consistent.code]
  · by_cases same : other = ref
    · rw [same, next.pos, unplaced, toggleSub_of_unplaced unplaced, info_setInfo_self]
      simp [consistent.patched ref, unplaced]
    · rw [next.others other same, consistent.patched]
  · have before := (uses pos other).mp used
    have ne : other ≠ ref := by
      rintro rfl
      exact (unused pos).2 before
    rw [next.others other ne]
    exact consistent.saved pos other before

/-- A break that is switched on at a position nothing else uses. -/
theorem toggleSub_on (consistent : Consistent env state) (unused : (state.info ref).used = false)
    (vacant : ∀ pos, (state.info ref).pos = some pos →
      state.dt pos = none ∧ (state.info ref).originalByte = env.compiled pos) :
    Consistent env (state.toggleSub ref) := by
  cases placed : (state.info ref).pos with
  | none => exact consistent.toggleSub_unplaced placed
  | some pos =>
      obtain ⟨absent, byte⟩ := vacant pos placed
      have next := consistent.toggles ref
      have unpatched : (state.info ref).patched = false := by
        rw [consistent.patched, unused, Bool.false_and]
      have equation := Breakpoints.toggleSub_on unused unpatched placed
      have usedNow : (state.toggleSub ref).Uses ref pos :=
        ⟨by rw [next.flipped, unused]; rfl, next.pos.trans placed⟩
      have dt : ∀ at_, (state.toggleSub ref).dt at_ =
          if at_ = pos then some ref else state.dt at_ := by
        intro at_
        rw [equation, dt_setInfo, ← Function.update_apply]
        simp only [poke, setDt, dt_setInfo]
      have code : ∀ at_, (state.toggleSub ref).code at_ =
          if at_ = pos then debugBreak else state.code at_ := by
        intro at_
        rw [equation, code_setInfo, ← Function.update_apply]
        simp only [poke, setDt, code_setInfo]
      refine ⟨fun at_ other => ?_, fun at_ => ?_, fun other => ?_, fun at_ other used => ?_⟩
      · rw [dt]
        by_cases same : other = ref
        · subst same
          split
          · next here => exact iff_of_true rfl (here ▸ usedNow)
          · next elsewhere =>
            rw [consistent.table]
            refine iff_of_false (fun uses => ?_) (fun uses => ?_)
            · exact Bool.false_ne_true (unused.symm.trans uses.1)
            · exact elsewhere (Option.some.inj (uses.2.symm.trans usedNow.2))
        · rw [Uses, next.others other same, ← Uses, ← consistent.table]
          split
          · next here =>
            rw [here, absent]
            exact iff_of_false (fun found => same (Option.some.inj found).symm)
              (fun found => nomatch found)
          · exact Iff.rfl
      · rw [dt, code]
        split
        · rfl
        · exact consistent.code at_
      · by_cases same : other = ref
        · rw [same, equation, info_setInfo_self, placed]
          rfl
        · rw [next.others other same]
          exact consistent.patched other
      · by_cases same : other = ref
        · subst same
          have here : at_ = pos := Option.some.inj (used.2.symm.trans usedNow.2)
          rw [next.byte, here, byte]
        · rw [Uses, next.others other same] at used
          rw [next.others other same]
          exact consistent.saved at_ other used

/-- A break that is switched off puts the translated byte back. -/
theorem toggleSub_off (consistent : Consistent env state) (used : (state.info ref).used = true) :
    Consistent env (state.toggleSub ref) := by
  cases placed : (state.info ref).pos with
  | none => exact consistent.toggleSub_unplaced placed
  | some pos =>
      have next := consistent.toggles ref
      have usedBefore : state.Uses ref pos := ⟨used, placed⟩
      have entry : state.dt pos = some ref := (consistent.table pos ref).mpr usedBefore
      have patched : (state.info ref).patched = true := by
        rw [consistent.patched, used, placed]
        rfl
      have equation := Breakpoints.toggleSub_off used patched placed
      have unusedNow : ∀ at_, ¬ (state.toggleSub ref).Uses ref at_ := by
        rintro at_ ⟨still, _⟩
        rw [next.flipped, used] at still
        cases still
      have dt : ∀ at_, (state.toggleSub ref).dt at_ =
          if at_ = pos then none else state.dt at_ := by
        intro at_
        rw [equation, ← Function.update_apply]
        simp only [setDt, dt_setInfo, poke]
      have code : ∀ at_, (state.toggleSub ref).code at_ =
          if at_ = pos then env.compiled pos else state.code at_ := by
        intro at_
        rw [equation, ← Function.update_apply, ← consistent.saved pos ref usedBefore]
        simp only [setDt, code_setInfo, poke]
      refine ⟨fun at_ other => ?_, fun at_ => ?_, fun other => ?_, fun at_ other usedThere => ?_⟩
      · rw [dt]
        by_cases same : other = ref
        · subst same
          refine iff_of_false (fun found => ?_) (unusedNow at_)
          split at found
          · cases found
          · next elsewhere =>
            have there := (consistent.table at_ other).mp found
            exact elsewhere (Option.some.inj (there.2.symm.trans placed))
        · rw [Uses, next.others other same, ← Uses, ← consistent.table]
          split
          · next here =>
            rw [here, entry]
            exact iff_of_false (fun found => nomatch found)
              (fun found => same (Option.some.inj found).symm)
          · exact Iff.rfl
      · rw [dt, code]
        split
        · next here => rw [here]; rfl
        · exact consistent.code at_
      · by_cases same : other = ref
        · rw [same, equation, info_setDt, info_setInfo_self]
          rfl
        · rw [next.others other same]
          exact consistent.patched other
      · have same : other ≠ ref := by
          rintro rfl
          exact unusedNow at_ usedThere
        rw [Uses, next.others other same] at usedThere
        rw [next.others other same]
        exact consistent.saved at_ other usedThere

end Consistent

end Breakpoints

end Ndse
