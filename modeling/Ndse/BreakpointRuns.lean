import Ndse.BreakpointPatching

/-!
# Runs of debugger calls

Reading the translated instructions of a `break_data` touches only its own
breaks, which are all out of use then, and the loop that clears the one-time
slots only switches breaks off.  With these two every call keeps the code, the
table and the saved bytes in agreement when it shares no position.
-/

namespace Ndse

open LabelledRun

namespace Breakpoints

variable {Block : Type*} [DecidableEq Block]

/-! ### Rewriting the line of one owner -/

/-- All breaks of an owner are out of use. -/
def Idle (state : Breakpoints Block) (owner : BreakOwner Block) : Prop :=
  ∀ subcode, (state.info ⟨owner, subcode⟩).used = false ∧
    (state.info ⟨owner, subcode⟩).patched = false

/-- Only the breaks of one owner have changed, to those given. -/
structure Rewrites (state next : Breakpoints Block) (owner : BreakOwner Block)
    (line : Fin maxSubinstructions → BreakInfo) : Prop where
  code : next.code = state.code
  dt : next.dt = state.dt
  addr : (next.data owner).addr = (state.data owner).addr
  others : ∀ other, other ≠ owner → next.data other = state.data other
  line : ∀ subcode, next.info ⟨owner, subcode⟩ = line subcode

namespace Rewrites

variable {state next last : Breakpoints Block} {owner : BreakOwner Block}
  {line lastLine : Fin maxSubinstructions → BreakInfo}

omit [DecidableEq Block] in
theorem trans (first : Rewrites state next owner line)
    (second : Rewrites next last owner lastLine) : Rewrites state last owner lastLine where
  code := second.code.trans first.code
  dt := second.dt.trans first.dt
  addr := second.addr.trans first.addr
  others := fun other ne => (second.others other ne).trans (first.others other ne)
  line := second.line

omit [DecidableEq Block] in
theorem idle (rewrites : Rewrites state next owner line)
    (unused : ∀ subcode, (line subcode).used = false ∧ (line subcode).patched = false) :
    next.Idle owner := by
  intro subcode
  rw [rewrites.line]
  exact unused subcode

omit [DecidableEq Block] in
theorem consistent {env : Translations Block} (rewrites : Rewrites state next owner line)
    (consistent : Consistent env state) (before : state.Idle owner) (after : next.Idle owner) :
    Consistent env next := by
  refine consistent.of_idle rewrites.code rewrites.dt fun ref => ?_
  by_cases own : ref.owner = owner
  · right
    subst own
    exact ⟨(before ref.subcode).1, after ref.subcode⟩
  · left
    rw [info, rewrites.others _ own, info]

end Rewrites

theorem rewrites_setInfo (state : Breakpoints Block) (owner : BreakOwner Block)
    (subcode : Fin maxSubinstructions) (bi : BreakInfo) :
    Rewrites state (state.setInfo ⟨owner, subcode⟩ bi) owner
      (fun other => if other = subcode then bi else state.info ⟨owner, other⟩) where
  code := code_setInfo _ _ _
  dt := dt_setInfo _ _ _
  addr := addr_setInfo _ _ _ _
  others := fun other ne => by rw [setInfo, data_setData, if_neg ne]
  line := fun other => by rw [info_setInfo]; simp

/-- A loop that rewrites the breaks of an owner out of use, each at most once. -/
theorem rewrites_foldl {α : Type*} (turn : Breakpoints Block → α → Breakpoints Block)
    (key : α → Fin maxSubinstructions) (change : α → BreakInfo → BreakInfo)
    {owner : BreakOwner Block} {code : Nat → BitVec 8}
    (stays : ∀ entry bi, bi.used = false ∧ bi.patched = false →
      (change entry bi).used = false ∧ (change entry bi).patched = false)
    (turns : ∀ (state : Breakpoints Block) entry, state.Idle owner → state.code = code →
      turn state entry =
        state.setInfo ⟨owner, key entry⟩ (change entry (state.info ⟨owner, key entry⟩)))
    (entries : List α) (once : (entries.map key).Nodup) {state : Breakpoints Block}
    (idle : state.Idle owner) (sameCode : state.code = code) :
    Rewrites state (entries.foldl turn state) owner (fun subcode =>
      match entries.find? (key · = subcode) with
      | some entry => change entry (state.info ⟨owner, subcode⟩)
      | none => state.info ⟨owner, subcode⟩) := by
  induction entries generalizing state with
  | nil => exact ⟨rfl, rfl, rfl, fun _ _ => rfl, fun _ => rfl⟩
  | cons entry entries ih =>
      obtain ⟨fresh, restOnce⟩ := List.nodup_cons.mp once
      have first := rewrites_setInfo state owner (key entry)
        (change entry (state.info ⟨owner, key entry⟩))
      rw [List.foldl_cons, turns state entry idle sameCode]
      have idleNext := first.idle fun subcode => by
        split
        · exact stays entry _ (idle _)
        · exact idle subcode
      have rest := ih restOnce idleNext (first.code.trans sameCode)
      have whole := first.trans rest
      refine { whole with line := fun subcode => ?_ }
      rw [whole.line, first.line, List.find?_cons]
      by_cases here : key entry = subcode
      · subst here
        have absent : entries.find? (key · = key entry) = none := by
          rw [List.find?_eq_none]
          intro other member
          simp only [decide_eq_true_eq]
          exact fun same => fresh (List.mem_map.mpr ⟨other, member, same⟩)
        simp [absent]
      · simp [here, Ne.symm here]

/-! ### Reading the translated instructions -/

theorem find?_finRange {n : Nat} (index : Fin n) :
    (List.finRange n).find? (· = index) = some index := by
  rw [List.find?_eq_some_iff_getElem]
  refine ⟨by simp, index, by simp, by simp, fun other before => ?_⟩
  simp only [List.getElem_finRange, Bool.not_eq_true', decide_eq_false_iff_not]
  intro same
  have := congrArg Fin.val same
  simp only [Fin.val_cast] at this
  omega

theorem find?_zip_finRange {n : Nat} (starts : List Nat) (index : Fin n) :
    ((List.finRange n).zip starts).find? (·.1 = index) =
      starts[index.val]?.map (index, ·) := by
  by_cases inside : index.val < starts.length
  · rw [List.getElem?_eq_getElem inside, Option.map_some, List.find?_eq_some_iff_getElem]
    refine ⟨by simp, index, by simpa using inside, by simp, fun other before => ?_⟩
    simp only [List.getElem_zip, List.getElem_finRange, Bool.not_eq_true', decide_eq_false_iff_not]
    intro same
    have := congrArg Fin.val same
    simp only [Fin.val_cast] at this
    omega
  · rw [List.getElem?_eq_none (not_lt.mp inside), Option.map_none, List.find?_eq_none]
    rintro ⟨other, start⟩ member
    obtain ⟨place, bound, entry⟩ := List.getElem_of_mem member
    rw [List.getElem_zip, List.getElem_finRange, Prod.mk.injEq] at entry
    simp only [decide_eq_true_eq, ← entry.1]
    intro same
    have := congrArg Fin.val same
    simp only [Fin.val_cast] at this
    rw [List.length_zip] at bound
    omega

theorem nodup_keys_zip {α β : Type*} {keys : List α} (once : keys.Nodup) (values : List β) :
    ((keys.zip values).map Prod.fst).Nodup := by
  induction keys generalizing values with
  | nil => exact List.nodup_nil
  | cons key keys ih =>
      obtain ⟨fresh, restOnce⟩ := List.nodup_cons.mp once
      cases values with
      | nil => exact List.nodup_nil
      | cons value values =>
          refine List.nodup_cons.mpr ⟨fun again => ?_, ih restOnce values⟩
          obtain ⟨entry, member, same⟩ := List.mem_map.mp again
          have kept := (List.of_mem_zip member).1
          rw [same] at kept
          exact fresh kept

theorem rewrites_remove {state : Breakpoints Block} {owner : BreakOwner Block}
    (idle : state.Idle owner) :
    Rewrites state ((List.finRange maxSubinstructions).foldl
      (fun state i => state.removeBi ⟨owner, i⟩) state) owner
      (fun subcode => { state.info ⟨owner, subcode⟩ with pos := none }) := by
  have loop := rewrites_foldl (fun (state : Breakpoints Block) i => state.removeBi ⟨owner, i⟩)
    id (fun _ bi => { bi with pos := none, patched := false }) (fun _ _ unused => ⟨unused.1, rfl⟩)
    (fun state i idle _ => by simp only [removeBi, id, (idle i).2])
    (List.finRange maxSubinstructions) (by simpa using List.nodup_finRange maxSubinstructions)
    idle rfl
  refine { loop with line := fun subcode => ?_ }
  rw [loop.line]
  simp only [id, find?_finRange, (idle subcode).2]

/-- The line after `update_breakdata`: the positions are those of the address,
and each saved byte is the one the code has. -/
structure Reads (env : Translations Block) (isa : InstructionSet) (state next : Breakpoints Block)
    (owner : BreakOwner Block) : Prop where
  code : next.code = state.code
  dt : next.dt = state.dt
  addr : (next.data owner).addr = (state.data owner).addr
  others : ∀ other, other ≠ owner → next.data other = state.data other
  idle : next.Idle owner
  pos : ∀ subcode, (next.info ⟨owner, subcode⟩).pos =
    env.linePosition isa (state.data owner).addr subcode
  byte : ∀ subcode pos, (next.info ⟨owner, subcode⟩).pos = some pos →
    (next.info ⟨owner, subcode⟩).originalByte = state.code pos

theorem reads_disassemble (env : Translations Block) (isa : InstructionSet)
    {state : Breakpoints Block} {owner : BreakOwner Block} (idle : state.Idle owner)
    (unplaced : ∀ subcode, (state.info ⟨owner, subcode⟩).pos = none) :
    Reads env isa state (state.disassembleBreakdata env isa owner) owner := by
  cases found : env.jitStarts isa (state.data owner).addr with
  | none =>
      rw [disassembleBreakdata, found]
      refine ⟨rfl, rfl, rfl, fun _ _ => rfl, idle, fun subcode => ?_, fun subcode pos placed => ?_⟩
      · rw [unplaced, Translations.linePosition, found]
        rfl
      · rw [unplaced] at placed
        cases placed
  | some starts =>
      rw [disassembleBreakdata_some env state isa owner found]
      set decoded := min starts.length maxSubinstructions
      set counted := state.setData owner { state.data owner with jitInstructions := decoded }
      have counting : Rewrites state counted owner (fun i => state.info ⟨owner, i⟩) := by
        refine ⟨code_setData _ _ _, dt_setData _ _ _, ?_, fun other ne => ?_, fun i => ?_⟩
        · rw [data_setData, if_pos rfl]
        · rw [data_setData, if_neg ne]
        · rw [info, data_setData, if_pos rfl]
          rfl
      have placing := rewrites_foldl
        (fun (state : Breakpoints Block) entry => state.placeBi ⟨owner, entry.1⟩ entry.2) Prod.fst
        (fun entry bi => { bi with pos := some entry.2, originalByte := state.code entry.2 })
        (fun _ _ unused => unused)
        (fun other entry idle code => by simp only [placeBi, (idle entry.1).1, code]; rfl)
        ((List.finRange maxSubinstructions).zip starts)
        (nodup_keys_zip (List.nodup_finRange maxSubinstructions) starts)
        (counting.idle idle) counting.code
      set placed := ((List.finRange maxSubinstructions).zip starts).foldl
        (fun (state : Breakpoints Block) entry => state.placeBi ⟨owner, entry.1⟩ entry.2) counted
      have idlePlaced : placed.Idle owner := placing.idle fun subcode => by
        split
        · exact counting.idle idle subcode
        · exact counting.idle idle subcode
      have ending := rewrites_foldl
        (fun (state : Breakpoints Block) i =>
          state.setInfo ⟨owner, i⟩ { state.info ⟨owner, i⟩ with pos := none }) id
        (fun _ bi => { bi with pos := none }) (fun _ _ unused => unused)
        (fun other i idle code => rfl) ((List.finRange maxSubinstructions).drop decoded)
        (by
          rw [List.map_id]
          exact (List.nodup_finRange _).sublist (List.drop_sublist _ _)) idlePlaced rfl
      have whole := (counting.trans placing).trans ending
      refine ⟨whole.code, whole.dt, whole.addr, whole.others,
        whole.idle fun subcode => ?_, fun subcode => ?_, fun subcode pos at_ => ?_⟩
      · split
        · exact idlePlaced subcode
        · exact idlePlaced subcode
      · rw [whole.line, placing.line, find?_zip_finRange, counting.line,
          Translations.linePosition, found, Option.bind_some]
        split
        · next i last =>
          have same : i = subcode := by simpa using List.find?_some last
          have late : decoded ≤ i.val := by
            obtain ⟨place, bound, entry⟩ := List.getElem_of_mem (List.mem_of_find?_eq_some last)
            rw [List.getElem_drop, List.getElem_finRange] at entry
            have := congrArg Fin.val entry
            simp only [Fin.val_cast] at this
            omega
          rw [List.getElem?_eq_none (by have := subcode.isLt; omega)]
        · cases starts[subcode.val]? with
          | none => exact unplaced subcode
          | some start => rfl
      · rw [whole.line, placing.line, find?_zip_finRange, counting.line] at at_ ⊢
        split at at_
        · cases at_
        · cases entry : starts[subcode.val]? with
          | none =>
              simp only [entry, Option.map_none, unplaced] at at_
              cases at_
          | some start =>
              simp only [entry, Option.map_some] at at_ ⊢
              rw [← Option.some.inj at_]

/-- The spec of `update_breakdata` for breaks out of use. -/
theorem reads_updateBreakdata (env : Translations Block) (isa : InstructionSet)
    {state : Breakpoints Block} {owner : BreakOwner Block} (idle : state.Idle owner) :
    Reads env isa state (state.updateBreakdata env isa owner) owner := by
  have removing := rewrites_remove idle
  have reading := reads_disassemble env isa (removing.idle fun subcode => idle subcode)
    (fun subcode => by rw [removing.line])
  refine ⟨reading.code.trans removing.code, reading.dt.trans removing.dt,
    reading.addr.trans removing.addr,
    fun other ne => (reading.others other ne).trans (removing.others other ne), reading.idle,
    fun subcode => ?_, fun subcode pos at_ => ?_⟩
  · rw [← removing.addr]
    exact reading.pos subcode
  · rw [← removing.code]
    exact reading.byte subcode pos at_

namespace Reads

variable {env : Translations Block} {isa : InstructionSet} {state next : Breakpoints Block}
  {owner : BreakOwner Block}

omit [DecidableEq Block] in
theorem consistent (reads : Reads env isa state next owner) (consistent : Consistent env state)
    (idle : state.Idle owner) : Consistent env next := by
  refine consistent.of_idle reads.code reads.dt fun ref => ?_
  by_cases own : ref.owner = owner
  · right
    subst own
    exact ⟨(idle ref.subcode).1, reads.idle ref.subcode⟩
  · left
    rw [info, reads.others _ own, info]

end Reads

/-! ### Regular breakpoints -/

theorem data_eraseBreaks (state : Breakpoints Block) (isa : InstructionSet)
    (physical : Block × BitVec 9) (other : BreakOwner Block) :
    (state.eraseBreaks isa physical).data other =
      if other = .regular isa physical then {} else state.data other := by
  cases other with
  | regular otherIsa otherPhysical =>
      by_cases sameIsa : otherIsa = isa
      · subst sameIsa
        by_cases same : otherPhysical = physical <;> simp [eraseBreaks, data, same]
      · simp [eraseBreaks, data, sameIsa]
  | oneTime otherIsa slot => simp [eraseBreaks, data]

theorem consistent_eraseBreaks {env : Translations Block} {state : Breakpoints Block}
    {isa : InstructionSet} {physical : Block × BitVec 9} (consistent : Consistent env state)
    (unused : ∀ subcode, (state.info ⟨.regular isa physical, subcode⟩).used = false) :
    Consistent env (state.eraseBreaks isa physical) := by
  refine consistent.of_idle rfl rfl fun ref => ?_
  rw [info, data_eraseBreaks]
  split
  · next own =>
    right
    have before := unused ref.subcode
    rw [← own] at before
    exact ⟨before, rfl, rfl⟩
  · left
    rfl

theorem consistent_addBp {env : Translations Block} {state : Breakpoints Block}
    {isa : InstructionSet} {addr : BitVec 32} {subcode : Fin maxSubinstructions}
    (consistent : Consistent env state) (fresh : state.breaks isa (env.physical addr) = none)
    (vacant : ∀ pos ∈ env.linePosition isa addr subcode, state.dt pos = none) :
    Consistent env (state.addBp env isa addr subcode) := by
  set owner : BreakOwner Block := .regular isa (env.physical addr) with ownerIs
  have equation : state.addBp env isa addr subcode =
      ((state.setData owner { addr := addr }).updateBreakdata env isa owner).toggleSub
        ⟨owner, subcode⟩ := by
    rw [addBp, fresh]
  have idle : (state.setData owner { addr := addr }).Idle owner := by
    intro i
    rw [info, data_setData, if_pos rfl]
    exact ⟨rfl, rfl⟩
  have allocated : Consistent env (state.setData owner { addr := addr }) := by
    refine consistent.of_idle (code_setData _ _ _) (dt_setData _ _ _) fun ref => ?_
    by_cases own : ref.owner = owner
    · right
      refine ⟨?_, by rw [info, data_setData, if_pos own]; exact ⟨rfl, rfl⟩⟩
      rw [info, own, ownerIs, data, fresh]
      rfl
    · left
      rw [info, data_setData, if_neg own, info]
  have reads := reads_updateBreakdata env isa idle
  have ready := reads.consistent allocated idle
  rw [equation]
  refine ready.toggleSub_on (reads.idle subcode).1 fun pos placed => ?_
  have line := reads.pos subcode
  rw [placed, data_setData, if_pos rfl] at line
  have absent := vacant pos (Option.mem_def.mpr line.symm)
  refine ⟨?_, ?_⟩
  · rw [reads.dt, dt_setData, absent]
  · rw [reads.byte subcode pos placed, code_setData, consistent.code_of_absent absent]

theorem consistent_toggle {env : Translations Block} {state : Breakpoints Block}
    {isa : InstructionSet} {addr : BitVec 32} {subcode : Nat} (consistent : Consistent env state)
    (unshared : Unshared env state (.toggle isa addr subcode)) :
    Consistent env (state.toggle env isa addr subcode) := by
  rw [toggle]
  split
  · next inRange =>
    have ready := unshared inRange
    cases found : state.breaks isa (env.physical addr) with
    | none =>
        simp only [ToggleUnshared, found] at ready
        simp only [found]
        exact consistent_addBp consistent found ready
    | some data =>
        simp only [ToggleUnshared, found] at ready
        set ref : BreakRef Block := ⟨.regular isa (env.physical addr), ⟨subcode, inRange⟩⟩
        have toggled : Consistent env (state.toggleSub ref) := by
          cases used : (state.info ref).used with
          | false => exact consistent.toggleSub_on used fun pos placed => ready used pos placed
          | true => exact consistent.toggleSub_off used
        simp only [found]
        split
        · exact toggled
        · next idle =>
          refine consistent_eraseBreaks toggled fun i => ?_
          rw [List.any_eq_true] at idle
          exact Bool.eq_false_iff.mpr fun used => idle ⟨i, List.mem_finRange i, used⟩
  · exact consistent

/-! ### Clearing the one-time slots -/

omit [DecidableEq Block] in
theorem oneTime_of_owner {isa : InstructionSet} {slot : Fin 2} {ref : BreakRef Block}
    (owner : ref.owner = .oneTime isa slot) : OneTime isa ref := by
  match slot with
  | 0 => exact .inl owner
  | 1 => exact .inr owner

/-- What clearing the slots of an instruction set leaves as it was. -/
structure Clears (isa : InstructionSet) (state next : Breakpoints Block) : Prop where
  addr : ∀ owner, (next.data owner).addr = (state.data owner).addr
  pos : ∀ ref, (next.info ref).pos = (state.info ref).pos
  byte : ∀ ref, (next.info ref).originalByte = (state.info ref).originalByte
  foreign : ∀ ref, ¬ OneTime isa ref → next.info ref = state.info ref
  off : ∀ ref, (state.info ref).used = false → (next.info ref).used = false

namespace Clears

variable {isa : InstructionSet} {state next last : Breakpoints Block}

omit [DecidableEq Block] in
theorem refl (isa : InstructionSet) (state : Breakpoints Block) : Clears isa state state :=
  ⟨fun _ => rfl, fun _ => rfl, fun _ => rfl, fun _ _ => rfl, fun _ unused => unused⟩

omit [DecidableEq Block] in
theorem trans (first : Clears isa state next) (second : Clears isa next last) :
    Clears isa state last where
  addr := fun owner => (second.addr owner).trans (first.addr owner)
  pos := fun ref => (second.pos ref).trans (first.pos ref)
  byte := fun ref => (second.byte ref).trans (first.byte ref)
  foreign := fun ref other => (second.foreign ref other).trans (first.foreign ref other)
  off := fun ref unused => second.off ref (first.off ref unused)

end Clears

theorem clears_clearSub {env : Translations Block} {isa : InstructionSet}
    {state : Breakpoints Block} (ref : BreakRef Block) (consistent : Consistent env state)
    (own : OneTime isa ref) :
    Consistent env (state.clearSub ref) ∧ Clears isa state (state.clearSub ref) ∧
      ((state.clearSub ref).info ref).used = false := by
  rw [clearSub]
  split
  · next used =>
    have toggles := consistent.toggles ref
    have off : ((state.toggleSub ref).info ref).used = false := by
      rw [toggles.flipped, used]
      rfl
    refine ⟨consistent.toggleSub_off used, ⟨toggles.addr, fun other => ?_, fun other => ?_,
      fun other foreign => ?_, fun other unused => ?_⟩, off⟩
    · by_cases same : other = ref
      · rw [same, toggles.pos]
      · rw [toggles.others other same]
    · by_cases same : other = ref
      · rw [same, toggles.byte]
      · rw [toggles.others other same]
    · exact toggles.others other (fun same => foreign (same ▸ own))
    · by_cases same : other = ref
      · rw [same, off]
      · rw [toggles.others other same, unused]
  · next unused => exact ⟨consistent, .refl isa state, Bool.eq_false_iff.mpr unused⟩

theorem clears_foldl {env : Translations Block} (isa : InstructionSet)
    (subcodes : List (Fin maxSubinstructions)) {state : Breakpoints Block}
    (consistent : Consistent env state) :
    let next := subcodes.foldl
      (fun state i => (state.clearSub ⟨.oneTime isa 0, i⟩).clearSub ⟨.oneTime isa 1, i⟩) state
    Consistent env next ∧ Clears isa state next ∧
      ∀ i ∈ subcodes, ∀ slot, (next.info ⟨.oneTime isa slot, i⟩).used = false := by
  induction subcodes generalizing state with
  | nil => exact ⟨consistent, .refl isa state, fun i member => absurd member List.not_mem_nil⟩
  | cons i subcodes ih =>
      obtain ⟨consistent0, clears0, off0⟩ :=
        clears_clearSub ⟨.oneTime isa 0, i⟩ consistent (.inl rfl)
      obtain ⟨consistent1, clears1, off1⟩ :=
        clears_clearSub ⟨.oneTime isa 1, i⟩ consistent0 (.inr rfl)
      obtain ⟨consistentRest, clearsRest, offRest⟩ := ih consistent1
      refine ⟨consistentRest, (clears0.trans clears1).trans clearsRest, fun other member slot => ?_⟩
      rcases List.mem_cons.mp member with rfl | later
      · match slot with
        | 0 => exact clearsRest.off _ (clears1.off _ off0)
        | 1 => exact clearsRest.off _ off1
      · exact offRest other later slot

/-! ### Preparing a one-time slot -/

/-- The one-time breaks of an instruction set stand at one given position at
most, and the other breaks are as they were. -/
structure Settled (env : Translations Block) (isa : InstructionSet)
    (state next : Breakpoints Block) (taken : Option Nat) : Prop where
  consistent : Consistent env next
  foreign : ∀ ref, ¬ OneTime isa ref → next.info ref = state.info ref
  own : ∀ ref pos, OneTime isa ref → next.Uses ref pos → taken = some pos

/-- A position that only one-time breaks used before and that is not taken
again. -/
theorem Settled.absent {env : Translations Block} {isa : InstructionSet}
    {state next : Breakpoints Block} {taken : Option Nat} {pos : Nat}
    (settled : Settled env isa state next taken) (consistent : Consistent env state)
    (mine : ∀ ref ∈ state.resolve pos, OneTime isa ref) (free : taken ≠ some pos) :
    next.dt pos = none := by
  rw [Option.eq_none_iff_forall_ne_some]
  intro ref found
  have uses := (settled.consistent.table pos ref).mp found
  by_cases own : OneTime isa ref
  · exact free (settled.own ref pos own uses)
  · rw [Uses, settled.foreign ref own, ← Uses, ← consistent.table] at uses
    exact own (mine ref uses)

/-- A slot that is cleared and else as it was. -/
structure SlotKept (isa : InstructionSet) (slot : Fin 2) (state next : Breakpoints Block) :
    Prop where
  idle : next.Idle (.oneTime isa slot)
  addr : (next.data (.oneTime isa slot)).addr = (state.data (.oneTime isa slot)).addr
  pos : ∀ subcode, (next.info ⟨.oneTime isa slot, subcode⟩).pos =
    (state.info ⟨.oneTime isa slot, subcode⟩).pos
  byte : ∀ subcode, (next.info ⟨.oneTime isa slot, subcode⟩).originalByte =
    (state.info ⟨.oneTime isa slot, subcode⟩).originalByte

theorem settled_unsetOnetime {env : Translations Block} {state : Breakpoints Block}
    (isa : InstructionSet) (consistent : Consistent env state) :
    Settled env isa state (state.unsetOnetime isa) none ∧
      ∀ slot, SlotKept isa slot state (state.unsetOnetime isa) := by
  obtain ⟨after, clears, off⟩ :=
    clears_foldl isa (List.finRange maxSubinstructions) consistent
  have unused : ∀ slot i, ((state.unsetOnetime isa).info ⟨.oneTime isa slot, i⟩).used = false :=
    fun slot i => off i (List.mem_finRange i) slot
  refine ⟨⟨after, clears.foreign, ?_⟩, fun slot => ⟨fun i => ⟨unused slot i, ?_⟩,
    clears.addr _, fun i => clears.pos _, fun i => clears.byte _⟩⟩
  · rintro ⟨owner, i⟩ pos (rfl | rfl) uses
    · exact absurd ((unused 0 i).symm.trans uses.1) Bool.false_ne_true
    · exact absurd ((unused 1 i).symm.trans uses.1) Bool.false_ne_true
  · exact (after.patched _).trans (by rw [unsetOnetime] at unused; rw [unused, Bool.false_and])

/-- A slot that has the address asked for: its breaks stand where the address
has its instructions, with bytes as the code had them then or as they were. -/
structure Prepares (env : Translations Block) (isa : InstructionSet) (slot : Fin 2)
    (addr : BitVec 32) (state next prepared : Breakpoints Block) : Prop where
  code : prepared.code = next.code
  dt : prepared.dt = next.dt
  others : ∀ other, other ≠ .oneTime isa slot → prepared.data other = next.data other
  idle : prepared.Idle (.oneTime isa slot)
  pos : ∀ subcode, (prepared.info ⟨.oneTime isa slot, subcode⟩).pos =
    state.slotPosition env isa slot addr subcode
  byte : ∀ subcode pos, (prepared.info ⟨.oneTime isa slot, subcode⟩).pos = some pos →
    (prepared.info ⟨.oneTime isa slot, subcode⟩).originalByte = next.code pos ∨
      (state.data (.oneTime isa slot)).addr = addr ∧
        (prepared.info ⟨.oneTime isa slot, subcode⟩).originalByte =
          (state.info ⟨.oneTime isa slot, subcode⟩).originalByte

theorem prepares_prepareSlot (env : Translations Block) {isa : InstructionSet} {slot : Fin 2}
    (addr : BitVec 32) {state next : Breakpoints Block} (kept : SlotKept isa slot state next) :
    Prepares env isa slot addr state next (next.prepareSlot env isa slot addr) := by
  set owner : BreakOwner Block := .oneTime isa slot
  by_cases same : (state.data owner).addr = addr
  · have unchanged : next.prepareSlot env isa slot addr = next :=
      if_neg (not_not.mpr (kept.addr.trans same))
    rw [unchanged]
    refine ⟨rfl, rfl, fun _ _ => rfl, kept.idle, fun subcode => ?_, fun subcode pos _ => ?_⟩
    · rw [slotPosition, if_neg (not_not.mpr same), kept.pos]
    · exact .inr ⟨same, kept.byte subcode⟩
  · set addressed := next.setData owner { next.data owner with addr := addr }
    have changed : next.prepareSlot env isa slot addr =
        addressed.updateBreakdata env isa owner := if_pos (kept.addr ▸ same)
    have idle : addressed.Idle owner := by
      intro subcode
      rw [info, data_setData, if_pos rfl]
      exact kept.idle subcode
    have reads := reads_updateBreakdata env isa idle
    rw [changed]
    refine ⟨reads.code.trans (code_setData _ _ _), reads.dt.trans (dt_setData _ _ _),
      fun other ne => ?_, reads.idle, fun subcode => ?_, fun subcode pos placed => .inl ?_⟩
    · rw [reads.others other ne, data_setData, if_neg ne]
    · rw [reads.pos, data_setData, if_pos rfl, slotPosition, if_pos same]
    · rw [reads.byte subcode pos placed, code_setData]

section Prepared

variable {env : Translations Block} {isa : InstructionSet} {slot : Fin 2} {addr : BitVec 32}
  {state next prepared : Breakpoints Block} {taken : Option Nat}

theorem Prepares.settled (prepares : Prepares env isa slot addr state next prepared)
    (settled : Settled env isa state next taken) (idle : next.Idle (.oneTime isa slot)) :
    Settled env isa state prepared taken := by
  have elsewhere : ∀ ref : BreakRef Block, ref.owner ≠ .oneTime isa slot →
      prepared.info ref = next.info ref := by
    intro ref ne
    rw [info, prepares.others _ ne, info]
  refine ⟨?_, fun ref foreign => ?_, fun ref pos own uses => ?_⟩
  · refine settled.consistent.of_idle prepares.code prepares.dt fun ref => ?_
    by_cases here : ref.owner = .oneTime isa slot
    · obtain ⟨owner, subcode⟩ := ref
      subst here
      exact .inr ⟨(idle subcode).1, prepares.idle subcode⟩
    · exact .inl (elsewhere ref here)
  · rw [elsewhere ref fun here => foreign (oneTime_of_owner here), settled.foreign ref foreign]
  · by_cases here : ref.owner = .oneTime isa slot
    · obtain ⟨owner, subcode⟩ := ref
      subst here
      exact absurd ((prepares.idle subcode).1.symm.trans uses.1) Bool.false_ne_true
    · rw [Uses, elsewhere ref here] at uses
      exact settled.own ref pos own uses

/-- The byte of a break that shares no position is the translated one. -/
theorem Prepares.translated (prepares : Prepares env isa slot addr state next prepared)
    (settled : Settled env isa state next taken) (consistent : Consistent env state)
    {subcode : Fin maxSubinstructions} {pos : Nat}
    (unshared : SlotUnshared env state isa slot addr subcode)
    (placed : (prepared.info ⟨.oneTime isa slot, subcode⟩).pos = some pos)
    (free : taken ≠ some pos) :
    (prepared.info ⟨.oneTime isa slot, subcode⟩).originalByte = env.compiled pos := by
  obtain ⟨mine, fresh⟩ := unshared pos ((prepares.pos subcode).symm.trans placed)
  rcases prepares.byte subcode pos placed with read | ⟨same, kept⟩
  · rw [read, settled.consistent.code_of_absent (settled.absent consistent mine free)]
  · rw [kept, fresh same]

end Prepared

/-- The first break `set_onetime` enables. -/
theorem settled_enable {env : Translations Block} {isa : InstructionSet} {slot : Fin 2}
    {state prepared : Breakpoints Block} {subcode : Fin maxSubinstructions}
    (settled : Settled env isa state prepared none) (idle : prepared.Idle (.oneTime isa slot))
    (vacant : ∀ pos, (prepared.info ⟨.oneTime isa slot, subcode⟩).pos = some pos →
      prepared.dt pos = none ∧
        (prepared.info ⟨.oneTime isa slot, subcode⟩).originalByte = env.compiled pos) :
    Settled env isa state (prepared.toggleSub ⟨.oneTime isa slot, subcode⟩)
      (prepared.info ⟨.oneTime isa slot, subcode⟩).pos := by
  have toggles := settled.consistent.toggles ⟨.oneTime isa slot, subcode⟩
  refine ⟨settled.consistent.toggleSub_on (idle subcode).1 vacant, fun ref foreign => ?_,
    fun ref pos own uses => ?_⟩
  · rw [toggles.others ref ?_, settled.foreign ref foreign]
    rintro rfl
    exact foreign (oneTime_of_owner rfl)
  · by_cases same : ref = ⟨.oneTime isa slot, subcode⟩
    · subst same
      exact toggles.pos.symm.trans uses.2
    · rw [Uses, toggles.others ref same] at uses
      exact absurd (settled.own ref pos own uses) (by simp)

section SetOnetime

variable {env : Translations Block} {isa : InstructionSet} {state : Breakpoints Block}
  {addr1 addr2 : BitVec 32} {subcode1 subcode2 : Fin maxSubinstructions}

/-- The state after the first break of `set_onetime`, with slot 0 still as
prepared but for it. -/
theorem first_enabled (consistent : Consistent env state)
    (unshared : SlotUnshared env state isa 0 addr1 subcode1) :
    let prepared := (state.unsetOnetime isa).prepareSlot env isa 0 addr1
    Prepares env isa 0 addr1 state (state.unsetOnetime isa) prepared ∧
      Settled env isa state (prepared.toggleSub ⟨.oneTime isa 0, subcode1⟩)
        (state.slotPosition env isa 0 addr1 subcode1) := by
  obtain ⟨cleared, kept⟩ := settled_unsetOnetime isa consistent
  have prepares := prepares_prepareSlot env addr1 (kept 0)
  refine ⟨prepares, ?_⟩
  rw [← prepares.pos]
  refine settled_enable (prepares.settled cleared (kept 0).idle) prepares.idle fun pos placed => ?_
  refine ⟨?_, prepares.translated cleared consistent unshared placed (by simp)⟩
  have mine := (unshared pos ((prepares.pos subcode1).symm.trans placed)).1
  rw [prepares.dt, cleared.absent consistent mine (by simp)]

/-- The second break on the address of the first. -/
theorem second_sameAddress (consistent : Consistent env state)
    (unshared1 : SlotUnshared env state isa 0 addr1 subcode1)
    (unshared2 : SlotUnshared env state isa 0 addr1 subcode2) (ne : subcode1 ≠ subcode2)
    (apart : Apart (state.slotPosition env isa 0 addr1 subcode1)
      (state.slotPosition env isa 0 addr1 subcode2)) :
    Consistent env ((((state.unsetOnetime isa).prepareSlot env isa 0 addr1).toggleSub
      ⟨.oneTime isa 0, subcode1⟩).toggleSub ⟨.oneTime isa 0, subcode2⟩) := by
  obtain ⟨cleared, kept⟩ := settled_unsetOnetime isa consistent
  obtain ⟨prepares, first⟩ := first_enabled consistent unshared1
  have toggles := (prepares.settled cleared (kept 0).idle).consistent.toggles
    ⟨.oneTime isa 0, subcode1⟩
  have same := toggles.others ⟨.oneTime isa 0, subcode2⟩ (by simp [ne.symm])
  refine first.consistent.toggleSub_on ?_ fun pos placed => ?_
  · rw [same]
    exact (prepares.idle subcode2).1
  · rw [same] at placed ⊢
    have position := (prepares.pos subcode2).symm.trans placed
    refine ⟨first.absent consistent (unshared2 pos position).1 fun taken => ?_,
      prepares.translated cleared consistent unshared2 placed (by simp)⟩
    exact apart pos taken position

/-- The second break on an address of its own, in the other slot. -/
theorem second_otherAddress (consistent : Consistent env state)
    (unshared1 : SlotUnshared env state isa 0 addr1 subcode1)
    (unshared2 : SlotUnshared env state isa 1 addr2 subcode2)
    (apart : Apart (state.slotPosition env isa 0 addr1 subcode1)
      (state.slotPosition env isa 1 addr2 subcode2)) :
    Consistent env (((((state.unsetOnetime isa).prepareSlot env isa 0 addr1).toggleSub
      ⟨.oneTime isa 0, subcode1⟩).prepareSlot env isa 1 addr2).toggleSub
        ⟨.oneTime isa 1, subcode2⟩) := by
  obtain ⟨cleared, kept⟩ := settled_unsetOnetime isa consistent
  obtain ⟨prepares, first⟩ := first_enabled consistent unshared1
  have toggles := (prepares.settled cleared (kept 0).idle).consistent.toggles
    ⟨.oneTime isa 0, subcode1⟩
  have same : ∀ i, (((state.unsetOnetime isa).prepareSlot env isa 0 addr1).toggleSub
      ⟨.oneTime isa 0, subcode1⟩).info ⟨.oneTime isa 1, i⟩ =
      (state.unsetOnetime isa).info ⟨.oneTime isa 1, i⟩ := by
    intro i
    rw [toggles.others _ (by simp), info, prepares.others _ (by simp), info]
  have kept1 : SlotKept isa 1 state
      (((state.unsetOnetime isa).prepareSlot env isa 0 addr1).toggleSub
        ⟨.oneTime isa 0, subcode1⟩) := by
    refine ⟨fun i => ?_, ?_, fun i => ?_, fun i => ?_⟩
    · rw [same]
      exact (kept 1).idle i
    · rw [toggles.addr, prepares.others _ (by simp), (kept 1).addr]
    · rw [same, (kept 1).pos]
    · rw [same, (kept 1).byte]
  have prepares1 := prepares_prepareSlot env addr2 kept1
  have settled1 := prepares1.settled first kept1.idle
  refine settled1.consistent.toggleSub_on (prepares1.idle subcode2).1 fun pos placed => ?_
  have position := (prepares1.pos subcode2).symm.trans placed
  have free : state.slotPosition env isa 0 addr1 subcode1 ≠ some pos :=
    fun taken => apart pos taken position
  exact ⟨settled1.absent consistent (unshared2 pos position).1 free,
    prepares1.translated first consistent unshared2 placed free⟩

end SetOnetime

theorem consistent_setOnetime {env : Translations Block} {state : Breakpoints Block}
    {isa : InstructionSet} {addr1 addr2 : BitVec 32} {subcode1 subcode2 : Nat} {numAddr : Int}
    (consistent : Consistent env state)
    (unshared : Unshared env state (.setOnetime isa addr1 subcode1 addr2 subcode2 numAddr)) :
    Consistent env (state.setOnetime env isa addr1 subcode1 addr2 subcode2 numAddr) := by
  rw [setOnetime]
  split
  · next inRange1 =>
    have ready := unshared inRange1
    split
    · next two =>
      rw [if_pos two] at ready
      split
      · next inRange2 =>
        obtain ⟨ready1, ready2⟩ := ready inRange2
        dsimp only
        split
        · next sameAddr =>
          split
          · exact (first_enabled consistent ready1).2.consistent
          · next ne =>
            obtain ⟨ready2, apart⟩ := ready2.resolve_left fun both => ne both.2
            rw [if_pos sameAddr, sameAddr] at ready2 apart
            exact second_sameAddress consistent ready1 ready2
              (fun same => ne (congrArg Fin.val same)) apart
        · next otherAddr =>
          obtain ⟨ready2, apart⟩ := ready2.resolve_left fun both => otherAddr both.1
          rw [if_neg otherAddr] at ready2 apart
          exact second_otherAddress consistent ready1 ready2 apart
      · exact consistent
    · next one =>
      rw [if_neg one] at ready
      exact (first_enabled consistent ready).2.consistent
  · exact consistent

/-! ### All calls -/

theorem consistent_call {env : Translations Block} {state : Breakpoints Block} {call : BreakCall}
    (consistent : Consistent env state) (unshared : Unshared env state call) :
    Consistent env (state.call env call) := by
  cases call with
  | toggle isa addr subcode => exact consistent_toggle consistent unshared
  | setOnetime isa addr1 subcode1 addr2 subcode2 numAddr =>
      exact consistent_setOnetime consistent unshared
  | unsetOnetime isa => exact (settled_unsetOnetime isa consistent).1.consistent

/-- In a run whose calls share no position, patching is reversible throughout. -/
theorem reversible_of_unshared (env : Translations Block) (calls : List BreakCall)
    (unshared : EveryStep (call env) (Unshared env) (boot env) calls) :
    Always (call env) (Reversible env) (boot env) calls := by
  have keep : ∀ (state : Breakpoints Block) (next : BreakCall), Consistent env state →
      Unshared env state next → Consistent env (call env state next) :=
    fun _ _ consistent met => consistent_call consistent met
  have always := always_of_invariant keep (consistent_boot env) unshared
  exact fun visited isPrefix => (always visited isPrefix).reversible

/-- One page of ARM code in which every instruction is translated to four
one-byte instructions. -/
def nopTranslations : Translations Unit where
  addr2page := fun _ => ()
  jit
    | .arm, _ => some { code := 0x1000, codeSize := 0x200, remap := fun inst => 0x1000 + 4 * inst }
    | .thumb, _ => none
  compiled := fun _ => 0x90
  distormDecode := fun _ _ => some [1, 1, 1, 1]

/-- A regular breakpoint is set, moved over by a one-time break elsewhere, and
taken off again. -/
theorem reversible_of_unshared_nops :
    Always (call nopTranslations) (Reversible nopTranslations) (boot nopTranslations)
      [.toggle .arm 0x40 0, .setOnetime .arm 0x40 1 0x44 0 2, .toggle .arm 0x40 0,
        .unsetOnetime .arm] :=
  reversible_of_unshared nopTranslations _ (by decide +kernel)

/-- A regular breakpoint on top of a one-time one loses its trap when the
one-time one is taken off. -/
theorem not_reversible_stacked :
    ¬ Always (call nopTranslations) (Reversible nopTranslations) (boot nopTranslations)
      [.setOnetime .arm 0x40 0 0 0 1, .toggle .arm 0x40 0, .unsetOnetime .arm] := by
  intro always
  have last := always _ (List.prefix_refl _)
  have trap := last.trapped 0x1040 ⟨⟨.regular .arm ((), 0x40), 0⟩, by decide +kernel⟩
  exact absurd trap (by decide +kernel)

end Breakpoints

end Ndse
