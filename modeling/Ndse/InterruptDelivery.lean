import Ndse.Interrupt
import Ndse.Library.LabelledRun
import Mathlib.Data.List.Count

/-!
# No signalled interrupt is lost

A signalled interrupt should stay pending until its handler has run.  The scan
breaks this: it forgets the bits it has taken but finds disabled.  In every run
whose scans only meet enabled bits, no signalled interrupt is lost.  Whatever a
scan meets, it comes to its end: every turn of it, an iteration or the return of
the handler it invoked, brings it closer.
-/

namespace Ndse

/-- How many turns a poll still has at most: an iteration for each position of
the mask and one that ends the loop, and a return for each position. -/
def PollPhase.turnsLeft : PollPhase → Nat
  | .guest => 0
  | .scan _ bit => 2 * (32 - bit) + 1
  | .handler _ bit _ => 2 * (31 - bit) + 2

/-- The word and the position of a scan at the head of its loop. -/
def PollPhase.scanning : PollPhase → Option (BitVec 32 × Nat)
  | .scan intr bit => some (intr, bit)
  | _ => none

namespace InterruptState

/-- The bits the running scan has still to visit. -/
def toScan (state : InterruptState) (interrupt : Fin 32) : Prop :=
  match state.phase with
  | .guest => False
  | .scan intr bit => bit ≤ interrupt ∧ intr.getLsbD interrupt
  | .handler intr bit _ => bit < interrupt.val ∧ intr.getLsbD interrupt

/-- How often the handler has been invoked for one interrupt alone. -/
def handled (state : InterruptState) (interrupt : Fin 32) : Nat :=
  state.invocations.count (BitVec.twoPow 32 interrupt)

/-- A poll may run: control is in guest code outside a handler, the master
enable is set and the interrupt is enabled. -/
def Deliverable (state : InterruptState) (interrupt : Fin 32) : Prop :=
  state.phase = .guest ∧ state.inside = false ∧ state.ime &&& 1 ≠ 0 ∧
    state.ie.getLsbD interrupt

instance (state : InterruptState) (interrupt : Fin 32) :
    Decidable (state.Deliverable interrupt) :=
  inferInstanceAs (Decidable (_ ∧ _ ∧ _ ∧ _))

/-- A label carries a poll on when it is the next iteration of the scan or the
return of the handler that the scan waits for. -/
def carriesOn (state : InterruptState) : InterruptLabel → Bool
  | .scan _ => state.phase.scanning.isSome
  | .leave => state.phase != .guest && state.phase.scanning.isNone
  | _ => false

end InterruptState

open InterruptState LabelledRun

/-- A poll that has been entered takes the labels up to the iteration that
gives control back to the guest. -/
def PollTakes (cpu : Cpu) (entered : InterruptState) (labels : List InterruptLabel) : Prop :=
  Completes (step cpu) (fun state => state.phase = .guest) entered labels

instance (cpu : Cpu) (entered : InterruptState) (labels : List InterruptLabel) :
    Decidable (PollTakes cpu entered labels) :=
  decidableCompletes _ _ _ _

/-- The turns of a poll: 33 iterations and 32 returns at most. -/
def pollTurns : Nat := 65

/-- After every signal, a poll that starts with the interrupt deliverable comes
to an end in its turns.  When it keeps the interrupt enabled to that end, it has
invoked its handler. -/
def NoInterruptLost (cpu : Cpu) (start : InterruptState)
    (labels : List InterruptLabel) : Prop :=
  ∀ (interrupt : Fin 32) (before between during : List InterruptLabel),
    before ++ InterruptLabel.fire interrupt :: between ++ InterruptLabel.poll :: during <+: labels →
      let fired := (before ++ [InterruptLabel.fire interrupt]).foldl (step cpu) start
      let polled := between.foldl (step cpu) fired
      let entered := step cpu polled .poll
      polled.Deliverable interrupt →
        (pollTurns ≤ activeSteps (step cpu) carriesOn entered during →
          ∃ taken, taken <+: during ∧ PollTakes cpu entered taken) ∧
        ∀ taken, taken <+: during → PollTakes cpu entered taken →
          Always (step cpu) (fun state => state.ie.getLsbD interrupt) entered taken →
            fired.handled interrupt < (taken.foldl (step cpu) entered).handled interrupt

/-- The scan only meets enabled bits: a bit it is about to visit is enabled,
and, where the head of the poll filters the pending word, every pending bit is
enabled there. -/
def ScansEnabled (cpu : Cpu) (state : InterruptState) : InterruptLabel → Prop
  | .poll =>
      cpu = .arm7 → state.pollEnters → state.phase.scanning = none →
        ∀ interrupt : Fin 32, state.signaled.getLsbD interrupt → state.ie.getLsbD interrupt
  | .scan _ =>
      ∀ taken ∈ state.phase.scanning, taken.1.getLsbD taken.2 → state.ie.getLsbD taken.2
  | _ => True

instance (cpu : Cpu) (state : InterruptState) : DecidablePred (ScansEnabled cpu state)
  | .poll => inferInstanceAs (Decidable (_ → _ → _ → ∀ _, _ → _))
  | .scan _ => inferInstanceAs (Decidable (∀ taken ∈ state.phase.scanning, _ → _))
  | .fire _ | .writeIE _ | .writeIME _ | .compute _ | .leave => isTrue trivial

/-! ### One step -/

/-- Inside the handler the reentrancy flag is set. -/
def HandlerInside (state : InterruptState) : Prop :=
  ∀ intr bit backup, state.phase = .handler intr bit backup → state.inside = true

/-- Scanning a taken bit: either it is enabled and handled alone, or skipped. -/
theorem scan_mask (intr ie : BitVec 32) (bit : Nat) :
    intr &&& BitVec.twoPow 32 bit &&& ie =
      if intr.getLsbD bit ∧ ie.getLsbD bit then BitVec.twoPow 32 bit else 0 := by
  rw [BitVec.and_assoc, BitVec.and_comm (BitVec.twoPow 32 bit), ← BitVec.and_assoc,
    BitVec.and_twoPow, BitVec.getLsbD_and]
  simp only [Bool.and_eq_true]
  rfl

theorem twoPow_ne_zero {bit : Nat} (valid : bit < 32) : BitVec.twoPow 32 bit ≠ 0 := by
  intro zero
  have selected := congrArg (BitVec.getLsbD · bit) zero
  simp [valid] at selected

theorem twoPow_eq_zero {bit : Nat} (out : 32 ≤ bit) : BitVec.twoPow 32 bit = 0 := by
  apply BitVec.eq_of_getLsbD_eq
  intro i hi
  simp [BitVec.getLsbD_twoPow, show ¬ bit < 32 by omega]

/-- What one iteration of the scan does, by cases. -/
theorem scan_cases (state : InterruptState) (intr : BitVec 32) (bit : Nat)
    (irqHandler : BitVec 32) :
    (32 ≤ bit ∧ state.scan intr bit irqHandler = { state with phase := .guest }) ∨
      (bit < 32 ∧ intr.getLsbD bit ∧ state.ie.getLsbD bit ∧
        state.scan intr bit irqHandler =
          { state with iflag := BitVec.twoPow 32 bit }.enterHandler intr bit irqHandler) ∨
      (bit < 32 ∧ ¬ (intr.getLsbD bit ∧ state.ie.getLsbD bit) ∧
        state.scan intr bit irqHandler = { state with phase := .scan intr (bit + 1) }) := by
  unfold scan
  simp only [scan_mask]
  by_cases out : 32 ≤ bit
  · exact Or.inl ⟨out, by rw [if_pos (twoPow_eq_zero out)]⟩
  · have valid : bit < 32 := Nat.lt_of_not_le out
    rw [if_neg (twoPow_ne_zero valid)]
    by_cases taken : intr.getLsbD bit ∧ state.ie.getLsbD bit
    · refine Or.inr (Or.inl ⟨valid, taken.1, taken.2, ?_⟩)
      rw [if_pos taken, if_pos (twoPow_ne_zero valid)]
    · refine Or.inr (Or.inr ⟨valid, taken, ?_⟩)
      rw [if_neg taken, if_neg (not_not.mpr rfl)]

theorem handlerInside_step (cpu : Cpu) {state : InterruptState} (inside : HandlerInside state)
    (label : InterruptLabel) : HandlerInside (step cpu state label) := by
  cases label with
  | fire interrupt => exact inside
  | writeIE value => exact inside
  | writeIME value => exact inside
  | compute processor =>
      simp only [step]
      split <;> exact inside
  | poll =>
      simp only [step]
      split
      · exact inside
      · unfold poll
        split
        · intro intr bit backup handling
          cases handling
        · exact inside
  | scan irqHandler =>
      simp only [step]
      split
      next intr bit _ =>
        obtain ⟨_, equal⟩ | ⟨_, _, _, equal⟩ | ⟨_, _, equal⟩ :=
          scan_cases state intr bit irqHandler
        · rw [equal]
          intro _ _ _ handling
          cases handling
        · rw [equal]
          intro _ _ _ _
          rfl
        · rw [equal]
          intro _ _ _ handling
          cases handling
      · exact inside
  | leave =>
      simp only [step]
      split
      · intro _ _ _ handling
        cases handling
      · exact inside

theorem handlerInside_foldl (cpu : Cpu) {state : InterruptState} (inside : HandlerInside state)
    (labels : List InterruptLabel) : HandlerInside (labels.foldl (step cpu) state) := by
  induction labels generalizing state with
  | nil => exact inside
  | cons label labels ih => exact ih (handlerInside_step cpu inside label)

/-- The log of invocations only grows. -/
theorem handled_mono (cpu : Cpu) (state : InterruptState) (label : InterruptLabel)
    (interrupt : Fin 32) :
    state.handled interrupt ≤ (step cpu state label).handled interrupt := by
  cases label with
  | fire _ => exact le_rfl
  | writeIE _ => exact le_rfl
  | writeIME _ => exact le_rfl
  | compute _ =>
      simp only [step]
      split <;> exact le_rfl
  | poll =>
      simp only [step]
      split
      · exact le_rfl
      · unfold poll
        split <;> exact le_rfl
  | scan irqHandler =>
      simp only [step]
      split
      next intr bit _ =>
        obtain ⟨_, equal⟩ | ⟨_, _, _, equal⟩ | ⟨_, _, equal⟩ :=
          scan_cases state intr bit irqHandler
        · rw [equal]
          exact le_rfl
        · rw [equal]
          simp only [handled, enterHandler]
          exact List.Sublist.count_le _ (List.sublist_append_left _ _)
        · rw [equal]
          exact le_rfl
      · exact le_rfl
  | leave =>
      simp only [step]
      split <;> exact le_rfl

/-- Entering the handler for one bit counts as handling it. -/
theorem handled_enterHandler (state : InterruptState) (intr : BitVec 32) (bit : Nat)
    (irqHandler : BitVec 32) (interrupt : Fin 32) :
    ({ state with iflag := BitVec.twoPow 32 interrupt }.enterHandler intr bit
      irqHandler).handled interrupt = state.handled interrupt + 1 := by
  simp [handled, enterHandler, List.count_append]

/-! ### The end of a poll -/

theorem turnsLeft_pos {state : InterruptState} (running : state.phase ≠ .guest) :
    0 < state.phase.turnsLeft := by
  cases current : state.phase with
  | guest => exact absurd current running
  | scan intr bit => exact Nat.succ_pos _
  | handler intr bit backup => exact Nat.succ_pos _

/-- A turn of the poll brings it closer to its end, and nothing else sets it
back. -/
theorem turnsLeft_step (cpu : Cpu) {state : InterruptState} (inside : HandlerInside state)
    (running : state.phase ≠ .guest) (label : InterruptLabel) :
    (step cpu state label).phase.turnsLeft + (carriesOn state label).toNat ≤
      state.phase.turnsLeft := by
  cases label with
  | fire _ => exact le_rfl
  | writeIE _ => exact le_rfl
  | writeIME _ => exact le_rfl
  | compute _ =>
      simp only [step]
      split <;> exact le_rfl
  | poll =>
      have same : (step cpu state .poll).phase = state.phase := by
        cases current : state.phase with
        | guest => exact absurd current running
        | scan intr bit => simp only [step, current]
        | handler intr bit backup =>
            have closed : ¬ state.pollEnters := fun enters =>
              absurd enters.1 (by simp [inside _ _ _ current])
            simp only [step, current, poll, if_neg closed]
      rw [same]
      exact le_rfl
  | scan irqHandler =>
      cases current : state.phase with
      | guest => exact absurd current running
      | handler intr bit backup => simp [step, current, carriesOn, PollPhase.scanning]
      | scan intr bit =>
          have turn : (carriesOn state (.scan irqHandler)).toNat = 1 := by
            simp [carriesOn, PollPhase.scanning, current]
          rw [turn]
          simp only [step, current]
          obtain ⟨_, equal⟩ | ⟨valid, _, _, equal⟩ | ⟨valid, _, equal⟩ :=
            scan_cases state intr bit irqHandler
          · rw [equal]
            simp [PollPhase.turnsLeft]
          · rw [equal]
            simp only [enterHandler, PollPhase.turnsLeft]
            omega
          · rw [equal]
            simp only [PollPhase.turnsLeft]
            omega
  | leave =>
      cases current : state.phase with
      | guest => exact absurd current running
      | scan intr bit => simp [step, current, carriesOn, PollPhase.scanning]
      | handler intr bit backup =>
          have turn : (carriesOn state .leave).toNat = 1 := by
            simp [carriesOn, PollPhase.scanning, current]
          rw [turn]
          simp only [step, current, leave, PollPhase.turnsLeft]
          omega

/-- A poll that has passed its gates is at the head of its scan. -/
theorem turnsLeft_enter (cpu : Cpu) {state : InterruptState} (guest : state.phase = .guest)
    (enters : state.pollEnters) :
    (step cpu state .poll).phase ≠ .guest ∧
      (step cpu state .poll).phase.turnsLeft = pollTurns := by
  simp only [step, guest, poll, if_pos enters]
  exact ⟨nofun, rfl⟩

/-- Every poll that passes its gates comes to its end in its turns, whatever
else happens meanwhile. -/
theorem poll_ends (cpu : Cpu) {state : InterruptState} (inside : HandlerInside state)
    (guest : state.phase = .guest) (enters : state.pollEnters) {labels : List InterruptLabel}
    (turns : pollTurns ≤ activeSteps (step cpu) carriesOn (step cpu state .poll) labels) :
    ∃ taken, taken <+: labels ∧ PollTakes cpu (step cpu state .poll) taken := by
  have keep : ∀ (visited : InterruptState) (label : InterruptLabel),
      HandlerInside visited → HandlerInside (step cpu visited label) :=
    fun _ label inside => handlerInside_step cpu inside label
  have positive : ∀ visited : InterruptState, ¬ visited.phase = .guest →
      0 < visited.phase.turnsLeft :=
    fun _ running => turnsLeft_pos running
  have lower : ∀ (visited : InterruptState) (label : InterruptLabel), HandlerInside visited →
      ¬ visited.phase = .guest →
        (step cpu visited label).phase.turnsLeft + (carriesOn visited label).toNat ≤
          visited.phase.turnsLeft :=
    fun _ label inside running => turnsLeft_step cpu inside running label
  obtain ⟨running, left⟩ := turnsLeft_enter cpu guest enters
  exact exists_completes keep positive lower (keep state .poll inside) running
    (left.trans_le turns)

/-! ### The scan keeps what it has taken -/

/-- An interrupt the running scan has taken is still to be visited or has been
handled more than `count` times. -/
structure Scanning (interrupt : Fin 32) (count : Nat) (state : InterruptState) : Prop where
  inside : HandlerInside state
  base : count ≤ state.handled interrupt
  due : count < state.handled interrupt ∨ state.toScan interrupt

theorem Scanning.step {cpu : Cpu} {interrupt : Fin 32} {count : Nat} {state : InterruptState}
    {label : InterruptLabel} (scanning : Scanning interrupt count state)
    (enabled : ScansEnabled cpu state label) :
    Scanning interrupt count (InterruptState.step cpu state label) := by
  refine ⟨handlerInside_step cpu scanning.inside label,
    scanning.base.trans (handled_mono cpu state label interrupt), ?_⟩
  obtain done | due := scanning.due
  · exact Or.inl (lt_of_lt_of_le done (handled_mono cpu state label interrupt))
  cases label with
  | fire other => exact Or.inr due
  | writeIE value => exact Or.inr due
  | writeIME value => exact Or.inr due
  | compute processor =>
      refine Or.inr ?_
      simp only [InterruptState.step]
      split <;> exact due
  | poll =>
      refine Or.inr ?_
      simp only [InterruptState.step]
      split
      · exact due
      · unfold poll
        rw [if_neg]
        · exact due
        · rintro ⟨outside, -⟩
          cases current : state.phase with
          | guest => simp [toScan, current] at due
          | scan intr bit => simp_all
          | handler intr bit backup =>
              simp [scanning.inside _ _ _ current] at outside
  | scan irqHandler =>
      cases current : state.phase with
      | guest => simp [toScan, current] at due
      | handler intr bit backup =>
          simp only [InterruptState.step, current]
          exact Or.inr due
      | scan intr bit =>
          simp only [InterruptState.step, current]
          simp only [toScan, current] at due
          simp only [ScansEnabled, PollPhase.scanning, current, Option.mem_some_iff,
            forall_eq'] at enabled
          obtain ⟨out, _⟩ | ⟨_, _, _, equal⟩ | ⟨_, skipped, equal⟩ :=
            scan_cases state intr bit irqHandler
          · exact absurd interrupt.isLt (by omega)
          · rw [equal]
            by_cases visited : bit = interrupt
            · left
              rw [visited, handled_enterHandler]
              exact Nat.lt_succ_of_le scanning.base
            · right
              exact ⟨lt_of_le_of_ne due.1 visited, due.2⟩
          · rw [equal]
            right
            refine ⟨lt_of_le_of_ne due.1 fun visited => ?_, due.2⟩
            subst visited
            exact skipped ⟨due.2, enabled due.2⟩
  | leave =>
      refine Or.inr ?_
      cases current : state.phase with
      | guest => simp [toScan, current] at due
      | scan intr bit => simpa only [InterruptState.step, current] using due
      | handler intr bit backup =>
          simp only [toScan, current] at due
          simp only [InterruptState.step, current]
          exact due

/-! ### From the signal to the handler -/

/-- A signalled interrupt has not been taken yet, or the scan that took it keeps
it. -/
def Pending (interrupt : Fin 32) (count : Nat) (state : InterruptState) : Prop :=
  Scanning interrupt count state ∨
    HandlerInside state ∧ count ≤ state.handled interrupt ∧ state.signaled.getLsbD interrupt

/-- A poll that passes its gates takes every signalled interrupt. -/
theorem Pending.enter {cpu : Cpu} {interrupt : Fin 32} {count : Nat} {state : InterruptState}
    (pending : Pending interrupt count state) (guest : state.phase = .guest)
    (enters : state.pollEnters) (enabled : ScansEnabled cpu state .poll) :
    Scanning interrupt count (InterruptState.step cpu state .poll) := by
  obtain scanning | ⟨inside, base, signaled⟩ := pending
  · exact scanning.step enabled
  · refine ⟨handlerInside_step cpu inside .poll, ?_, Or.inr ?_⟩
    · exact base.trans (handled_mono cpu state .poll interrupt)
    · simp only [InterruptState.step, guest, InterruptState.poll, if_pos enters, toScan]
      refine ⟨Nat.zero_le _, ?_⟩
      cases cpu with
      | arm9 => exact signaled
      | arm7 =>
          rw [BitVec.getLsbD_and, signaled, enabled rfl enters (by rw [guest]; rfl)
            interrupt signaled]
          rfl

theorem Pending.step {cpu : Cpu} {interrupt : Fin 32} {count : Nat} {state : InterruptState}
    {label : InterruptLabel} (pending : Pending interrupt count state)
    (enabled : ScansEnabled cpu state label) :
    Pending interrupt count (InterruptState.step cpu state label) := by
  obtain scanning | ⟨inside, base, signaled⟩ := id pending
  · exact Or.inl (scanning.step enabled)
  have keep (same : (InterruptState.step cpu state label).signaled.getLsbD interrupt) :
      Pending interrupt count (InterruptState.step cpu state label) :=
    Or.inr ⟨handlerInside_step cpu inside label,
      base.trans (handled_mono cpu state label interrupt), same⟩
  cases label with
  | fire other =>
      refine keep ?_
      simp only [InterruptState.step, InterruptState.fire, BitVec.getLsbD_or, signaled,
        Bool.true_or]
  | writeIE value => exact keep signaled
  | writeIME value => exact keep signaled
  | compute processor =>
      refine keep ?_
      simp only [InterruptState.step]
      split <;> exact signaled
  | poll =>
      by_cases enters : state.pollEnters
      · cases current : state.phase with
        | guest => exact Or.inl (pending.enter current enters enabled)
        | scan intr bit =>
            refine keep ?_
            simpa only [InterruptState.step, current] using signaled
        | handler intr bit backup =>
            exact absurd enters.1 (by simp [inside _ _ _ current])
      · refine keep ?_
        simp only [InterruptState.step, InterruptState.poll, if_neg enters]
        split <;> exact signaled
  | scan irqHandler =>
      refine keep ?_
      simp only [InterruptState.step]
      split
      next intr bit _ =>
        obtain ⟨_, equal⟩ | ⟨_, _, _, equal⟩ | ⟨_, _, equal⟩ :=
          scan_cases state intr bit irqHandler <;> rw [equal] <;> exact signaled
      · exact signaled
  | leave =>
      refine keep ?_
      simp only [InterruptState.step]
      split <;> exact signaled

/-- The signal itself makes the interrupt pending. -/
theorem pending_fire (cpu : Cpu) {state : InterruptState} (inside : HandlerInside state)
    (interrupt : Fin 32) :
    let fired := InterruptState.step cpu state (.fire interrupt)
    Pending interrupt (fired.handled interrupt) fired := by
  refine Or.inr ⟨inside, le_rfl, ?_⟩
  simp [InterruptState.step, InterruptState.fire, interrupt.isLt]

theorem handlerInside_boot : HandlerInside InterruptState.boot := by
  intro _ _ _ handling
  cases handling

/-- In every run from boot whose scans only meet enabled bits, no signalled
interrupt is lost, on either processor. -/
theorem noInterruptLost (cpu : Cpu) (labels : List InterruptLabel)
    (enabled : EveryStep (InterruptState.step cpu) (ScansEnabled cpu) InterruptState.boot labels) :
    NoInterruptLost cpu InterruptState.boot labels := by
  intro interrupt before between during isPrefix fired polled entered
  rintro ⟨guest, outside, master, -⟩
  obtain ⟨rest, rfl⟩ := isPrefix
  simp only [List.cons_append, List.append_assoc, everyStep_append, everyStep_cons] at enabled
  obtain ⟨-, -, betweenEnabled, pollEnabled, duringEnabled, -⟩ := enabled
  have inside : HandlerInside (before.foldl (InterruptState.step cpu) InterruptState.boot) :=
    handlerInside_foldl cpu handlerInside_boot before
  have firedPending : Pending interrupt (fired.handled interrupt) fired := by
    simpa [fired, List.foldl_append] using pending_fire cpu inside interrupt
  have polledPending : Pending interrupt (fired.handled interrupt) polled := by
    refine invariant_foldl (fun _ _ pending met => pending.step met) firedPending ?_
    simpa [fired, List.foldl_append] using betweenEnabled
  have enteredScanning : Scanning interrupt (fired.handled interrupt) entered := by
    refine polledPending.enter guest ⟨outside, master⟩ ?_
    simpa [polled, fired, List.foldl_append] using pollEnabled
  refine ⟨fun turns => ?_, fun taken isPrefix takes _ => ?_⟩
  · have polledInside : HandlerInside polled := by
      refine handlerInside_foldl cpu (handlerInside_foldl cpu handlerInside_boot _) between
    exact poll_ends cpu polledInside guest ⟨outside, master⟩ turns
  · obtain ⟨later, rfl⟩ := isPrefix
    have takenEnabled : EveryStep (InterruptState.step cpu) (ScansEnabled cpu) entered taken := by
      refine ((everyStep_append _ _ _ taken later).mp ?_).1
      simpa [entered, polled, fired, List.foldl_append] using duringEnabled
    have takenScanning : Scanning interrupt (fired.handled interrupt)
        (taken.foldl (InterruptState.step cpu) entered) :=
      invariant_foldl (fun _ _ scanning met => scanning.step met) enteredScanning takenEnabled
    obtain done | due := takenScanning.due
    · exact done
    · simp [toScan, takes.1] at due

/-- Every interrupt is signalled and enabled, and one poll handles them all. -/
def everyInterrupt : List InterruptLabel :=
  [.writeIME 1, .writeIE 0xFFFFFFFF] ++ (List.finRange 32).map .fire ++ [.poll] ++
    (List.replicate 32 [.scan 0x100, .leave]).flatten ++ [.scan 0x100]

set_option maxRecDepth 2000 in
/-- The poll has all its turns, hands control back and has run the handler once
for each interrupt. -/
theorem noInterruptLost_delivered :
    NoInterruptLost .arm9 InterruptState.boot everyInterrupt ∧
      (everyInterrupt.foldl (step .arm9) InterruptState.boot).phase = .guest ∧
      (everyInterrupt.foldl (step .arm9) InterruptState.boot).invocations =
        (List.finRange 32).map fun interrupt => BitVec.twoPow 32 interrupt :=
  ⟨noInterruptLost .arm9 everyInterrupt (by decide), by decide, by decide⟩

/-- Interrupt 1 is signalled while disabled, and enabled after one poll. -/
def enabledLate : List InterruptLabel :=
  [.fire 1, .writeIME 1, .poll] ++ List.replicate 33 (.scan 0) ++
    [.writeIE 2, .poll] ++ List.replicate 33 (.scan 0)

/-- An interrupt signalled while disabled is forgotten by the next poll, and is
not delivered once it is enabled. -/
theorem noInterruptLost_fails_enabledLate :
    ¬ NoInterruptLost .arm9 InterruptState.boot enabledLate ∧
      ¬ NoInterruptLost .arm7 InterruptState.boot enabledLate := by
  constructor <;>
    intro kept <;>
    have late := (kept 1 []
      ([.writeIME 1, .poll] ++ List.replicate 33 (.scan 0) ++ [.writeIE 2])
      (List.replicate 33 (.scan 0)) ⟨[], rfl⟩ (by decide)).2
      (List.replicate 33 (.scan 0)) (List.prefix_refl _) (by decide) (by decide) <;>
    revert late <;>
    decide

end Ndse
