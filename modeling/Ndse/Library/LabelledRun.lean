import Mathlib.Data.List.Infix

/-!
# Runs of a labelled transition function

A deterministic system is a function `step : σ → α → σ` that consumes one
label at a time, and a run is the left fold of that function over a list of
labels.  This file packages the inductions over runs that state-machine
arguments need: a condition that every step meets, a property that every
visited state has, and the equivalence between the two when violating the
condition is visible in the very next state.
-/

namespace LabelledRun

variable {σ τ α : Type*}

/-- Every step of the run from `state` over `labels` is taken from a state in
which its label meets `ok`. -/
def EveryStep (step : σ → α → σ) (ok : σ → α → Prop) : σ → List α → Prop
  | _, [] => True
  | state, label :: labels => ok state label ∧ EveryStep step ok (step state label) labels

/-- Every state visited by the run, the initial one included, is `good`. -/
def Always (step : σ → α → σ) (good : σ → Prop) (state : σ) (labels : List α) : Prop :=
  ∀ visited, visited <+: labels → good (visited.foldl step state)

@[simp]
theorem everyStep_nil (step : σ → α → σ) (ok : σ → α → Prop) (state : σ) :
    EveryStep step ok state [] :=
  trivial

@[simp]
theorem everyStep_cons (step : σ → α → σ) (ok : σ → α → Prop) (state : σ)
    (label : α) (labels : List α) :
    EveryStep step ok state (label :: labels) ↔
      ok state label ∧ EveryStep step ok (step state label) labels :=
  Iff.rfl

instance decidableEveryStep (step : σ → α → σ) (ok : σ → α → Prop)
    [∀ state label, Decidable (ok state label)] :
    ∀ state labels, Decidable (EveryStep step ok state labels)
  | _, [] => isTrue trivial
  | state, label :: labels =>
      haveI := decidableEveryStep step ok (step state label) labels
      inferInstanceAs (Decidable (_ ∧ _))

theorem everyStep_of_forall {step : σ → α → σ} {ok : σ → α → Prop}
    (all : ∀ state label, ok state label) {state : σ} {labels : List α} :
    EveryStep step ok state labels := by
  induction labels generalizing state with
  | nil => trivial
  | cons label labels ih => exact ⟨all state label, ih⟩

theorem everyStep_append (step : σ → α → σ) (ok : σ → α → Prop) (state : σ)
    (first second : List α) :
    EveryStep step ok state (first ++ second) ↔
      EveryStep step ok state first ∧
        EveryStep step ok (first.foldl step state) second := by
  induction first generalizing state with
  | nil => simp
  | cons label first ih => simp [ih, and_assoc]

theorem always_cons (step : σ → α → σ) (good : σ → Prop) (state : σ)
    (label : α) (labels : List α) :
    Always step good state (label :: labels) ↔
      good state ∧ Always step good (step state label) labels := by
  constructor
  · intro always
    refine ⟨always [] (List.nil_prefix), fun visited isPrefix => ?_⟩
    exact always (label :: visited) (List.cons_prefix_cons.mpr ⟨rfl, isPrefix⟩)
  · rintro ⟨now, later⟩ visited isPrefix
    cases visited with
    | nil => exact now
    | cons head visited =>
        obtain ⟨rfl, restPrefix⟩ := List.cons_prefix_cons.mp isPrefix
        exact later visited restPrefix

instance decidableAlways (step : σ → α → σ) (good : σ → Prop) [DecidablePred good] :
    ∀ state labels, Decidable (Always step good state labels)
  | state, [] =>
      decidable_of_iff (good state)
        ⟨fun now _ isPrefix => List.prefix_nil.mp isPrefix ▸ now,
          fun always => always [] List.nil_prefix⟩
  | state, label :: labels =>
      haveI := decidableAlways step good (step state label) labels
      decidable_of_iff _ (always_cons step good state label labels).symm

/-- A property of all visited states holds after every step. -/
theorem everyStep_of_always {step : σ → α → σ} {good : σ → Prop} {state : σ}
    {labels : List α} (always : Always step good state labels) :
    EveryStep step (fun state label => good (step state label)) state labels := by
  induction labels generalizing state with
  | nil => trivial
  | cons label labels ih =>
      have later := ((always_cons step good state label labels).mp always).2
      exact ⟨later [] List.nil_prefix, ih later⟩

/-- An invariant that every admissible step preserves holds at the end of an
admissible run. -/
theorem invariant_foldl {step : σ → α → σ} {ok : σ → α → Prop} {inv : σ → Prop}
    (keep : ∀ state label, inv state → ok state label → inv (step state label))
    {state : σ} (initial : inv state) {labels : List α}
    (steps : EveryStep step ok state labels) :
    inv (labels.foldl step state) := by
  induction labels generalizing state with
  | nil => exact initial
  | cons label labels ih => exact ih (keep state label initial steps.1) steps.2

/-- An invariant that every admissible step preserves holds in every state of
an admissible run. -/
theorem always_of_invariant {step : σ → α → σ} {ok : σ → α → Prop} {inv : σ → Prop}
    (keep : ∀ state label, inv state → ok state label → inv (step state label))
    {state : σ} (initial : inv state) {labels : List α}
    (steps : EveryStep step ok state labels) :
    Always step inv state labels := by
  rintro visited ⟨rest, rfl⟩
  exact invariant_foldl keep initial ((everyStep_append _ _ _ _ _).mp steps).1

/-- The system has ended at the end of the run and at no state before. -/
def Completes (step : σ → α → σ) (ended : σ → Prop) (state : σ) (labels : List α) : Prop :=
  ended (labels.foldl step state) ∧
    Always step (fun visited => ¬ ended visited) state labels.dropLast

instance decidableCompletes (step : σ → α → σ) (ended : σ → Prop) [DecidablePred ended]
    (state : σ) (labels : List α) : Decidable (Completes step ended state labels) :=
  inferInstanceAs (Decidable (_ ∧ _))

theorem completes_singleton {step : σ → α → σ} {ended : σ → Prop} {state : σ} {label : α}
    (running : ¬ ended state) (last : ended (step state label)) :
    Completes step ended state [label] := by
  refine ⟨last, fun visited isPrefix => ?_⟩
  rw [List.prefix_nil.mp isPrefix]
  exact running

theorem Completes.cons {step : σ → α → σ} {ended : σ → Prop} {state : σ} {label : α}
    {labels : List α} (rest : Completes step ended (step state label) labels)
    (running : ¬ ended state) (next : ¬ ended (step state label)) :
    Completes step ended state (label :: labels) := by
  have nonempty : labels ≠ [] := by
    rintro rfl
    exact next rest.1
  refine ⟨rest.1, ?_⟩
  rw [List.dropLast_cons_of_ne_nil nonempty, always_cons]
  exact ⟨running, rest.2⟩

/-- How many steps of the run are active. -/
def activeSteps (step : σ → α → σ) (active : σ → α → Bool) : σ → List α → Nat
  | _, [] => 0
  | state, label :: labels =>
      (active state label).toNat + activeSteps step active (step state label) labels

/-- When a rank is positive until the system has ended, active steps lower it and
no other step raises it, then a run with as many active steps as the rank has a
prefix at whose end, and not before, the system has ended. -/
theorem exists_completes {step : σ → α → σ} {active : σ → α → Bool} {ended inv : σ → Prop}
    {rank : σ → Nat} (keep : ∀ state label, inv state → inv (step state label))
    (positive : ∀ state, ¬ ended state → 0 < rank state)
    (lower : ∀ state label, inv state → ¬ ended state →
      rank (step state label) + (active state label).toNat ≤ rank state)
    {state : σ} (initial : inv state) (running : ¬ ended state) {labels : List α}
    (enough : rank state ≤ activeSteps step active state labels) :
    ∃ taken, taken <+: labels ∧ Completes step ended state taken := by
  induction labels generalizing state with
  | nil => exact absurd (positive state running) (Nat.not_lt.mpr enough)
  | cons label labels ih =>
      by_cases last : ended (step state label)
      · exact ⟨[label], by simp, completes_singleton running last⟩
      · have lowered := lower state label initial running
        have left : rank (step state label) ≤
            activeSteps step active (step state label) labels := by
          simp only [activeSteps] at enough
          omega
        obtain ⟨taken, isPrefix, completes⟩ := ih (keep state label initial) last left
        exact ⟨label :: taken, List.cons_prefix_cons.mpr ⟨rfl, isPrefix⟩,
          completes.cons running last⟩

/-- When an invariant is kept by admissible steps and makes them meet a second
condition, every step of an admissible run meets it. -/
theorem everyStep_of_invariant {step : σ → α → σ} {ok met : σ → α → Prop} {inv : σ → Prop}
    (keep : ∀ state label, inv state → ok state label → inv (step state label))
    (meets : ∀ state label, inv state → ok state label → met state label)
    {state : σ} (initial : inv state) {labels : List α}
    (steps : EveryStep step ok state labels) : EveryStep step met state labels := by
  induction labels generalizing state with
  | nil => trivial
  | cons label labels ih =>
      exact ⟨meets state label initial steps.1, ih (keep state label initial steps.1) steps.2⟩

/-- When an invariant is kept by every step and makes two conditions on a step
agree, the steps of a run all meet the one exactly when they all meet the
other. -/
theorem everyStep_iff_of_invariant {step : σ → α → σ} {ok met : σ → α → Prop} {inv : σ → Prop}
    (keep : ∀ state label, inv state → inv (step state label))
    (agree : ∀ state label, inv state → (met state label ↔ ok state label))
    {state : σ} (initial : inv state) (labels : List α) :
    EveryStep step met state labels ↔ EveryStep step ok state labels := by
  induction labels generalizing state with
  | nil => exact Iff.rfl
  | cons label labels ih =>
      rw [everyStep_cons, everyStep_cons, agree state label initial,
        ih (keep state label initial)]

/-- Two systems run side by side over the same labels.  When related states
agree on a condition each has on its steps, and steps meeting it stay related,
the steps of a well-formed run all meet the one exactly when they all meet the
other. -/
theorem everyStep_iff_of_related {step : σ → α → σ} {otherStep : τ → α → τ}
    {wellFormed : α → Prop} {met : σ → α → Prop} {ok : τ → α → Prop} {related : σ → τ → Prop}
    (agree : ∀ state other label, related state other → wellFormed label →
      (met state label ↔ ok other label))
    (keep : ∀ state other label, related state other → wellFormed label → ok other label →
      related (step state label) (otherStep other label))
    {state : σ} {other : τ} (initial : related state other) {labels : List α}
    (formed : ∀ label ∈ labels, wellFormed label) :
    EveryStep step met state labels ↔ EveryStep otherStep ok other labels := by
  induction labels generalizing state other with
  | nil => exact Iff.rfl
  | cons label labels ih =>
      obtain ⟨now, later⟩ := List.forall_mem_cons.mp formed
      rw [everyStep_cons, everyStep_cons, agree state other label initial now]
      apply and_congr_right
      intro isOk
      exact ih (keep state other label initial now isOk) later

/-- When an invariant implies `good`, is kept by every step meeting `ok`, and a
step that misses `ok` always lands outside `good`, a well-formed run visits
only good states exactly when all its steps meet `ok`. -/
theorem always_iff_everyStep {step : σ → α → σ} {wellFormed ok : σ → α → Prop}
    {inv good : σ → Prop}
    (sound : ∀ state, inv state → good state)
    (keep : ∀ state label, inv state → wellFormed state label → ok state label →
      inv (step state label))
    (detect : ∀ state label, inv state → wellFormed state label →
      good (step state label) → ok state label)
    {state : σ} (initial : inv state) {labels : List α}
    (formed : EveryStep step wellFormed state labels) :
    Always step good state labels ↔ EveryStep step ok state labels := by
  induction labels generalizing state with
  | nil =>
      refine ⟨fun _ => trivial, fun _ visited isPrefix => ?_⟩
      rw [List.prefix_nil.mp isPrefix]
      exact sound state initial
  | cons label labels ih =>
      rw [always_cons, everyStep_cons]
      have next : good (step state label) → ok state label :=
        detect state label initial formed.1
      constructor
      · rintro ⟨_, later⟩
        have met := next (later [] List.nil_prefix)
        exact ⟨met, (ih (keep state label initial formed.1 met) formed.2).mp later⟩
      · rintro ⟨met, steps⟩
        exact ⟨sound state initial,
          (ih (keep state label initial formed.1 met) formed.2).mpr steps⟩

end LabelledRun
