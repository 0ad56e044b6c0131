import Ndse.Library.FlatCode

/-!
# Assertions on flat code

An outline of some code has an assertion for each byte position.  Every
instruction leads from the assertion where it starts to the assertion where
execution goes on, which is at an instruction of the code or right behind it, and
may only be executed in states where it is allowed.  Outlines of two pieces of
code make an outline of the pieces put together, and what an outline says holds
along every run.
-/

namespace FlatCode

open Relation

variable {Instr State : Type*} (isa : Isa Instr State) (allowed : Instr → State → Prop)

/-- An instruction of some code starts at a position, or the code ends there. -/
def Boundary (code : List Instr) (position : Nat) : Prop :=
  ∃ front rest, code = front ++ rest ∧ codeSize isa front = position

/-- From an instruction that starts in a state, execution goes on where the
assertion of the place then holds. -/
def LeadsTo (code : List Instr) (assertion : Nat → State → Prop) (position : Nat) (instr : Instr)
    (state : State) : Prop :=
  ∀ next displacement, isa.exec instr state = some (next, displacement) →
    ∃ target : Nat, (target : Int) = position + isa.size instr + displacement ∧
      Boundary isa code target ∧ assertion target next

/-- Assertions at the positions of some code, from `pre` at its start to `post`
at its end. -/
structure Outline (code : List Instr) (pre post : State → Prop) (assertion : Nat → State → Prop) :
    Prop where
  start : ∀ state, pre state → assertion 0 state
  finish : ∀ state, assertion (codeSize isa code) state ↔ post state
  steps : ∀ position instr, fetch isa code position = some instr → ∀ state,
    assertion position state →
      allowed instr state ∧ LeadsTo isa code assertion position instr state

/-- Some code has an outline. -/
def Asserts (code : List Instr) (pre post : State → Prop) : Prop :=
  ∃ assertion, Outline isa allowed code pre post assertion

variable {isa allowed} {pre mid post : State → Prop}

theorem boundary_zero (code : List Instr) : Boundary isa code 0 := ⟨[], code, rfl, rfl⟩

theorem boundary_codeSize (code : List Instr) : Boundary isa code (codeSize isa code) :=
  ⟨code, [], (List.append_nil code).symm, rfl⟩

theorem Boundary.le {code : List Instr} {position : Nat} (boundary : Boundary isa code position) :
    position ≤ codeSize isa code := by
  obtain ⟨front, rest, rfl, rfl⟩ := boundary
  rw [codeSize_append]
  exact Nat.le_add_right _ _

theorem Boundary.append_left {code : List Instr} {position : Nat}
    (boundary : Boundary isa code position) (rest : List Instr) :
    Boundary isa (code ++ rest) position := by
  obtain ⟨front, behind, rfl, rfl⟩ := boundary
  exact ⟨front, behind ++ rest, List.append_assoc _ _ _, rfl⟩

theorem Boundary.append_right {code : List Instr} {position : Nat}
    (boundary : Boundary isa code position) (front : List Instr) :
    Boundary isa (front ++ code) (codeSize isa front + position) := by
  obtain ⟨before, behind, rfl, rfl⟩ := boundary
  exact ⟨front ++ before, behind, (List.append_assoc _ _ _).symm, codeSize_append isa _ _⟩

theorem asserts_nil (implies : ∀ state, pre state → post state) : Asserts isa allowed [] pre post :=
  ⟨fun _ => post, implies, fun _ => Iff.rfl, fun _ _ found => by simp [fetch] at found⟩

/-- Assertions of a first piece of code, and behind it those of a second. -/
def joinAt (bound : Nat) (first second : Nat → State → Prop) (position : Nat) (state : State) :
    Prop :=
  if position < bound then first position state else second (position - bound) state

theorem joinAt_left {bound position : Nat} (inside : position < bound)
    (first second : Nat → State → Prop) (state : State) :
    joinAt bound first second position state ↔ first position state := by
  rw [joinAt, if_pos inside]

theorem joinAt_right (bound behind : Nat) (first second : Nat → State → Prop) (state : State) :
    joinAt bound first second (bound + behind) state ↔ second behind state := by
  rw [joinAt, if_neg (by omega), Nat.add_sub_cancel_left]

/-- Where the pieces meet, the assertion is that of the second. -/
theorem joinAt_of_le {bound position : Nat} {first second : Nat → State → Prop} {state : State}
    (meet : first bound state → second 0 state) (inside : position ≤ bound)
    (holds : first position state) : joinAt bound first second position state := by
  obtain before | rfl := Nat.lt_or_eq_of_le inside
  · exact (joinAt_left before first second state).mpr holds
  · exact (joinAt_right position 0 first second state).mpr (meet holds)

/-- An instruction that goes on with the next one. -/
theorem asserts_single {instr : Instr}
    (straight : ∀ state, pre state → allowed instr state ∧
      ∀ next displacement, isa.exec instr state = some (next, displacement) →
        displacement = 0 ∧ post next) : Asserts isa allowed [instr] pre post := by
  have size : codeSize isa [instr] = isa.size instr + 0 := by simp
  have positive := isa.size_pos instr
  refine ⟨joinAt (isa.size instr) (fun _ => pre) fun _ => post, fun state holds => ?_,
    fun state => ?_, ?_⟩
  · exact (joinAt_left positive _ _ state).mpr holds
  · rw [size]
    exact joinAt_right _ 0 _ _ state
  · intro position found fetched state holds
    have inside := lt_codeSize_of_fetch isa fetched
    rw [fetch] at fetched
    split at fetched
    · next start =>
      obtain rfl := Option.some.inj fetched
      obtain ⟨may, goes⟩ := straight state ((joinAt_left (by omega) _ _ state).mp holds)
      refine ⟨may, fun next displacement executed => ?_⟩
      obtain ⟨rfl, holds⟩ := goes next displacement executed
      refine ⟨isa.size instr + 0, by omega, size ▸ boundary_codeSize [instr], ?_⟩
      exact (joinAt_right _ 0 _ _ next).mpr holds
    · rw [if_neg (by omega)] at fetched
      cases fetched

/-- The instruction at a position of code in two pieces is one of a piece. -/
theorem fetch_append {first second : List Instr} {position : Nat} {instr : Instr}
    (found : fetch isa (first ++ second) position = some instr) :
    position < codeSize isa first ∧ fetch isa first position = some instr ∨
      ∃ behind, position = codeSize isa first + behind ∧
        fetch isa second behind = some instr := by
  induction first generalizing position with
  | nil => exact .inr ⟨position, by simp, found⟩
  | cons head first ih =>
      have positive := isa.size_pos head
      rw [List.cons_append, fetch] at found
      rw [fetch, codeSize_cons]
      split at found
      · next start => exact .inl ⟨by omega, by rwa [if_pos start]⟩
      · next later =>
        rw [if_neg later]
        split at found
        · next beyond =>
          rw [if_pos beyond]
          obtain ⟨inside, here⟩ | ⟨behind, place, there⟩ := ih found
          · exact .inl ⟨by omega, here⟩
          · exact .inr ⟨behind, by omega, there⟩
        · simp at found

/-- Code behind other code keeps its outline. -/
theorem Outline.behind {code : List Instr} {assertion : Nat → State → Prop}
    (outline : Outline isa allowed code pre post assertion) (front : List Instr)
    (first : Nat → State → Prop) {behind : Nat} {instr : Instr}
    (found : fetch isa code behind = some instr) {state : State}
    (holds : joinAt (codeSize isa front) first assertion (codeSize isa front + behind) state) :
    allowed instr state ∧ LeadsTo isa (front ++ code)
      (joinAt (codeSize isa front) first assertion) (codeSize isa front + behind) instr state := by
  obtain ⟨may, leads⟩ := outline.steps behind instr found state
    ((joinAt_right _ _ _ _ state).mp holds)
  refine ⟨may, fun next displacement executed => ?_⟩
  obtain ⟨target, place, inside, holds⟩ := leads next displacement executed
  refine ⟨codeSize isa front + target, by omega, inside.append_right front, ?_⟩
  exact (joinAt_right _ _ _ _ next).mpr holds

/-- An instruction in code by itself is at its start. -/
theorem fetch_singleton {only instr : Instr} {position : Nat}
    (found : fetch isa [only] position = some instr) : position = 0 ∧ instr = only := by
  have bound := lt_codeSize_of_fetch isa found
  rw [fetch] at found
  split at found
  · next start => exact ⟨start, (Option.some.inj found).symm⟩
  · rw [codeSize_cons, codeSize_nil] at bound
    rw [if_neg (by omega)] at found
    cases found

/-- Where an instruction ends, the next one starts. -/
theorem fetch_split {code : List Instr} {position : Nat} {instr : Instr}
    (found : fetch isa code position = some instr) :
    instr ∈ code ∧ Boundary isa code (position + isa.size instr) := by
  induction code generalizing position with
  | nil => simp [fetch] at found
  | cons head code ih =>
      change fetch isa ([head] ++ code) position = some instr at found
      obtain ⟨_, here⟩ | ⟨behind, rfl, there⟩ := fetch_append found
      · obtain ⟨rfl, rfl⟩ := fetch_singleton here
        exact ⟨List.mem_cons_self, [instr], code, rfl, by simp⟩
      · obtain ⟨inside, boundary⟩ := ih there
        rw [Nat.add_assoc]
        exact ⟨List.mem_cons_of_mem head inside, boundary.append_right [head]⟩

theorem Asserts.append {first second : List Instr} (one : Asserts isa allowed first pre mid)
    (other : Asserts isa allowed second mid post) :
    Asserts isa allowed (first ++ second) pre post := by
  obtain ⟨assertion, outline⟩ := one
  obtain ⟨assertion', outline'⟩ := other
  have meet (state : State) (holds : assertion (codeSize isa first) state) : assertion' 0 state :=
    outline'.start state ((outline.finish state).mp holds)
  refine ⟨joinAt (codeSize isa first) assertion assertion', fun state holds => ?_,
    fun state => ?_, ?_⟩
  · exact joinAt_of_le (meet state) (Nat.zero_le _) (outline.start state holds)
  · rw [codeSize_append]
    exact (joinAt_right _ _ _ _ state).trans (outline'.finish state)
  · intro position instr found state holds
    obtain ⟨inside, here⟩ | ⟨behind, rfl, there⟩ := fetch_append found
    · obtain ⟨may, leads⟩ := outline.steps position instr here state
        ((joinAt_left inside _ _ state).mp holds)
      refine ⟨may, fun next displacement executed => ?_⟩
      obtain ⟨target, place, bound, holds⟩ := leads next displacement executed
      exact ⟨target, place, bound.append_left second, joinAt_of_le (meet next) bound.le holds⟩
    · exact outline'.behind first assertion there holds

theorem Asserts.cons {instr : Instr} {code : List Instr}
    (straight : ∀ state, pre state → allowed instr state ∧
      ∀ next displacement, isa.exec instr state = some (next, displacement) →
        displacement = 0 ∧ mid next) (rest : Asserts isa allowed code mid post) :
    Asserts isa allowed (instr :: code) pre post :=
  (asserts_single straight).append rest

/-- A jump over some code, which may go on at either end of it. -/
theorem Asserts.skip {jump : Instr} {code : List Instr}
    (jumps : ∀ state, mid state → allowed jump state ∧
      ∀ next displacement, isa.exec jump state = some (next, displacement) →
        (displacement = 0 ∨ displacement = codeSize isa code) ∧ mid next)
    (body : Asserts isa allowed code mid mid) : Asserts isa allowed (jump :: code) mid mid := by
  obtain ⟨assertion, outline⟩ := body
  have size : codeSize isa [jump] = isa.size jump := by simp
  have positive := isa.size_pos jump
  refine ⟨joinAt (codeSize isa [jump]) (fun _ => mid) assertion, fun state holds => ?_,
    fun state => ?_, ?_⟩
  · exact (joinAt_left (by omega) _ _ state).mpr holds
  · exact (joinAt_right _ _ _ _ state).trans (outline.finish state)
  · intro position instr found state holds
    rw [fetch] at found
    split at found
    · next start =>
      obtain rfl := Option.some.inj found
      obtain ⟨may, goes⟩ := jumps state ((joinAt_left (by omega) _ _ state).mp holds)
      refine ⟨may, fun next displacement executed => ?_⟩
      obtain ⟨rfl | rfl, holds⟩ := goes next displacement executed
      · refine ⟨codeSize isa [jump] + 0, by omega, (boundary_zero code).append_right [jump], ?_⟩
        exact (joinAt_right _ _ _ _ next).mpr (outline.start next holds)
      · refine ⟨codeSize isa [jump] + codeSize isa code, by omega,
          (boundary_codeSize code).append_right [jump], ?_⟩
        exact (joinAt_right _ _ _ _ next).mpr ((outline.finish next).mpr holds)
    · next later =>
      split at found
      · next beyond =>
        obtain ⟨behind, rfl⟩ := Nat.exists_eq_add_of_le beyond
        rw [Nat.add_sub_cancel_left] at found
        rw [← size] at holds ⊢
        exact outline.behind [jump] (fun _ => mid) found holds
      · cases found

/-- One assertion for all of some code. -/
theorem asserts_invariant {code : List Instr}
    (keeps : ∀ position instr, fetch isa code position = some instr → ∀ state, mid state →
      allowed instr state ∧
        LeadsTo isa code (fun _ => mid) position instr state) :
    Asserts isa allowed code mid mid :=
  ⟨fun _ => mid, fun _ holds => holds, fun _ => Iff.rfl, keeps⟩

/-- What an outline says holds wherever a run comes. -/
theorem Outline.reaches {code : List Instr} {assertion : Nat → State → Prop}
    (outline : Outline isa allowed code pre post assertion) {state : State} (holds : pre state)
    {config : Nat × State} (run : Reaches isa code (0, state) config) :
    Boundary isa code config.1 ∧ assertion config.1 config.2 := by
  induction run with
  | refl => exact ⟨boundary_zero code, outline.start state holds⟩
  | @tail before after _ stepped ih =>
      rw [step] at stepped
      cases found : fetch isa code before.1 with
      | none => simp [found] at stepped
      | some instr =>
          have leads := (outline.steps before.1 instr found before.2 ih.2).2
          cases executed : isa.exec instr before.2 with
          | none => simp [found, executed] at stepped
          | some result =>
              obtain ⟨target, place, bound, holds⟩ := leads result.1 result.2 executed
              simp only [found, executed] at stepped
              rw [← place, if_pos (Int.natCast_nonneg target), Int.toNat_natCast] at stepped
              obtain rfl := Option.some.inj stepped
              exact ⟨bound, holds⟩

/-- A run stays inside the code, executes instructions only where they are
allowed, and ends as it should. -/
theorem Asserts.reaches {code : List Instr} (asserts : Asserts isa allowed code pre post)
    {state next : State} {position : Nat} (holds : pre state)
    (run : Reaches isa code (0, state) (position, next)) :
    Boundary isa code position ∧ (position = codeSize isa code → post next) ∧
      ∀ instr, fetch isa code position = some instr → allowed instr next := by
  obtain ⟨assertion, outline⟩ := asserts
  obtain ⟨bound, reached⟩ := outline.reaches holds run
  refine ⟨bound, ?_, fun instr found => (outline.steps position instr found next reached).1⟩
  rintro rfl
  exact (outline.finish next).mp reached

end FlatCode
