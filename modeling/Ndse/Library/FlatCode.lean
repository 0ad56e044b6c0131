import Mathlib.Algebra.GroupWithZero.Nat
import Mathlib.Data.List.Basic
import Mathlib.Logic.Relation

/-!
# Flat machine code

A stream of instructions of different sizes, run from a byte position with
jumps relative to the end of the jumping instruction.  Code whose jumps stay
inside it can be placed before and behind other code, so that a stream emitted
piece by piece runs piece by piece.
-/

namespace FlatCode

open Relation

/-- How long instructions are and what they do: the state afterwards, and how
far they jump from their own end. -/
structure Isa (Instr State : Type*) where
  size : Instr → Nat
  size_pos : ∀ instr, 0 < size instr
  exec : Instr → State → Option (State × Int)

variable {Instr State : Type*} (isa : Isa Instr State)

/-- The bytes of some code. -/
def codeSize (code : List Instr) : Nat := (code.map isa.size).sum

@[simp]
theorem codeSize_nil : codeSize isa [] = 0 := rfl

@[simp]
theorem codeSize_cons (instr : Instr) (code : List Instr) :
    codeSize isa (instr :: code) = isa.size instr + codeSize isa code := rfl

@[simp]
theorem codeSize_append (first second : List Instr) :
    codeSize isa (first ++ second) = codeSize isa first + codeSize isa second := by
  simp [codeSize]

/-- The instruction that starts at a byte position. -/
def fetch : List Instr → Nat → Option Instr
  | [], _ => none
  | instr :: code, position =>
      if position = 0 then some instr
      else if isa.size instr ≤ position then fetch code (position - isa.size instr)
      else none

theorem lt_codeSize_of_fetch {code : List Instr} {position : Nat} {instr : Instr}
    (found : fetch isa code position = some instr) : position < codeSize isa code := by
  induction code generalizing position with
  | nil => simp [fetch] at found
  | cons head code ih =>
      have positive := isa.size_pos head
      rw [fetch] at found
      rw [codeSize_cons]
      split at found
      · omega
      · split at found
        · have inside := ih found
          omega
        · simp at found

theorem fetch_append_left {code : List Instr} {position : Nat} {instr : Instr}
    (found : fetch isa code position = some instr) (rest : List Instr) :
    fetch isa (code ++ rest) position = some instr := by
  induction code generalizing position with
  | nil => simp [fetch] at found
  | cons head code ih =>
      rw [fetch] at found
      rw [List.cons_append, fetch]
      split at found
      · next start => rw [if_pos start, found]
      · next later =>
        rw [if_neg later]
        split at found
        · next behind => rw [if_pos behind, ih found]
        · simp at found

theorem fetch_append_right (code rest : List Instr) (position : Nat) :
    fetch isa (code ++ rest) (codeSize isa code + position) = fetch isa rest position := by
  induction code with
  | nil => simp
  | cons head code ih =>
      have positive := isa.size_pos head
      rw [List.cons_append, fetch, codeSize_cons, if_neg (by omega), if_pos (by omega),
        show isa.size head + codeSize isa code + position - isa.size head =
          codeSize isa code + position by omega, ih]

theorem fetch_codeSize (code : List Instr) : fetch isa code (codeSize isa code) = none := by
  by_contra present
  obtain ⟨instr, found⟩ := Option.ne_none_iff_exists'.mp present
  exact absurd (lt_codeSize_of_fetch isa found) (Nat.lt_irrefl _)

/-! ### Running -/

/-- One step from a byte position. -/
def step (code : List Instr) (config : Nat × State) : Option (Nat × State) :=
  match fetch isa code config.1 with
  | none => none
  | some instr =>
      match isa.exec instr config.2 with
      | none => none
      | some (state, displacement) =>
          let target : Int := config.1 + isa.size instr + displacement
          if 0 ≤ target then some (target.toNat, state) else none

/-- Any number of steps. -/
def Reaches (code : List Instr) : Nat × State → Nat × State → Prop :=
  ReflTransGen fun before after => step isa code before = some after

/-- The code runs from its start to its end. -/
def Finishes (code : List Instr) (before after : State) : Prop :=
  Reaches isa code (0, before) (codeSize isa code, after)

theorem step_append_left {code : List Instr} {before after : Nat × State}
    (stepped : step isa code before = some after) (rest : List Instr) :
    step isa (code ++ rest) before = some after := by
  rw [step] at stepped ⊢
  cases found : fetch isa code before.1 with
  | none => simp [found] at stepped
  | some instr =>
      rw [fetch_append_left isa found]
      rwa [found] at stepped

theorem step_append_right (code : List Instr) {rest : List Instr} {position target : Nat}
    {before after : State} (stepped : step isa rest (position, before) = some (target, after)) :
    step isa (code ++ rest) (codeSize isa code + position, before) =
      some (codeSize isa code + target, after) := by
  simp only [step] at stepped ⊢
  rw [fetch_append_right]
  cases found : fetch isa rest position with
  | none => simp [found] at stepped
  | some instr =>
      cases done : isa.exec instr before with
      | none => simp [found, done] at stepped
      | some result =>
          obtain ⟨state, displacement⟩ := result
          simp only [found, done] at stepped ⊢
          by_cases inside : (0 : Int) ≤ position + isa.size instr + displacement
          · rw [if_pos inside, Option.some.injEq, Prod.mk.injEq] at stepped
            obtain ⟨place, rfl⟩ := stepped
            rw [if_pos (by omega), ← place]
            congr 2
            omega
          · rw [if_neg inside] at stepped
            simp at stepped

theorem Reaches.append_left {code : List Instr} {before after : Nat × State}
    (run : Reaches isa code before after) (rest : List Instr) :
    Reaches isa (code ++ rest) before after :=
  ReflTransGen.mono (fun _ _ stepped => step_append_left isa stepped rest) _ _ run

theorem Reaches.append_right (code : List Instr) {rest : List Instr} {before after : Nat × State}
    (run : Reaches isa rest before after) :
    Reaches isa (code ++ rest) (codeSize isa code + before.1, before.2)
      (codeSize isa code + after.1, after.2) := by
  induction run with
  | refl => exact ReflTransGen.refl
  | tail run stepped ih => exact ih.tail (step_append_right isa code stepped)

@[simp]
theorem finishes_nil (state : State) : Finishes isa [] state state := ReflTransGen.refl

/-- Code runs piece by piece. -/
theorem Finishes.append {first second : List Instr} {before middle after : State}
    (run : Finishes isa first before middle) (next : Finishes isa second middle after) :
    Finishes isa (first ++ second) before after := by
  have start := Reaches.append_left isa run second
  have finish := Reaches.append_right isa first next
  rw [Finishes, codeSize_append]
  exact start.trans finish

/-- An instruction that does not jump is followed by the code behind it. -/
theorem Finishes.cons {instr : Instr} {code : List Instr} {before middle after : State}
    (executed : isa.exec instr before = some (middle, 0)) (next : Finishes isa code middle after) :
    Finishes isa (instr :: code) before after := by
  have single : Finishes isa [instr] before middle := by
    apply ReflTransGen.single
    simp only [step, fetch, executed, if_true]
    rw [if_pos (by omega)]
    simp [codeSize]
  exact Finishes.append isa single next

/-- A jump over some code. -/
theorem Finishes.skip {jump : Instr} {code : List Instr} {before after : State}
    (executed : isa.exec jump before = some (after, (codeSize isa code : Int))) :
    Finishes isa (jump :: code) before after := by
  apply ReflTransGen.single
  simp only [step, fetch, executed, if_true]
  rw [if_pos (by omega), codeSize_cons]
  congr 2
  omega

/-- Where no step follows, two runs from the same place have come to the same
place. -/
theorem Reaches.unique {code : List Instr} {start first second : Nat × State}
    (run : Reaches isa code start first) (run' : Reaches isa code start second)
    (stuck : step isa code first = none) (stuck' : step isa code second = none) :
    first = second := by
  have stops {config next : Nat × State} (none : step isa code config = none)
      (further : Reaches isa code config next) : config = next := by
    obtain same | ⟨middle, stepped, _⟩ := ReflTransGen.cases_head further
    · exact same
    · exact absurd (none.symm.trans stepped) nofun
  obtain further | further := ReflTransGen.total_of_right_unique
    (fun _ _ _ one two => Option.some.inj (one.symm.trans two)) run run'
  · exact stops stuck further
  · exact (stops stuck' further).symm

theorem step_codeSize (code : List Instr) (state : State) :
    step isa code (codeSize isa code, state) = none := by
  rw [step, fetch_codeSize]

/-- Two runs of the same code from the same state end in the same state. -/
theorem Finishes.unique {code : List Instr} {before first second : State}
    (run : Finishes isa code before first) (other : Finishes isa code before second) :
    first = second :=
  congrArg Prod.snd
    (Reaches.unique isa run other (step_codeSize isa code first) (step_codeSize isa code second))

/-! ### Leaving the code -/

/-- The code arrives at an instruction that leaves it. -/
def Leaves (code : List Instr) (before : State) (instr : Instr) (after : State) : Prop :=
  ∃ position, Reaches isa code (0, before) (position, after) ∧
    fetch isa code position = some instr ∧ isa.exec instr after = none

theorem Leaves.head {instr : Instr} {state : State} (stuck : isa.exec instr state = none)
    (code : List Instr) : Leaves isa (instr :: code) state instr state :=
  ⟨0, ReflTransGen.refl, by rw [fetch, if_pos rfl], stuck⟩

/-- Code that runs through, in front of code that is left. -/
theorem Leaves.append {first second : List Instr} {before middle after : State} {instr : Instr}
    (run : Finishes isa first before middle) (next : Leaves isa second middle instr after) :
    Leaves isa (first ++ second) before instr after := by
  obtain ⟨position, reached, found, stuck⟩ := next
  refine ⟨codeSize isa first + position, ?_, ?_, stuck⟩
  · exact (Reaches.append_left isa run second).trans (Reaches.append_right isa first reached)
  · rwa [fetch_append_right]

/-- Code that is left does not come to the code behind it. -/
theorem Leaves.append_left {code : List Instr} {before after : State} {instr : Instr}
    (run : Leaves isa code before instr after) (rest : List Instr) :
    Leaves isa (code ++ rest) before instr after := by
  obtain ⟨position, reached, found, stuck⟩ := run
  exact ⟨position, Reaches.append_left isa reached rest, fetch_append_left isa found rest, stuck⟩

theorem step_of_exec_none {code : List Instr} {position : Nat} {instr : Instr} {state : State}
    (found : fetch isa code position = some instr) (stuck : isa.exec instr state = none) :
    step isa code (position, state) = none := by
  simp only [step, found, stuck]

/-- Two runs from the same state leave the code in the same state. -/
theorem Leaves.unique {code : List Instr} {before first second : State} {one other : Instr}
    (run : Leaves isa code before one first) (run' : Leaves isa code before other second) :
    first = second := by
  obtain ⟨position, reached, found, stuck⟩ := run
  obtain ⟨position', reached', found', stuck'⟩ := run'
  exact congrArg Prod.snd (Reaches.unique isa reached reached'
    (step_of_exec_none isa found stuck) (step_of_exec_none isa found' stuck'))

/-- Code that is left is not run through. -/
theorem Leaves.not_finishes {code : List Instr} {before left : State} {instr : Instr}
    (run : Leaves isa code before instr left) (after : State) :
    ¬Finishes isa code before after := by
  intro through
  obtain ⟨position, reached, found, stuck⟩ := run
  have same := Reaches.unique isa reached through (step_of_exec_none isa found stuck)
    (step_codeSize isa code after)
  exact Nat.ne_of_lt (lt_codeSize_of_fetch isa found) (congrArg Prod.fst same)

end FlatCode
