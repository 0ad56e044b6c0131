import Ndse.Library.LabelledRun
import Mathlib.Data.BitVec
import Mathlib.Logic.Function.Basic

/-!
# The stack of the guest's calls

The tracer keeps the return addresses of the guest in a ring of which entry 0 is
never written.  A return pops the entry it goes to, and every other branch pops
nothing.  As long as the ring does not wrap around it is a stack, except that
entry 0 matches the address 0 when the stack is empty.
-/

namespace Ndse

open LabelledRun

instance neZero_callstack : NeZero 1024 := ⟨by decide⟩

/-- `callstack_context` without `max_depth`, which nothing reads. -/
structure CallstackContext where
  ctr : BitVec 32
  stack : Fin 1024 → BitVec 32
  inside : ctr.toNat < 1024

namespace CallstackContext

/-- `MAX_DEPTH`. -/
def maxDepth : Nat := 1024

/-- `MAX_DEPTH_MASK`. -/
def maxDepthMask : BitVec 32 := 1023

theorem masked_lt (ctr : BitVec 32) : (ctr &&& maxDepthMask).toNat < 1024 := by
  rw [BitVec.toNat_and]
  exact Nat.lt_succ_of_le Nat.and_le_right

/-- `ctx.stack[ctx.ctr]`. -/
def current (ctx : CallstackContext) : BitVec 32 := ctx.stack ⟨ctx.ctr.toNat, ctx.inside⟩

/-- `callstack_tracer::push`. -/
def push (ctx : CallstackContext) (addr : BitVec 32) : CallstackContext where
  ctr := (ctx.ctr + 1) &&& maxDepthMask
  stack := Function.update ctx.stack ⟨_, masked_lt (ctx.ctr + 1)⟩ addr
  inside := masked_lt _

/-- `callstack_tracer::pop`. -/
def pop (ctx : CallstackContext) (addr : BitVec 32) : CallstackContext :=
  if ctx.current = addr then
    { ctx with ctr := (ctx.ctr - 1) &&& maxDepthMask, inside := masked_lt _ }
  else ctx

/-- The static context. -/
def zero : CallstackContext where
  ctr := 0
  stack := fun _ => 0
  inside := by decide

end CallstackContext

/-- A call of the tracer. -/
inductive CallstackOp
  | push (addr : BitVec 32)
  | pop (addr : BitVec 32)
deriving DecidableEq, Repr

/-- What a call does to the context. -/
def callstackStep (ctx : CallstackContext) : CallstackOp → CallstackContext
  | .push addr => ctx.push addr
  | .pop addr => ctx.pop addr

/-- What a call does to a stack, whose top is the last entry. -/
def stackStep (stack : List (BitVec 32)) : CallstackOp → List (BitVec 32)
  | .push addr => stack ++ [addr]
  | .pop addr => if stack.getLast? = some addr then stack.dropLast else stack

namespace CallstackContext

/-- `stack[1..ctr]` are the entries. -/
structure Holds (ctx : CallstackContext) (stack : List (BitVec 32)) : Prop where
  count : ctx.ctr.toNat = stack.length
  stored : ∀ i (inside : i < 1024), i ≠ 0 → i ≤ stack.length →
    stack[i - 1]? = some (ctx.stack ⟨i, inside⟩)

variable {ctx : CallstackContext} {stack : List (BitVec 32)}

theorem mask_of_lt {ctr : BitVec 32} (small : ctr.toNat < 1024) : ctr &&& maxDepthMask = ctr := by
  apply BitVec.eq_of_toNat_eq
  rw [BitVec.toNat_and, show maxDepthMask.toNat = 2 ^ 10 - 1 from rfl,
    Nat.and_two_pow_sub_one_eq_mod]
  exact Nat.mod_eq_of_lt small

theorem Holds.push_ctr (holds : ctx.Holds stack) (room : stack.length < 1023)
    (addr : BitVec 32) : (ctx.push addr).ctr.toNat = stack.length + 1 := by
  have count := holds.count
  have sum : (ctx.ctr + 1).toNat = stack.length + 1 := by
    rw [BitVec.toNat_add, count, show (1 : BitVec 32).toNat = 1 from rfl]
    omega
  change ((ctx.ctr + 1) &&& maxDepthMask).toNat = _
  rw [mask_of_lt (by omega), sum]

theorem Holds.push (holds : ctx.Holds stack) (room : stack.length < 1023) (addr : BitVec 32) :
    (ctx.push addr).Holds (stack ++ [addr]) where
  count := by
    rw [holds.push_ctr room, List.length_append]
    rfl
  stored := by
    intro i inside nonzero within
    have slot := holds.push_ctr room addr
    rw [List.length_append, List.length_singleton] at within
    by_cases top : i = stack.length + 1
    · subst top
      have place : (⟨stack.length + 1, inside⟩ : Fin 1024) =
          ⟨_, masked_lt (ctx.ctr + 1)⟩ := Fin.ext slot.symm
      change _ = some (Function.update ctx.stack _ addr _)
      rw [Nat.add_sub_cancel, List.getElem?_concat_length, place, Function.update_self]
    · have below : i ≤ stack.length := by omega
      have place : (⟨i, inside⟩ : Fin 1024) ≠ ⟨_, masked_lt (ctx.ctr + 1)⟩ := by
        intro same
        exact top ((congrArg Fin.val same).trans slot)
      change _ = some (Function.update ctx.stack _ addr _)
      rw [List.getElem?_append_left (by omega), Function.update_of_ne place]
      exact holds.stored i inside nonzero below

/-- The entry that `pop` compares with is the top, unless there is none. -/
theorem Holds.getLast (holds : ctx.Holds stack) (nonempty : stack ≠ []) :
    stack.getLast? = some ctx.current := by
  have positive := List.length_pos_of_ne_nil nonempty
  have top := holds.stored ctx.ctr.toNat ctx.inside
    (by rw [holds.count]; exact positive.ne') holds.count.le
  rw [List.getLast?_eq_getElem?, ← holds.count]
  exact top

theorem Holds.dropLast (holds : ctx.Holds stack) (nonempty : stack ≠ []) :
    Holds { ctx with ctr := (ctx.ctr - 1) &&& maxDepthMask, inside := masked_lt _ }
      stack.dropLast := by
  have positive := List.length_pos_of_ne_nil nonempty
  have count := holds.count
  have difference : (ctx.ctr - 1).toNat = stack.length - 1 := by
    rw [BitVec.toNat_sub_of_le, count]
    · rfl
    · rw [BitVec.le_def, count]
      exact positive
  have inside := ctx.inside
  constructor
  · change ((ctx.ctr - 1) &&& maxDepthMask).toNat = _
    rw [mask_of_lt (by omega), difference, List.length_dropLast]
  · intro i inside nonzero within
    rw [List.length_dropLast] at within
    rw [List.getElem?_dropLast, if_pos (by omega)]
    exact holds.stored i inside nonzero (by omega)

/-- A return to address 0 finds an entry to look at. -/
def PopsEntry (stack : List (BitVec 32)) (op : CallstackOp) : Prop :=
  op = .pop 0 → stack ≠ []

instance decidablePopsEntry (stack : List (BitVec 32)) (op : CallstackOp) :
    Decidable (PopsEntry stack op) :=
  inferInstanceAs (Decidable (_ → _))

/-- The ring and the stack after the same calls. -/
def tracedStep (both : CallstackContext × List (BitVec 32)) (op : CallstackOp) :
    CallstackContext × List (BitVec 32) :=
  (callstackStep both.1 op, stackStep both.2 op)

theorem foldl_tracedStep (ops : List CallstackOp)
    (both : CallstackContext × List (BitVec 32)) :
    ops.foldl tracedStep both = (ops.foldl callstackStep both.1, ops.foldl stackStep both.2) := by
  induction ops generalizing both with
  | nil => rfl
  | cons op ops ih => exact ih (tracedStep both op)

/-- Conditions on the stack alone do not see the ring. -/
theorem everyStep_tracedStep (ok : List (BitVec 32) → CallstackOp → Prop)
    (ops : List CallstackOp) (both : CallstackContext × List (BitVec 32)) :
    EveryStep tracedStep (fun both op => ok both.2 op) both ops ↔
      EveryStep stackStep ok both.2 ops := by
  induction ops generalizing both with
  | nil => exact Iff.rfl
  | cons op ops ih => exact and_congr_right fun _ => ih (tracedStep both op)

/-- What a run within the depth keeps: the ring holds the stack, and entry 0 is
as it was at first. -/
structure Refines (both : CallstackContext × List (BitVec 32)) : Prop where
  holds : both.1.Holds both.2
  sentinel : both.1.stack 0 = 0

theorem refines_zero : Refines (zero, []) where
  holds := {
    count := rfl
    stored := fun _ _ nonzero within => absurd (Nat.le_zero.mp within) nonzero }
  sentinel := rfl

theorem current_of_empty {both : CallstackContext × List (BitVec 32)} (refines : Refines both)
    (empty : both.2 = []) : both.1.current = 0 := by
  have count := refines.holds.count
  rw [empty] at count
  have bottom : (⟨both.1.ctr.toNat, both.1.inside⟩ : Fin 1024) = 0 := Fin.ext count
  rw [current, bottom, refines.sentinel]

theorem Refines.push {both : CallstackContext × List (BitVec 32)} (refines : Refines both)
    (addr : BitVec 32) (room : (stackStep both.2 (.push addr)).length ≤ maxDepth - 1) :
    Refines (tracedStep both (.push addr)) := by
  have fits : both.2.length < 1023 := by
    have length : (both.2 ++ [addr]).length ≤ 1023 := room
    rw [List.length_append] at length
    exact length
  refine ⟨refines.holds.push fits addr, ?_⟩
  have slot := refines.holds.push_ctr fits addr
  have above : (0 : Fin 1024) ≠ ⟨_, masked_lt (both.1.ctr + 1)⟩ := by
    intro same
    exact Nat.succ_ne_zero _ (slot.symm.trans (congrArg Fin.val same).symm)
  exact (Function.update_of_ne above _ _).trans refines.sentinel

theorem Refines.pop {both : CallstackContext × List (BitVec 32)} (refines : Refines both)
    (addr : BitVec 32) (pops : PopsEntry both.2 (.pop addr)) :
    Refines (tracedStep both (.pop addr)) := by
  obtain ⟨ctx, stack⟩ := both
  change Refines (ctx.pop addr, if stack.getLast? = some addr then stack.dropLast else stack)
  by_cases empty : stack = []
  · have other : ctx.current ≠ addr := by
      rintro rfl
      apply pops _ empty
      rw [current_of_empty refines empty]
    rw [CallstackContext.pop, if_neg other, empty]
    rw [empty] at refines
    exact refines
  · rw [CallstackContext.pop, refines.holds.getLast empty]
    by_cases top : ctx.current = addr
    · rw [if_pos top, if_pos (congrArg some top)]
      exact ⟨refines.holds.dropLast empty, refines.sentinel⟩
    · rw [if_neg top, if_neg (fun same => top (Option.some.inj same))]
      exact refines

/-- A pop of address 0 from the empty ring wraps the counter around. -/
theorem popsEntry_of_holds {both : CallstackContext × List (BitVec 32)}
    (refines : Refines both) (op : CallstackOp)
    (holds : (tracedStep both op).1.Holds (tracedStep both op).2) : PopsEntry both.2 op := by
  rintro rfl empty
  obtain ⟨ctx, stack⟩ := both
  have count := holds.count
  have bottom : ctx.ctr = 0 := by
    apply BitVec.eq_of_toNat_eq
    rw [refines.holds.count, show stack = [] from empty]
    rfl
  change (ctx.pop 0).ctr.toNat = (stackStep stack (.pop 0)).length at count
  rw [CallstackContext.pop, if_pos (current_of_empty refines empty),
    show stack = [] from empty] at count
  change ((ctx.ctr - 1) &&& maxDepthMask).toNat = 0 at count
  rw [bottom] at count
  exact absurd count (by decide)

/-- The tracer is a stack of at most `MAX_DEPTH - 1` entries in exactly the runs
that never pop the address 0 from the empty stack. -/
theorem callstack_holds_iff (ops : List CallstackOp)
    (bounded : Always stackStep (fun stack => stack.length ≤ maxDepth - 1) [] ops) :
    (∀ calls, calls <+: ops →
      (calls.foldl callstackStep zero).Holds (calls.foldl stackStep [])) ↔
      EveryStep stackStep PopsEntry [] ops := by
  have room := (everyStep_tracedStep
    (fun stack op => (stackStep stack op).length ≤ maxDepth - 1) ops (zero, [])).mpr
    (everyStep_of_always bounded)
  have refined : Always tracedStep (fun both => both.1.Holds both.2) (zero, []) ops ↔
      EveryStep tracedStep (fun both op => PopsEntry both.2 op) (zero, []) ops := by
    refine always_iff_everyStep (fun _ refines => refines.holds) ?_ ?_ refines_zero room
    · intro both op refines fits pops
      cases op with
      | push addr => exact refines.push addr fits
      | pop addr => exact refines.pop addr pops
    · intro both op refines _ holds
      exact popsEntry_of_holds refines op holds
  rw [← everyStep_tracedStep PopsEntry ops (zero, []), ← refined]
  refine forall₂_congr fun calls _ => ?_
  rw [foldl_tracedStep]

theorem callstack_holds_nested :
    Always stackStep (fun stack => stack.length ≤ maxDepth - 1) []
        [.push 8, .push 12, .pop 16, .pop 12, .pop 8, .pop 8] ∧
      ∀ calls, calls <+: [.push 8, .push 12, .pop 16, .pop 12, .pop 8, .pop 8] →
        (calls.foldl callstackStep zero).Holds (calls.foldl stackStep []) :=
  ⟨by decide, (callstack_holds_iff _ (by decide)).mpr (by decide)⟩

/-- A return to address 0 with no call before it leaves 1023 entries. -/
theorem callstack_pop_empty :
    Always stackStep (fun stack => stack.length ≤ maxDepth - 1) [] [.pop 0] ∧
      ¬ (([.pop 0].foldl callstackStep zero).Holds ([.pop 0].foldl stackStep [])) ∧
      ([.pop 0].foldl callstackStep zero).ctr = 1023 ∧ [.pop 0].foldl stackStep [] = [] := by
  refine ⟨by decide, fun holds => absurd holds.count ?_, ?_, rfl⟩
  · decide
  · decide

end CallstackContext

end Ndse
