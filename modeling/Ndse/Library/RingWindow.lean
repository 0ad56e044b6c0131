import Mathlib.Data.BitVec
import Mathlib.Logic.Function.Basic

/-!
# Windows in a ring

Items written one after another into a ring of `2 ^ k` slots overwrite the
oldest ones, so the ring is a window onto the last `2 ^ k` items ever written.
This file relates the ring and its next slot to the list of all items.
-/

namespace RingWindow

variable {k : Nat} {α : Type*}

/-- Up to `2 ^ k` items back the ring holds the history; `position` is the slot
of the next item. -/
def Holds (ring : BitVec k → α) (position : BitVec k) (history : List α) : Prop :=
  ∀ back item, back < 2 ^ k → history.reverse[back]? = some item →
    ring (position - BitVec.ofNat k back - 1) = item

theorem holds_nil (ring : BitVec k → α) (position : BitVec k) : Holds ring position [] := by
  intro back item _ found
  simp at found

/-- Within a turn of the ring an older item has a slot of its own. -/
theorem slot_ne (position : BitVec k) {back : Nat} (older : 0 < back) (inside : back < 2 ^ k) :
    position - BitVec.ofNat k back ≠ position := by
  intro same
  have zero : BitVec.ofNat k back = 0 := sub_eq_self.mp same
  have value := congrArg BitVec.toNat zero
  rw [BitVec.toNat_ofNat, Nat.mod_eq_of_lt inside] at value
  exact older.ne' value

variable {ring : BitVec k → α} {position : BitVec k} {history : List α}

theorem Holds.push (holds : Holds ring position history) (item : α) :
    Holds (Function.update ring position item) (position + 1) (history ++ [item]) := by
  intro back found inside located
  rw [List.reverse_append, List.reverse_singleton, List.singleton_append] at located
  cases back with
  | zero =>
      rw [List.getElem?_cons_zero, Option.some.injEq] at located
      rw [← located, BitVec.ofNat_eq_ofNat, BitVec.sub_zero, add_sub_cancel_right,
        Function.update_self]
  | succ back =>
      rw [List.getElem?_cons_succ] at located
      have shifted : position + 1 - BitVec.ofNat k (back + 1) - 1 =
          position - BitVec.ofNat k (back + 1) := by
        rw [sub_right_comm, add_sub_cancel_right]
      have older : position - BitVec.ofNat k (back + 1) =
          position - BitVec.ofNat k back - 1 := by
        rw [BitVec.ofNat_add, sub_add_eq_sub_sub]
        rfl
      rw [shifted, Function.update_of_ne (slot_ne position (Nat.succ_pos back) inside), older]
      exact holds back found (Nat.lt_of_succ_lt inside) located

end RingWindow
