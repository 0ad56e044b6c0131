import Mathlib.Data.BitVec
import Mathlib.Logic.Function.Basic

/-!
# Queues in a ring with free-running positions

A queue of at most `2 ^ k` items is kept in a ring of `2 ^ k` slots.  The
positions of the next item to read and of the next slot to write are words of
`w` bits that are only ever incremented: they wrap around at `2 ^ w`, and their
low `k` bits name a slot.  This file relates such a ring to the list of the
items it holds.
-/

namespace RingQueue

variable {k w : Nat} {α : Type*}

/-- The slot of a position. -/
def slot (k : Nat) (position : BitVec w) : BitVec k := position.setWidth k

/-- The ring holds `items`, the oldest of them at `readpos`. -/
structure Outstanding (readpos writepos : BitVec w) (queue : BitVec k → α) (items : List α) :
    Prop where
  fits : items.length ≤ 2 ^ k
  count : writepos = readpos + BitVec.ofNat w items.length
  stored : ∀ i item, items[i]? = some item → queue (slot k (readpos + BitVec.ofNat w i)) = item

theorem slot_add_ofNat (narrow : k ≤ w) (position : BitVec w) (i : Nat) :
    slot k (position + BitVec.ofNat w i) = slot k position + BitVec.ofNat k i := by
  rw [slot, slot, BitVec.setWidth_add _ _ narrow, BitVec.setWidth_ofNat_of_le narrow]

/-- Within a turn of the ring different positions have different slots. -/
theorem slot_add_ne (narrow : k ≤ w) (position : BitVec w) {i j : Nat}
    (before : i < j) (inside : j < 2 ^ k) :
    slot k (position + BitVec.ofNat w i) ≠ slot k (position + BitVec.ofNat w j) := by
  intro same
  rw [slot_add_ofNat narrow, slot_add_ofNat narrow] at same
  have indices := congrArg BitVec.toNat (add_left_cancel same)
  rw [BitVec.toNat_ofNat, BitVec.toNat_ofNat, Nat.mod_eq_of_lt (before.trans inside),
    Nat.mod_eq_of_lt inside] at indices
  exact before.ne indices

theorem outstanding_nil (position : BitVec w) (queue : BitVec k → α) :
    Outstanding position position queue [] where
  fits := by simp
  count := by simp
  stored := by simp

namespace Outstanding

variable {readpos writepos : BitVec w} {queue : BitVec k → α} {item : α} {items : List α}

theorem enqueue (holds : Outstanding readpos writepos queue items) (narrow : k ≤ w)
    (room : items.length < 2 ^ k) (item : α) :
    Outstanding readpos (writepos + 1) (Function.update queue (slot k writepos) item)
      (items ++ [item]) where
  fits := by
    rw [List.length_append, List.length_singleton]
    exact room
  count := by
    rw [holds.count, List.length_append, List.length_singleton, BitVec.ofNat_add, add_assoc]
    rfl
  stored := by
    intro i found located
    rw [holds.count]
    rcases lt_trichotomy i items.length with old | rfl | beyond
    · rw [List.getElem?_append_left old] at located
      rw [Function.update_of_ne (slot_add_ne narrow readpos old room)]
      exact holds.stored i found located
    · rw [List.getElem?_concat_length, Option.some_inj] at located
      rw [Function.update_self, located]
    · have outside : (items ++ [item])[i]? = none := by
        apply List.getElem?_eq_none
        rw [List.length_append, List.length_singleton]
        exact beyond
      simp [outside] at located

theorem front (holds : Outstanding readpos writepos queue (item :: items)) :
    queue (slot k readpos) = item := by
  simpa using holds.stored 0 item rfl

theorem dequeue (holds : Outstanding readpos writepos queue (item :: items)) :
    Outstanding (readpos + 1) writepos queue items where
  fits := (Nat.le_succ _).trans holds.fits
  count := by
    rw [holds.count, List.length_cons, Nat.add_comm, BitVec.ofNat_add, add_assoc]
    rfl
  stored := by
    intro i found located
    have next := holds.stored (i + 1) found (by simpa using located)
    rw [Nat.add_comm, BitVec.ofNat_add, ← add_assoc] at next
    exact next

theorem toNat_sub (holds : Outstanding readpos writepos queue items) (narrow : k < w) :
    (writepos - readpos).toNat = items.length := by
  have small : items.length < 2 ^ w :=
    holds.fits.trans_lt (Nat.pow_lt_pow_right (by decide) narrow)
  rw [holds.count, add_sub_cancel_left, BitVec.toNat_ofNat, Nat.mod_eq_of_lt small]

theorem eq_iff_nil (holds : Outstanding readpos writepos queue items) (narrow : k < w) :
    writepos = readpos ↔ items = [] := by
  rw [← sub_eq_zero, ← BitVec.toNat_inj, holds.toNat_sub narrow]
  simp

end Outstanding

end RingQueue
