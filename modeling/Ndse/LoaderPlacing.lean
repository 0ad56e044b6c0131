import Ndse.GuestPlaces
import Ndse.Loader
import Mathlib.Data.Nat.Count

/-!
# Where the bytes of a file go

A page that is not there is left out, but the file stays where it is: what
belongs to the page is read into the next one.
-/

namespace Ndse

namespace GuestMemory

/-- How many of the first bytes from an address on are on pages that are not
there. -/
def skipped (memory : GuestMemory) (cpu : Cpu) (addr : BitVec 32) (count : Nat) : Nat :=
  Nat.count (fun k => ¬memory.PageValid cpu (addr + BitVec.ofNat 32 k)) count

/-- The bytes from an address on that are there are different ones. -/
def Distinct (memory : GuestMemory) (cpu : Cpu) (addr : BitVec 32) (len : Nat) : Prop :=
  ∀ j < len, ∀ k < len, memory.PageValid cpu (addr + BitVec.ofNat 32 j) →
    memory.PageValid cpu (addr + BitVec.ofNat 32 k) →
      memory.place cpu (addr + BitVec.ofNat 32 j) = memory.place cpu (addr + BitVec.ofNat 32 k) →
        j = k

set_option synthInstance.maxSize 400 in
instance (memory : GuestMemory) (cpu : Cpu) (addr : BitVec 32) (len : Nat) :
    Decidable (memory.Distinct cpu addr len) :=
  inferInstanceAs (Decidable (∀ j < len, ∀ k < len, _ → _ → _ = _ → j = k))

/-- `after` has the bytes of a file from an address on, as far as they are not
skipped; `rest` is what is left of the file. -/
structure Stores (memory after : GuestMemory) (cpu : Cpu) (addr : BitVec 32) (len : Nat)
    (file rest : List (BitVec 8)) : Prop where
  same : SameProtection memory after
  left : rest = file.drop (len - memory.skipped cpu addr len)
  stored : ∀ k < len, memory.PageValid cpu (addr + BitVec.ofNat 32 k) →
    file[k - memory.skipped cpu addr k]? = some (after.byteAt cpu (addr + BitVec.ofNat 32 k))
  kept : ∀ block offset,
    (∀ k < len, memory.PageValid cpu (addr + BitVec.ofNat 32 k) →
      memory.place cpu (addr + BitVec.ofNat 32 k) ≠ (block, offset)) →
    (after.blocks block).mem offset = (memory.blocks block).mem offset
  dirty : ∀ k < len, memory.PageValid cpu (addr + BitVec.ofNat 32 k) →
    after.PageDirty (memory.addr2page cpu (addr + BitVec.ofNat 32 k))
  marked : ∀ block, after.blocks block = memory.blocks block ∨ after.PageDirty block

variable {memory middle after : GuestMemory} {cpu : Cpu} {addr : BitVec 32}
variable {len more : Nat} {file rest final : List (BitVec 8)}

theorem SameProtection.skipped (same : SameProtection memory after) (cpu : Cpu)
    (addr : BitVec 32) (count : Nat) :
    after.skipped cpu addr count = memory.skipped cpu addr count := by
  simp only [GuestMemory.skipped, same.pageValid_iff]

theorem skipped_le (memory : GuestMemory) (cpu : Cpu) (addr : BitVec 32) (count : Nat) :
    memory.skipped cpu addr count ≤ count :=
  Nat.count_le _

theorem skipped_add (memory : GuestMemory) (cpu : Cpu) (addr : BitVec 32) (count more : Nat) :
    memory.skipped cpu addr (count + more) =
      memory.skipped cpu addr count +
        memory.skipped cpu (addr + BitVec.ofNat 32 count) more := by
  simp only [skipped, Nat.count_add, BitVec.ofNat_add, ← BitVec.add_assoc]

/-! ### One page -/

/-- A whole page is skipped or none of it. -/
theorem skipped_within (memory : GuestMemory) (cpu : Cpu) (addr : BitVec 32) (count : Nat)
    (within : addr.toNat % 512 + count ≤ 512) :
    memory.skipped cpu addr count = if memory.PageValid cpu addr then 0 else count := by
  induction count with
  | zero => split <;> rfl
  | succ count ih =>
      have valid := pageValid_within memory cpu addr count (by omega)
      rw [skipped] at ih ⊢
      rw [Nat.count_succ, ih (by omega)]
      by_cases there : memory.PageValid cpu addr
      · rw [if_pos there, if_pos there, if_neg (not_not.mpr (valid.mpr there))]
      · rw [if_neg there, if_neg there, if_pos (mt valid.mp there)]

/-- A stream functor on some bytes of a page. -/
theorem streamProcess_stores (memory : GuestMemory) (cpu : Cpu) (addr : BitVec 32) (len : Nat)
    (file : List (BitVec 8)) (within : addr.toNat % 512 + len ≤ 512) (enough : len ≤ file.length) :
    Stores memory
      (memory.streamProcess (memory.addr2page cpu addr) (pageOffset addr 0) len file).1 cpu addr len
      file (memory.streamProcess (memory.addr2page cpu addr) (pageOffset addr 0) len file).2 := by
  by_cases there : memory.PageValid cpu addr
  · rw [streamProcess, if_neg there]
    have start : ∀ k < len, memory.place cpu (addr + BitVec.ofNat 32 k) =
        (memory.addr2page cpu addr, pageOffset addr 0 + BitVec.ofNat 9 k) := by
      intro k inside
      rw [place, addr2page_within memory cpu k (by omega), pageOffset_within k (by omega)]
    have taken : (file.take len).length = len := List.length_take_of_le enough
    have one (offset : BitVec 9) := modify_poke_dirty memory (memory.addr2page cpu addr) offset
      (file.take len)
    have same : SameProtection memory (memory.modify (memory.addr2page cpu addr) fun block =>
        (block.poke (pageOffset addr 0) (file.take len)).dirty) := by
      rw [one]
      exact (sameProtection_poke _ _ _ _).trans (sameButDirty_dirty _ _).toSameProtection
    exact {
      same := same
      left := by rw [skipped_within memory cpu addr len within, if_pos there, Nat.sub_zero]
      stored := by
        intro k inside valid
        have before := skipped_within memory cpu addr k (by omega)
        have written := BlockState.pokeBytes_inside
          (memory.blocks (memory.addr2page cpu addr)).mem (pageOffset addr 0) (file.take len)
          (by omega) (taken.symm ▸ inside)
        rw [if_pos there] at before
        rw [before, Nat.sub_zero, byteAt, same.place, start k inside, modify_blocks, if_pos rfl,
          List.getElem?_eq_getElem (inside.trans_le enough)]
        exact congrArg some ((List.getElem_take ..).symm.trans written.symm)
      kept := by
        intro block offset apart
        rw [modify_blocks]
        split
        · next here =>
          rw [here]
          apply BlockState.pokeBytes_of_outside
          intro k inside
          rw [taken] at inside
          have other := apart k inside ((pageValid_within memory cpu addr k (by omega)).mpr there)
          rw [start k inside, here] at other
          exact fun equal => other (congrArg (Prod.mk _) equal)
        · rfl
      dirty := by
        intro k inside valid
        rw [one, addr2page_within memory cpu k (by omega)]
        exact pageDirty_dirty _ _
      marked := by
        intro block
        by_cases here : block = memory.addr2page cpu addr
        · rw [one, here]
          exact Or.inr (pageDirty_dirty _ _)
        · rw [modify_blocks, if_neg here]
          exact Or.inl rfl }
  · rw [streamProcess, if_pos (not_not.mp there)]
    have absent : ∀ k < len, ¬memory.PageValid cpu (addr + BitVec.ofNat 32 k) := by
      intro k inside valid
      exact there ((pageValid_within memory cpu addr k (by omega)).mp valid)
    exact {
      same := ⟨rfl, fun _ => rfl⟩
      left := by
        rw [skipped_within memory cpu addr len within, if_neg there, Nat.sub_self, List.drop_zero]
      stored := fun k inside valid => absurd valid (absent k inside)
      kept := fun _ _ _ => rfl
      dirty := fun k inside valid => absurd valid (absent k inside)
      marked := fun _ => Or.inl rfl }

/-! ### One after another -/

theorem Distinct.tail (distinct : memory.Distinct cpu addr (len + more)) :
    memory.Distinct cpu (addr + BitVec.ofNat 32 len) more := by
  intro j first k second
  simp only [BitVec.add_assoc, ← BitVec.ofNat_add]
  intro validJ validK same
  have equal := distinct (len + j) (by omega) (len + k) (by omega) validJ validK same
  omega

theorem Stores.keepsDirty (stores : Stores memory after cpu addr len file rest)
    {block : MemoryBlock PhysRegion} (dirty : memory.PageDirty block) : after.PageDirty block := by
  cases stores.marked block with
  | inl unchanged =>
      rw [PageDirty, unchanged]
      exact dirty
  | inr marked => exact marked

/-- What was stored first stays. -/
theorem Stores.keeps (two : Stores middle after cpu (addr + BitVec.ofNat 32 len) more rest final)
    (same : SameProtection memory middle) (distinct : memory.Distinct cpu addr (len + more))
    {k : Nat} (before : k < len) (valid : memory.PageValid cpu (addr + BitVec.ofNat 32 k)) :
    after.byteAt cpu (addr + BitVec.ofNat 32 k) = middle.byteAt cpu (addr + BitVec.ofNat 32 k) := by
  rw [byteAt, byteAt, two.same.place]
  apply two.kept
  intro j inside
  rw [same.pageValid_iff, same.place, same.place, BitVec.add_assoc, ← BitVec.ofNat_add]
  intro later equal
  have index := distinct (len + j) (by omega) k (by omega) later valid equal
  omega

theorem Stores.append (one : Stores memory middle cpu addr len file rest)
    (two : Stores middle after cpu (addr + BitVec.ofNat 32 len) more rest final)
    (distinct : memory.Distinct cpu addr (len + more)) :
    Stores memory after cpu addr (len + more) file final where
  same := one.same.trans two.same
  left := by
    have first := skipped_le memory cpu addr len
    have second := skipped_le memory cpu (addr + BitVec.ofNat 32 len) more
    rw [two.left, one.left, one.same.skipped, List.drop_drop, skipped_add]
    congr 1
    omega
  stored := by
    intro k inside valid
    by_cases before : k < len
    · rw [one.stored k before valid, two.keeps one.same distinct before valid]
    · obtain ⟨k, rfl⟩ := Nat.exists_eq_add_of_le (not_lt.mp before)
      rw [BitVec.ofNat_add, ← BitVec.add_assoc] at valid ⊢
      have found := two.stored k (by omega) ((one.same.pageValid_iff _ _).mpr valid)
      have first := skipped_le memory cpu addr len
      have second := skipped_le memory cpu (addr + BitVec.ofNat 32 len) k
      rw [one.left, List.getElem?_drop, one.same.skipped] at found
      rw [← found, skipped_add]
      congr 1
      omega
  kept := by
    intro block offset apart
    rw [two.kept block offset, one.kept block offset]
    · intro k inside
      exact apart k (by omega)
    · intro k inside
      rw [one.same.pageValid_iff, one.same.place, BitVec.add_assoc, ← BitVec.ofNat_add]
      exact apart (len + k) (by omega)
  dirty := by
    intro k inside valid
    by_cases before : k < len
    · exact two.keepsDirty (one.dirty k before valid)
    · obtain ⟨k, rfl⟩ := Nat.exists_eq_add_of_le (not_lt.mp before)
      rw [BitVec.ofNat_add, ← BitVec.add_assoc] at valid ⊢
      have page := two.dirty k (by omega) ((one.same.pageValid_iff _ _).mpr valid)
      rw [addr2page, one.same.map] at page
      exact page
  marked := by
    intro block
    cases one.marked block with
    | inl unchanged =>
        rw [← unchanged]
        exact two.marked block
    | inr marked => exact Or.inr (two.keepsDirty marked)

/-! ### A whole image -/

theorem stores_nothing (memory : GuestMemory) (cpu : Cpu) (addr : BitVec 32)
    (file : List (BitVec 8)) : Stores memory memory cpu addr 0 file file where
  same := ⟨rfl, fun _ => rfl⟩
  left := rfl
  stored := fun k inside => absurd inside (Nat.not_lt_zero k)
  kept := fun _ _ _ => rfl
  dirty := fun k inside => absurd inside (Nat.not_lt_zero k)
  marked := fun _ => Or.inl rfl

/-- The part of the file that is left has what the remaining bytes need. -/
theorem Stores.enough (stores : Stores memory after cpu addr len file rest)
    (enough : len + more ≤ file.length) : more ≤ rest.length := by
  rw [stores.left, List.length_drop]
  omega

theorem SameProtection.distinct (same : SameProtection memory after)
    (distinct : memory.Distinct cpu addr len) : after.Distinct cpu addr len := by
  intro j first k second
  rw [same.pageValid_iff, same.pageValid_iff, same.place, same.place]
  exact distinct j first k second

/-- A page and then the rest, which starts at the start of a page. -/
theorem Stores.followed {size : Nat} (one : Stores memory middle cpu addr size file rest)
    (short : size ≤ len) (distinct : memory.Distinct cpu addr len)
    (two : ∃ final, Stores middle after cpu (addr + BitVec.ofNat 32 size) (len - size) rest final) :
    ∃ final, Stores memory after cpu addr len file final := by
  obtain ⟨more, rfl⟩ := Nat.exists_eq_add_of_le short
  rw [Nat.add_sub_cancel_left] at two
  obtain ⟨final, two⟩ := two
  exact ⟨final, one.append two distinct⟩

theorem Distinct.behind {size : Nat} (distinct : memory.Distinct cpu addr len)
    (short : size ≤ len) :
    memory.Distinct cpu (addr + BitVec.ofNat 32 size) (len - size) := by
  obtain ⟨more, rfl⟩ := Nat.exists_eq_add_of_le short
  rw [Nat.add_sub_cancel_left]
  exact distinct.tail

/-- The followup pages, from the start of a page on. -/
theorem streamPages_stores (cpu : Cpu) (len : Nat) {memory : GuestMemory} {addr : BitVec 32}
    {file : List (BitVec 8)} (aligned : len = 0 ∨ addr.toNat % 512 = 0)
    (enough : len ≤ file.length) (distinct : memory.Distinct cpu addr len) :
    ∃ rest, Stores memory (streamPages cpu memory addr len file) cpu addr len file rest := by
  induction len using Nat.strong_induction_on generalizing memory addr file with
  | _ len ih =>
      rw [streamPages]
      split
      · next nothing =>
        rw [nothing]
        exact ⟨file, stores_nothing memory cpu addr file⟩
      · next something =>
        have start := aligned.resolve_left something
        have offset : pageOffset addr 0 = 0 := by
          apply BitVec.eq_of_toNat_eq
          rw [pageOffset_zero, start]
          rfl
        have short := Nat.min_le_left len 512
        have one := streamProcess_stores memory cpu addr (min len 512) file (by omega)
          (by omega)
        rw [offset] at one
        refine one.followed short distinct (ih _ (by omega) ?_ (one.enough (by omega))
          (one.same.distinct (distinct.behind short)))
        rw [toNat_forward]
        omega

theorem processMemory_stores (memory : GuestMemory) (cpu : Cpu) (addr : BitVec 32) (len : Nat)
    (file : List (BitVec 8)) (enough : len ≤ file.length)
    (distinct : memory.Distinct cpu addr len) :
    ∃ rest, Stores memory (memory.processMemory cpu addr len file) cpu addr len file rest := by
  have offset := pageOffset_zero addr
  have short := Nat.min_le_left len (512 - (pageOffset addr 0).toNat)
  have one := streamProcess_stores memory cpu addr (min len (512 - (pageOffset addr 0).toNat)) file
    (by omega) (by omega)
  refine one.followed short distinct (streamPages_stores cpu _ ?_ (one.enough (by omega))
    (one.same.distinct (distinct.behind short)))
  rw [toNat_forward]
  omega

end GuestMemory

end Ndse
