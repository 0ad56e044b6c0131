import Ndse.MemoryAccess

/-!
# Words in guest memory

A transfer of several words stores each of them in a cell of its own, though
its addresses may go over the end of a page and of the address space.
-/

namespace Ndse

namespace GuestMemory

/-- The word from an address on. -/
def wordAt (memory : GuestMemory) (cpu : Cpu) (addr : BitVec 32) : BitVec 32 :=
  memory.byteAt cpu (addr + 3) ++ memory.byteAt cpu (addr + 2) ++ memory.byteAt cpu (addr + 1) ++
    memory.byteAt cpu addr

variable {memory : GuestMemory} {cpu : Cpu}

/-- The load of one word rotates it by the low bits of the address. -/
theorem load32_eq_wordAt {addr : BitVec 32} (ordinary : memory.Ordinary cpu addr)
    (ioLoad : BitVec 32 → BitVec 32) :
    memory.load32 cpu ioLoad addr =
      (memory.wordAt cpu (addr &&& ~~~3#32)).rotateRight (8 * (addr.toNat % 4)) := by
  have first : (addr &&& ~~~(3 : BitVec 32)) + 0 = addr &&& ~~~(3 : BitVec 32) :=
    BitVec.add_zero _
  rw [load32_eq ordinary, first]
  rfl

theorem toNat_wordAddr_mod (addr : BitVec 32) (i : Nat) : (wordAddr addr i).toNat % 4 = 0 := by
  have aligned := toNat_align addr
  rw [wordAddr, wordAfter, BitVec.toNat_add, aligned, BitVec.toNat_ofNat]
  omega

theorem align_of_mod {addr : BitVec 32} (aligned : addr.toNat % 4 = 0) :
    addr &&& ~~~3#32 = addr := by
  apply BitVec.eq_of_toNat_eq
  rw [toNat_align]
  omega

/-- The words of a transfer are loaded as they are. -/
theorem load32_aligned {addr : BitVec 32} (aligned : addr.toNat % 4 = 0)
    (ordinary : memory.Ordinary cpu addr) (ioLoad : BitVec 32 → BitVec 32) :
    memory.load32 cpu ioLoad addr = memory.wordAt cpu addr := by
  rw [load32_eq_wordAt ordinary, align_of_mod aligned, aligned, Nat.mul_zero, rotateRight_zero]

/-- A store does not see the low bits of its address. -/
theorem store32_align (addr value : BitVec 32) :
    memory.store32 cpu (addr &&& ~~~3#32) value = memory.store32 cpu addr value := by
  have offset : pageOffset (addr &&& ~~~3#32) 3 = pageOffset addr 3 := by
    rw [pageOffset, pageOffset, show (3 : BitVec 32) = 3#32 from rfl, BitVec.and_assoc,
      BitVec.and_self]
  simp only [store32, store, addr2page_align, offset]

/-! ### Storing words -/

/-- One store, byte by byte. -/
theorem mem_store32 {addr : BitVec 32} (ordinary : memory.Ordinary cpu addr) (value : BitVec 32)
    (page : MemoryBlock PhysRegion) (offset : BitVec 9) :
    ((memory.store32 cpu addr value).blocks page).mem offset =
      if SameCell .word (page, offset) (memory.place cpu addr) then
        value.extractLsb' (8 * (offset.toNat % 4)) 8
      else (memory.blocks page).mem offset := by
  have stored : memory.store32 cpu addr value = _ := storeWidth_eq ordinary value .word
  rw [stored, modify_blocks]
  by_cases same : page = memory.addr2page cpu addr
  · rw [if_pos same]
    refine (pokeBytes_cell _ value addr .word offset).trans ?_
    simp only [SameCell, place, same, true_and]
    rfl
  · rw [if_neg same, if_neg fun cell => same cell.1]

/-- The page tables are the same, and the flags but for the dirty ones. -/
theorem sameProtection_store32 {addr : BitVec 32} (ordinary : memory.Ordinary cpu addr)
    (value : BitVec 32) : SameProtection memory (memory.store32 cpu addr value) := by
  have stored : memory.store32 cpu addr value = _ := storeWidth_eq ordinary value .word
  rw [stored, modify_poke_dirty]
  exact (sameProtection_poke _ _ _ _).trans (sameButDirty_dirty _ _).toSameProtection

/-- Two of a few words in a row are in different cells. -/
theorem not_sameCell_wordAfter {word : BitVec 32} {i : Nat} (short : i + 1 < 128)
    {place : MemoryBlock PhysRegion × BitVec 9}
    (first : SameCell .word place (memory.place cpu word)) :
    ¬SameCell .word place (memory.place cpu (wordAfter (word + 4) i)) := by
  intro later
  have offset := first.2.symm.trans later.2
  have moved := toNat_forward word (4 * (i + 1))
  change (pageOffset word 0).toNat / 4 = (pageOffset (wordAfter (word + 4) i) 0).toNat / 4 at offset
  rw [← wordAfter_succ, pageOffset_zero, pageOffset_zero, wordAfter, moved] at offset
  omega

/-- Every byte outside of the words stays. -/
theorem storeWords_outside (data : List (BitVec 32)) {word : BitVec 32}
    (ordinary : ∀ i < data.length, memory.Ordinary cpu (wordAfter word i))
    {page : MemoryBlock PhysRegion} {offset : BitVec 9}
    (outside : ∀ i < data.length,
      ¬SameCell .word (page, offset) (memory.place cpu (wordAfter word i))) :
    ((storeWords cpu data memory word).blocks page).mem offset =
      (memory.blocks page).mem offset := by
  induction data generalizing memory word with
  | nil => rfl
  | cons value data ih =>
      have here : memory.Ordinary cpu word := by simpa using ordinary 0 (Nat.succ_pos _)
      have kept := sameProtection_store32 here value
      have apart := outside 0 (Nat.succ_pos _)
      rw [wordAfter_zero] at apart
      rw [storeWords, ih, mem_store32 here, if_neg apart]
      · intro i inside
        rw [← wordAfter_succ]
        exact ordinary_storeWidth value .word here (ordinary (i + 1) (Nat.succ_lt_succ inside))
      · intro i inside
        rw [← wordAfter_succ, kept.place]
        exact outside (i + 1) (Nat.succ_lt_succ inside)

/-- Every byte of a word is stored. -/
theorem storeWords_inside {data : List (BitVec 32)} (short : data.length ≤ 128) {word : BitVec 32}
    (ordinary : ∀ i < data.length, memory.Ordinary cpu (wordAfter word i))
    {page : MemoryBlock PhysRegion} {offset : BitVec 9} {i : Nat} (inside : i < data.length)
    (cell : SameCell .word (page, offset) (memory.place cpu (wordAfter word i))) :
    ((storeWords cpu data memory word).blocks page).mem offset =
      data[i].extractLsb' (8 * (offset.toNat % 4)) 8 := by
  induction data generalizing memory word i with
  | nil => simp at inside
  | cons value data ih =>
      have here : memory.Ordinary cpu word := by simpa using ordinary 0 (Nat.succ_pos _)
      have kept := sameProtection_store32 here value
      have rest : ∀ i < data.length,
          (memory.store32 cpu word value).Ordinary cpu (wordAfter (word + 4) i) := by
        intro i inside
        rw [← wordAfter_succ]
        exact ordinary_storeWidth value .word here (ordinary (i + 1) (Nat.succ_lt_succ inside))
      rw [List.length_cons] at short
      rw [storeWords]
      cases i with
      | zero =>
          rw [wordAfter_zero] at cell
          rw [storeWords_outside data rest, mem_store32 here, if_pos cell, List.getElem_cons_zero]
          intro i inside
          rw [kept.place]
          exact not_sameCell_wordAfter (by omega) cell
      | succ i =>
          rw [wordAfter_succ] at cell
          rw [ih (by omega) rest (Nat.lt_of_succ_lt_succ inside), List.getElem_cons_succ]
          rw [kept.place]
          exact cell

/-- The words are in their places, and every other byte is the same. -/
structure WordsStored (before after : GuestMemory) (cpu : Cpu) (addr : BitVec 32)
    (data : List (BitVec 32)) : Prop where
  words : ∀ i (inside : i < data.length), after.wordAt cpu (wordAddr addr i) = data[i]
  others : ∀ page offset,
    (∀ i < data.length, ¬SameCell .word (page, offset) (before.place cpu (wordAddr addr i))) →
      (after.blocks page).mem offset = (before.blocks page).mem offset

/-- The bytes of a word at an aligned address are in one cell. -/
theorem sameCell_add (memory : GuestMemory) (cpu : Cpu) {addr : BitVec 32}
    (aligned : addr.toNat % 4 = 0) {i : Nat} (inside : i < 4) :
    SameCell .word (memory.place cpu (addr + BitVec.ofNat 32 i)) (memory.place cpu addr) ∧
      (memory.place cpu (addr + BitVec.ofNat 32 i)).2.toNat % 4 = i := by
  have within : addr.toNat % 512 + i < 512 := by omega
  have moved := toNat_within i within
  have offset : (pageOffset (addr + BitVec.ofNat 32 i) 0).toNat = addr.toNat % 512 + i := by
    rw [pageOffset_zero, moved]
    omega
  refine ⟨⟨addr2page_within memory cpu i within, ?_⟩, ?_⟩
  · change (pageOffset _ 0).toNat / 4 = (pageOffset addr 0).toNat / 4
    rw [offset, pageOffset_zero]
    omega
  · change (pageOffset _ 0).toNat % 4 = i
    rw [offset]
    omega

/-- Memory with the bytes of single stores has the words. -/
theorem wordsStored_of_storeWords {after : GuestMemory} {addr : BitVec 32}
    {data : List (BitVec 32)} (short : data.length ≤ 128)
    (ordinary : ∀ i < data.length, memory.Ordinary cpu (wordAddr addr i))
    (map : after.map = memory.map)
    (mem : ∀ page, (after.blocks page).mem =
      ((storeWords cpu data memory (addr &&& ~~~3#32)).blocks page).mem) :
    WordsStored memory after cpu addr data where
  words := by
    intro i inside
    have aligned := toNat_wordAddr_mod addr i
    have stored (k : Nat) (low : k < 4) :
        after.byteAt cpu (wordAddr addr i + BitVec.ofNat 32 k) = data[i].extractLsb' (8 * k) 8 := by
      obtain ⟨cell, place⟩ := sameCell_add memory cpu aligned low
      have same : after.place cpu (wordAddr addr i + BitVec.ofNat 32 k) =
          memory.place cpu (wordAddr addr i + BitVec.ofNat 32 k) := by
        rw [GuestMemory.place, GuestMemory.place, addr2page, addr2page, map]
      rw [byteAt, same, mem]
      exact (storeWords_inside short ordinary inside cell).trans
        (congrArg (fun low => data[i].extractLsb' (8 * low) 8) place)
    have zero := stored 0 (by decide)
    rw [BitVec.add_zero] at zero
    rw [wordAt, zero]
    refine Eq.trans ?_ (BitFields.append_bytes data[i])
    exact congrArg₂ _ (congrArg₂ _ (congrArg₂ _ (stored 3 (by decide)) (stored 2 (by decide)))
      (stored 1 (by decide))) rfl
  others := by
    intro page offset outside
    rw [mem]
    exact storeWords_outside data ordinary outside

/-! ### Whole transfers -/

/-- The words of a transfer and the page behind them are ordinary memory. -/
structure OrdinaryWords (memory : GuestMemory) (cpu : Cpu) (addr : BitVec 32) (num : Nat) :
    Prop where
  words : ∀ i < num, memory.Ordinary cpu (wordAddr addr i)
  behind : memory.Ordinary cpu (wordAddr addr (num - 1) + 512)

/-- Behind the end of a page comes the page behind its last word. -/
theorem addr2page_behind {addr : BitVec 32} {num : Nat} (some : num ≠ 0)
    (ends : (wordAddr addr num).toNat % 512 = 0) :
    memory.addr2page cpu (wordAddr addr num) =
      memory.addr2page cpu (wordAddr addr (num - 1) + 512) := by
  obtain ⟨last, rfl⟩ := Nat.exists_eq_add_one_of_ne_zero some
  have aligned := toNat_wordAddr_mod addr last
  have next : wordAddr addr (last + 1) = wordAddr addr last + 4 := by
    rw [wordAddr, wordAddr, wordAfter_succ, wordAfter, wordAfter, BitVec.add_assoc,
      BitVec.add_comm 4, ← BitVec.add_assoc]
  have bound := (wordAddr addr last).isLt
  rw [next] at ends ⊢
  rw [Nat.add_sub_cancel]
  apply addr2page_congr
  have four : (wordAddr addr last + 4).toNat = ((wordAddr addr last).toNat + 4) % 2 ^ 32 :=
    BitVec.toNat_add _ _
  have page : (wordAddr addr last + 512).toNat = ((wordAddr addr last).toNat + 512) % 2 ^ 32 :=
    BitVec.toNat_add _ _
  omega

section OrdinaryWords

variable {addr : BitVec 32} {num : Nat} (ordinary : memory.OrdinaryWords cpu addr num)

include ordinary

theorem OrdinaryWords.accessible {bad : BitVec 32}
    (subset : (PageFlag.invalid ||| PageFlag.readProt ||| PageFlag.writeProt |||
      PageFlag.writeProt8 ||| PageFlag.accessHandler) &&& bad = bad) :
    memory.WordsAccessible cpu bad addr num :=
  fun i inside =>
    ⟨(ordinary.words i inside).not_has subset, (ordinary.words i inside).not_has (by decide)⟩

theorem OrdinaryWords.endsClear (some : num ≠ 0) {bad : BitVec 32}
    (subset : (PageFlag.invalid ||| PageFlag.readProt ||| PageFlag.writeProt |||
      PageFlag.writeProt8 ||| PageFlag.accessHandler) &&& bad = bad) :
    memory.EndsClear cpu bad addr num := by
  refine ⟨fun zero => absurd zero some, fun _ ends => ?_⟩
  rw [addr2page_behind some ends]
  exact ordinary.behind.not_has subset

end OrdinaryWords

theorem load32Array_ordinary {addr : BitVec 32} {data : List (BitVec 32)} (some : data ≠ [])
    (ordinary : memory.OrdinaryWords cpu addr data.length) :
    memory.load32Array cpu addr data =
      ((List.range data.length).map fun i => memory.wordAt cpu (wordAddr addr i), .done) := by
  have nonzero : data.length ≠ 0 := by simpa using some
  have loads : memory.load32Array cpu addr data = _ :=
    (memory.loadsLikeWords_iff cpu (fun _ => 0) addr data (ordinary.accessible (by decide))).mpr
      (ordinary.endsClear nonzero (by decide))
  rw [loads, loadWords]
  congr 1
  apply List.map_congr_left
  intro i inside
  exact load32_aligned (toNat_wordAddr_mod addr i) (ordinary.words i (List.mem_range.mp inside)) _

theorem map_transferArrayLoop (cpu : Cpu) (data : List (BitVec 32)) (memory : GuestMemory)
    (b : MemoryBlock PhysRegion) (addr : BitVec 32) (subaddr : Nat) :
    (transferArrayLoop cpu data memory b addr subaddr).1.map = memory.map := by
  induction data generalizing memory b addr subaddr with
  | nil => rfl
  | cons value data ih =>
      rw [transferArrayLoop]
      dsimp only
      split
      · split
        · rfl
        · exact ih _ _ _ _
      · exact ih _ _ _ _

theorem wordsStored_store32Array {addr : BitVec 32} {data : List (BitVec 32)} (some : data ≠ [])
    (short : data.length ≤ 128) (ordinary : memory.OrdinaryWords cpu addr data.length) :
    WordsStored memory (memory.store32Array cpu addr data) cpu addr data := by
  have nonzero : data.length ≠ 0 := by simpa using some
  have stores := (memory.storesLikeWords_iff cpu addr data (ordinary.accessible (by decide))).mpr
    (ordinary.endsClear nonzero (by decide))
  rw [← transferArray_fst]
  refine wordsStored_of_storeWords short ordinary.words ?_ stores.bytes
  rw [transferArray]
  split
  · rfl
  · split
    · rfl
    · exact map_transferArrayLoop _ _ _ _ _ _

theorem wordsStored_store32 {addr value : BitVec 32} (ordinary : memory.OrdinaryWords cpu addr 1) :
    WordsStored memory (memory.store32 cpu addr value) cpu addr [value] := by
  have here := ordinary.words 0 (by decide)
  refine wordsStored_of_storeWords (by simp) ordinary.words ?_ fun page => ?_
  · rw [← store32_align]
    rw [wordAddr, wordAfter_zero] at here
    exact (sameProtection_store32 here value).map
  · rw [storeWords, storeWords, store32_align]

/-! ### Arrays that are loaded back -/

theorem sameProtection_transferArrayLoop (cpu : Cpu) (data : List (BitVec 32))
    (memory : GuestMemory) (b : MemoryBlock PhysRegion) (addr : BitVec 32) (subaddr : Nat) :
    SameProtection memory (transferArrayLoop cpu data memory b addr subaddr).1 := by
  induction data generalizing memory b addr subaddr with
  | nil => exact (sameButDirty_dirty memory b).toSameProtection
  | cons value data ih =>
      have poked := sameProtection_poke memory b (BitVec.ofNat 9 subaddr) (wordBytes 4 value)
      have dirty (memory : GuestMemory) := (sameButDirty_dirty memory b).toSameProtection
      rw [transferArrayLoop]
      dsimp only
      split
      · split
        · exact poked.trans (dirty _)
        · exact (poked.trans (dirty _)).trans (ih _ _ _ _)
      · exact poked.trans (ih _ _ _ _)

theorem sameProtection_store32Array (memory : GuestMemory) (cpu : Cpu) (addr : BitVec 32)
    (data : List (BitVec 32)) : SameProtection memory (memory.store32Array cpu addr data) := by
  rw [← transferArray_fst, transferArray]
  split
  · exact ⟨rfl, fun _ => rfl⟩
  · split
    · exact ⟨rfl, fun _ => rfl⟩
    · exact sameProtection_transferArrayLoop _ _ _ _ _ _

/-- An array of words is loaded back as it was stored, over page ends and wherever the
pages lie, and the store changes no byte besides. -/
theorem load32Array_store32Array (memory : GuestMemory) (cpu : Cpu) (addr : BitVec 32)
    (data buffer : List (BitVec 32)) (some : data ≠ []) (short : data.length ≤ 128)
    (length : buffer.length = data.length)
    (ordinary : memory.OrdinaryWords cpu addr data.length) :
    (memory.store32Array cpu addr data).load32Array cpu addr buffer = (data, .done) ∧
      ∀ page offset,
        (∀ i < data.length,
          ¬SameCell .word (page, offset) (memory.place cpu (wordAddr addr i))) →
        ((memory.store32Array cpu addr data).blocks page).mem offset =
          (memory.blocks page).mem offset := by
  have stored := wordsStored_store32Array some short ordinary
  have same := sameProtection_store32Array memory cpu addr data
  have again : (memory.store32Array cpu addr data).OrdinaryWords cpu addr buffer.length := by
    rw [length]
    exact ⟨fun i inside => same.ordinary (ordinary.words i inside), same.ordinary ordinary.behind⟩
  have filled : buffer ≠ [] := by
    rintro rfl
    exact some (List.length_eq_zero_iff.mp length.symm)
  refine ⟨?_, stored.others⟩
  rw [load32Array_ordinary filled again, length]
  refine congrArg (·, AccessReport.done) (List.ext_getElem (by simp) fun i inside _ => ?_)
  rw [List.length_map, List.length_range] at inside
  rw [List.getElem_map, List.getElem_range, stored.words i inside]

/-- Three words over the end of the mirrored page. -/
theorem load32Array_store32Array_mirroredPage :
    (mirroredPage.store32Array .arm9 0x1FC [1, 2, 3]).load32Array .arm9 0x1FC [0, 0, 0] =
        ([1, 2, 3], .done) ∧
      ∀ page offset,
        (∀ i < [1, 2, 3].length,
          ¬SameCell .word (page, offset) (mirroredPage.place .arm9 (wordAddr 0x1FC i))) →
        ((mirroredPage.store32Array .arm9 0x1FC [1, 2, 3]).blocks page).mem offset =
          (mirroredPage.blocks page).mem offset :=
  load32Array_store32Array mirroredPage .arm9 0x1FC [1, 2, 3] [0, 0, 0] (by decide) (by decide)
    rfl ⟨by decide, by decide⟩

end GuestMemory

end Ndse
