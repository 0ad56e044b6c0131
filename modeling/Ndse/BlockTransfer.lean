import Ndse.GuestMemory
import Ndse.Library.ByteMemory

/-!
# Transfers of several words

`load32_array` and `store32_array` walk through the pages of a transfer and look
up the next page as soon as they have finished one.  They look it up even when no
word is left, so that a transfer that ends exactly at the end of a page reports
an invalid access when the page behind it is none.
-/

namespace Ndse

/-- What an access reports: an invalid address, or that the region's own
function was called in its place. -/
inductive AccessReport
  | done
  | invalid (addr : BitVec 32)
  | handler
deriving DecidableEq, Repr

namespace GuestMemory

abbrev readBad : BitVec 32 := PageFlag.invalid ||| PageFlag.readProt

abbrev writeBad : BitVec 32 := PageFlag.invalid ||| PageFlag.writeProt

/-- `HLE::load32`; `ioLoad` is what a region with an access handler returns. -/
def load32 (memory : GuestMemory) (cpu : Cpu) (ioLoad : BitVec 32 → BitVec 32)
    (addr : BitVec 32) : BitVec 32 :=
  let b := memory.addr2page cpu addr
  if (memory.blocks b).has PageFlag.accessHandler then ioLoad addr
  else (peekWord (memory.blocks b).mem (pageOffset addr 3) 4).rotateRight
    ((addr &&& 3).toNat * 8)

/-- The loop of `HLE::load32_array` over the words of `data`. -/
def loadArrayLoop (memory : GuestMemory) (cpu : Cpu) : List (BitVec 32) →
    MemoryBlock PhysRegion → (addr : BitVec 32) → (subaddr : Nat) →
      List (BitVec 32) × AccessReport
  | [], _, _, _ => ([], .done)
  | _ :: data, b, addr, subaddr =>
      let word := peekWord (memory.blocks b).mem (BitVec.ofNat 9 subaddr) 4
      if subaddr + 4 = 512 then
        let addr := addr + 512
        let b := memory.addr2page cpu addr
        if (memory.blocks b).has readBad then (word :: data, .invalid (addr &&& ~~~511#32))
        else
          let rest := loadArrayLoop memory cpu data b addr 0
          (word :: rest.1, rest.2)
      else
        let rest := loadArrayLoop memory cpu data b addr (subaddr + 4)
        (word :: rest.1, rest.2)

/-- `HLE::load32_array`: the words of `data` afterwards. -/
def load32Array (memory : GuestMemory) (cpu : Cpu) (addr : BitVec 32)
    (data : List (BitVec 32)) : List (BitVec 32) × AccessReport :=
  let addr := addr &&& ~~~3#32
  let b := memory.addr2page cpu addr
  if (memory.blocks b).has readBad then (data, .invalid addr)
  else if (memory.blocks b).has PageFlag.accessHandler then (data, .handler)
  else memory.loadArrayLoop cpu data b addr (pageOffset addr 0).toNat

/-- The loop of `HLE::store32_array` with what it reports. -/
def transferArrayLoop (cpu : Cpu) : List (BitVec 32) → GuestMemory → MemoryBlock PhysRegion →
    (addr : BitVec 32) → (subaddr : Nat) → GuestMemory × AccessReport
  | [], memory, b, _, _ => (memory.modify b BlockState.dirty, .done)
  | value :: data, memory, b, addr, subaddr =>
      let memory := memory.modify b (·.poke (BitVec.ofNat 9 subaddr) (wordBytes 4 value))
      if subaddr + 4 = 512 then
        let memory := memory.modify b BlockState.dirty
        let addr := addr + 512
        let b := memory.addr2page cpu addr
        if (memory.blocks b).has writeBad then (memory, .invalid (addr &&& ~~~511#32))
        else transferArrayLoop cpu data memory b addr 0
      else transferArrayLoop cpu data memory b addr (subaddr + 4)

/-- `HLE::store32_array` with what it reports. -/
def transferArray (memory : GuestMemory) (cpu : Cpu) (addr : BitVec 32)
    (data : List (BitVec 32)) : GuestMemory × AccessReport :=
  let b := memory.addr2page cpu addr
  if (memory.blocks b).has PageFlag.accessHandler then (memory, .handler)
  else if (memory.blocks b).has writeBad then (memory, .invalid addr)
  else transferArrayLoop cpu data memory b addr (pageOffset addr 3).toNat

theorem transferArrayLoop_fst (cpu : Cpu) (data : List (BitVec 32)) (memory : GuestMemory)
    (b : MemoryBlock PhysRegion) (addr : BitVec 32) (subaddr : Nat) :
    (transferArrayLoop cpu data memory b addr subaddr).1 =
      storeArrayLoop cpu data memory b addr subaddr := by
  induction data generalizing memory b addr subaddr with
  | nil => rfl
  | cons value data ih =>
      rw [transferArrayLoop, storeArrayLoop, ← writeBad]
      dsimp only
      split
      · split
        · rfl
        · exact ih _ _ _ _
      · exact ih _ _ _ _

theorem transferArray_fst (memory : GuestMemory) (cpu : Cpu) (addr : BitVec 32)
    (data : List (BitVec 32)) :
    (memory.transferArray cpu addr data).1 = memory.store32Array cpu addr data := by
  rw [transferArray, store32Array, ← writeBad]
  split
  · rfl
  · split
    · rfl
    · exact transferArrayLoop_fst _ _ _ _ _ _

/-! ### The words of a transfer -/

/-- The address some words behind another. -/
def wordAfter (word : BitVec 32) (i : Nat) : BitVec 32 := word + BitVec.ofNat 32 (4 * i)

/-- The address of a word of a transfer. -/
def wordAddr (addr : BitVec 32) (i : Nat) : BitVec 32 := wordAfter (addr &&& ~~~3#32) i

@[simp]
theorem wordAfter_zero (word : BitVec 32) : wordAfter word 0 = word := by simp [wordAfter]

theorem wordAfter_succ (word : BitVec 32) (i : Nat) :
    wordAfter word (i + 1) = wordAfter (word + 4) i := by
  rw [wordAfter, wordAfter, BitVec.add_assoc]
  congr 1
  apply BitVec.eq_of_toNat_eq
  simp [BitVec.toNat_add]
  omega

/-- The page of an address has none of these flags, and no access handler. -/
def Accessible (memory : GuestMemory) (cpu : Cpu) (bad addr : BitVec 32) : Prop :=
  ¬(memory.blocks (memory.addr2page cpu addr)).has bad ∧
    ¬(memory.blocks (memory.addr2page cpu addr)).has PageFlag.accessHandler

theorem addr2page_eq (memory : GuestMemory) (cpu : Cpu) (addr : BitVec 32) :
    memory.addr2page cpu addr = memory.map cpu (addr.toNat / 512) := by
  rw [addr2page, BitVec.toNat_ushiftRight, Nat.shiftRight_eq_div_pow]

theorem addr2page_congr (memory : GuestMemory) (cpu : Cpu) {addr other : BitVec 32}
    (same : addr.toNat / 512 = other.toNat / 512) :
    memory.addr2page cpu addr = memory.addr2page cpu other := by
  rw [addr2page_eq, addr2page_eq, same]

/-- Where the loops stand: `addr` is somewhere in the page of the next word, and
`subaddr` is the offset of the word. -/
structure AtWord (addr : BitVec 32) (subaddr : Nat) (word : BitVec 32) : Prop where
  page : addr.toNat / 512 = word.toNat / 512
  offset : subaddr = word.toNat % 512
  aligned : word.toNat % 4 = 0

theorem AtWord.within {addr word : BitVec 32} {subaddr : Nat} (place : AtWord addr subaddr word)
    (inside : subaddr + 4 ≠ 512) : AtWord addr (subaddr + 4) (word + 4) := by
  have bound := word.isLt
  have page := place.page
  have offset := place.offset
  have aligned := place.aligned
  have next : (word + 4).toNat = word.toNat + 4 := by
    rw [BitVec.toNat_add, show (4 : BitVec 32).toNat = 4 from rfl]
    omega
  constructor <;> rw [next] <;> omega

/-- Behind the last word of a page. -/
theorem AtWord.nextPage {addr word : BitVec 32} {subaddr : Nat}
    (place : AtWord addr subaddr word) (ends : subaddr + 4 = 512) :
    AtWord (addr + 512) 0 (word + 4) := by
  have bound := word.isLt
  have inside := addr.isLt
  have page := place.page
  have offset := place.offset
  have aligned := place.aligned
  have next : (word + 4).toNat = (word.toNat + 4) % 2 ^ 32 := BitVec.toNat_add _ _
  have moved : (addr + 512).toNat = (addr.toNat + 512) % 2 ^ 32 := BitVec.toNat_add _ _
  constructor <;> rw [next] <;> (try rw [moved]) <;> omega

theorem toNat_align (addr : BitVec 32) :
    (addr &&& ~~~3#32).toNat = addr.toNat / 4 * 4 :=
  ByteMemory.toNat_and_not_mask addr 2

theorem toNat_pageOffset (addr align : BitVec 32) :
    (pageOffset addr align).toNat = (addr &&& ~~~align).toNat % 512 := by
  rw [pageOffset, BitVec.toNat_setWidth]

/-- The loops start at the first word. -/
theorem atWord_start (addr : BitVec 32) :
    AtWord addr (pageOffset addr 3).toNat (addr &&& ~~~3#32) := by
  have aligned := toNat_align addr
  constructor
  · omega
  · exact toNat_pageOffset addr 3
  · omega

theorem rotateRight_zero (value : BitVec 32) : value.rotateRight 0 = value := by
  apply BitVec.eq_of_getLsbD_eq
  intro bit inside
  rw [BitVec.getLsbD_rotateRight]
  simp [inside]

theorem pageOffset_atWord {addr word : BitVec 32} {subaddr : Nat}
    (place : AtWord addr subaddr word) : pageOffset word 3 = BitVec.ofNat 9 subaddr := by
  have rounded : (word &&& ~~~(3 : BitVec 32)).toNat = word.toNat / 4 * 4 := toNat_align word
  have aligned := place.aligned
  have start := place.offset
  apply BitVec.eq_of_toNat_eq
  rw [toNat_pageOffset, rounded, BitVec.toNat_ofNat]
  omega

/-- A word read at an aligned address. -/
theorem load32_atWord (memory : GuestMemory) (cpu : Cpu) (ioLoad : BitVec 32 → BitVec 32)
    {addr word : BitVec 32} {subaddr : Nat} (place : AtWord addr subaddr word)
    (accessible : memory.Accessible cpu readBad word) :
    memory.load32 cpu ioLoad word =
      peekWord (memory.blocks (memory.addr2page cpu word)).mem (BitVec.ofNat 9 subaddr) 4 := by
  have low : (word &&& 3#32).toNat = 0 :=
    (ByteMemory.toNat_and_mask word 2 (by decide)).trans place.aligned
  rw [load32, if_neg accessible.2, pageOffset_atWord place,
    show (3 : BitVec 32) = 3#32 from rfl, low, Nat.zero_mul,
    rotateRight_zero]

/-! ### Loading -/

/-- The words a transfer should load. -/
def loadWords (memory : GuestMemory) (cpu : Cpu) (ioLoad : BitVec 32 → BitVec 32)
    (word : BitVec 32) (num : Nat) : List (BitVec 32) :=
  (List.range num).map fun i => memory.load32 cpu ioLoad (wordAfter word i)

theorem loadWords_succ (memory : GuestMemory) (cpu : Cpu) (ioLoad : BitVec 32 → BitVec 32)
    (word : BitVec 32) (num : Nat) :
    memory.loadWords cpu ioLoad word (num + 1) =
      memory.load32 cpu ioLoad word :: memory.loadWords cpu ioLoad (word + 4) num := by
  simp [loadWords, List.range_succ_eq_map, wordAfter_succ]

theorem accessible_tail {memory : GuestMemory} {cpu : Cpu} {bad word : BitVec 32}
    {value : BitVec 32} {data : List (BitVec 32)}
    (accessible : ∀ i < (value :: data).length, memory.Accessible cpu bad (wordAfter word i)) :
    ∀ i < data.length, memory.Accessible cpu bad (wordAfter (word + 4) i) := by
  intro i inside
  rw [← wordAfter_succ]
  exact accessible (i + 1) (Nat.succ_lt_succ inside)

/-- Whether the look-up of the page behind a transfer is none or succeeds. -/
def LookupClear (memory : GuestMemory) (cpu : Cpu) (bad word : BitVec 32) (num : Nat) : Prop :=
  num ≠ 0 → (wordAfter word num).toNat % 512 = 0 →
    ¬(memory.blocks (memory.addr2page cpu (wordAfter word num))).has bad

theorem lookupClear_zero (memory : GuestMemory) (cpu : Cpu) (bad word : BitVec 32) :
    memory.LookupClear cpu bad word 0 := fun none => absurd rfl none

/-- Behind a word in the middle of a page nothing is looked up. -/
theorem lookupClear_within {memory : GuestMemory} {cpu : Cpu} {bad addr word : BitVec 32}
    {subaddr num : Nat} (place : AtWord addr subaddr word) (inside : subaddr + 4 ≠ 512) :
    memory.LookupClear cpu bad word (num + 1) ↔ memory.LookupClear cpu bad (word + 4) num := by
  have next := place.within inside
  have offset := place.offset
  rw [LookupClear, LookupClear, wordAfter_succ]
  cases num with
  | zero =>
      have short : ¬(word + 4).toNat % 512 = 0 := by
        rw [← next.offset]
        omega
      exact iff_of_true (fun _ ends => absurd ends (by rwa [wordAfter_zero]))
        (fun none => absurd rfl none)
  | succ num => simp

/-- Behind the last word of a page, a look-up that succeeds does not count. -/
theorem lookupClear_nextPage {memory : GuestMemory} {cpu : Cpu} {bad word : BitVec 32} {num : Nat}
    (clear : ¬(memory.blocks (memory.addr2page cpu (word + 4))).has bad) :
    memory.LookupClear cpu bad word (num + 1) ↔ memory.LookupClear cpu bad (word + 4) num := by
  rw [LookupClear, LookupClear, wordAfter_succ]
  cases num with
  | zero => exact iff_of_true (fun _ _ => by rwa [wordAfter_zero]) (fun none => absurd rfl none)
  | succ num => simp

/-- A look-up that fails behind the last word of a page. -/
theorem not_lookupClear {memory : GuestMemory} {cpu : Cpu} {bad addr word : BitVec 32}
    (value : BitVec 32) {data : List (BitVec 32)} (next : AtWord addr 0 (word + 4))
    (accessible : ∀ i < data.length, memory.Accessible cpu bad (wordAfter (word + 4) i))
    (fails : (memory.blocks (memory.addr2page cpu (word + 4))).has bad) :
    data = [] ∧ ¬memory.LookupClear cpu bad word (value :: data).length := by
  have last : data = [] := by
    by_contra more
    have first := accessible 0 (List.length_pos_iff.mpr more)
    rw [wordAfter_zero] at first
    exact first.1 fails
  subst last
  refine ⟨rfl, fun clear => ?_⟩
  rw [LookupClear, List.length_cons, wordAfter_succ, List.length_nil, wordAfter_zero] at clear
  exact clear (by simp) next.offset.symm fails

/-- All words are loaded; only the look-up behind the last one can fail. -/
theorem loadArrayLoop_spec (memory : GuestMemory) (cpu : Cpu) (ioLoad : BitVec 32 → BitVec 32)
    (data : List (BitVec 32)) {addr word : BitVec 32} {subaddr : Nat}
    (place : AtWord addr subaddr word)
    (accessible : ∀ i < data.length, memory.Accessible cpu readBad (wordAfter word i)) :
    (memory.loadArrayLoop cpu data (memory.addr2page cpu word) addr subaddr).1 =
        memory.loadWords cpu ioLoad word data.length ∧
      ((memory.loadArrayLoop cpu data (memory.addr2page cpu word) addr subaddr).2 = .done ↔
        memory.LookupClear cpu readBad word data.length) := by
  induction data generalizing addr word subaddr with
  | nil => simp [loadArrayLoop, loadWords, lookupClear_zero]
  | cons value data ih =>
      have first := load32_atWord memory cpu ioLoad place (by simpa using accessible 0 (by simp))
      have rest := accessible_tail accessible
      by_cases ends : subaddr + 4 = 512
      · have next := place.nextPage ends
        have page := memory.addr2page_congr cpu next.page
        by_cases fails : (memory.blocks (memory.addr2page cpu (word + 4))).has readBad
        · obtain ⟨rfl, blocked⟩ := not_lookupClear value next rest fails
          simp only [loadArrayLoop, if_pos ends, page, if_pos fails, reduceCtorEq, false_iff]
          rw [List.length_cons, loadWords_succ, first]
          exact ⟨rfl, blocked⟩
        · obtain ⟨values, report⟩ := ih next rest
          rw [List.length_cons, loadWords_succ, first, lookupClear_nextPage fails, ← values,
            ← report]
          simp only [loadArrayLoop, if_pos ends, page, if_neg fails, and_self]
      · have next := place.within ends
        have page : memory.addr2page cpu word = memory.addr2page cpu (word + 4) :=
          memory.addr2page_congr cpu (place.page.symm.trans next.page)
        obtain ⟨values, report⟩ := ih next rest
        rw [List.length_cons, loadWords_succ, first, lookupClear_within place ends, ← values,
          ← report]
        simp only [loadArrayLoop, if_neg ends, page, and_self]

/-! ### Storing -/

/-- The words stored one after the other. -/
def storeWords (cpu : Cpu) : List (BitVec 32) → GuestMemory → (word : BitVec 32) → GuestMemory
  | [], memory, _ => memory
  | value :: data, memory, word =>
      storeWords cpu data (memory.store32 cpu word value) (word + 4)

/-- The page tables are the same, and the flags of the pages except for the
dirty ones. -/
structure SameProtection (memory other : GuestMemory) : Prop where
  map : other.map = memory.map
  flags : ∀ page, (other.blocks page).flags &&& ~~~PageFlag.dirty =
    (memory.blocks page).flags &&& ~~~PageFlag.dirty

theorem SameProtection.trans {first second third : GuestMemory}
    (one : SameProtection first second) (two : SameProtection second third) :
    SameProtection first third where
  map := two.map.trans one.map
  flags := fun page => (two.flags page).trans (one.flags page)

theorem SameProtection.has_iff {memory other : GuestMemory} (same : SameProtection memory other)
    {mask : BitVec 32} (clean : ~~~PageFlag.dirty &&& mask = mask)
    (page : MemoryBlock PhysRegion) :
    (other.blocks page).has mask ↔ (memory.blocks page).has mask := by
  rw [BlockState.has, BlockState.has, ← clean, ← BitVec.and_assoc, ← BitVec.and_assoc,
    same.flags page]

theorem SameProtection.accessible_iff {memory other : GuestMemory}
    (same : SameProtection memory other) (cpu : Cpu) (word : BitVec 32) :
    other.Accessible cpu writeBad word ↔ memory.Accessible cpu writeBad word := by
  rw [Accessible, Accessible, addr2page, addr2page, same.map, same.has_iff (by decide),
    same.has_iff (by decide)]

theorem SameProtection.lookupClear_iff {memory other : GuestMemory}
    (same : SameProtection memory other) (cpu : Cpu) (word : BitVec 32) (num : Nat) :
    other.LookupClear cpu writeBad word num ↔ memory.LookupClear cpu writeBad word num := by
  rw [LookupClear, LookupClear, addr2page, addr2page, same.map, same.has_iff (by decide)]

/-- Pages with the same bytes besides. -/
structure SameButDirty (memory other : GuestMemory) : Prop extends
    SameProtection memory other where
  mem : ∀ page, (other.blocks page).mem = (memory.blocks page).mem

theorem dirty_flags (block : BlockState) :
    block.dirty.flags &&& ~~~PageFlag.dirty = block.flags &&& ~~~PageFlag.dirty := by
  rw [BlockState.dirty, BitVec.and_or_distrib_right, BitVec.and_not_self]
  exact BitVec.or_zero

theorem sameButDirty_dirty (memory : GuestMemory) (b : MemoryBlock PhysRegion) :
    SameButDirty memory (memory.modify b BlockState.dirty) := by
  refine ⟨⟨rfl, fun page => ?_⟩, fun page => ?_⟩ <;> rw [modify_blocks] <;> split
  · next same => rw [dirty_flags, same]
  · rfl
  · next same => rw [same]; rfl
  · rfl

theorem sameProtection_poke (memory : GuestMemory) (b : MemoryBlock PhysRegion)
    (offset : BitVec 9) (bytes : List (BitVec 8)) :
    SameProtection memory (memory.modify b (·.poke offset bytes)) := by
  refine ⟨rfl, fun page => ?_⟩
  rw [modify_blocks]
  split
  · next same => rw [same]; rfl
  · rfl

/-- A word stored at an aligned address. -/
theorem store32_atWord (memory : GuestMemory) (cpu : Cpu) (value : BitVec 32)
    {addr word : BitVec 32} {subaddr : Nat} (place : AtWord addr subaddr word)
    (accessible : memory.Accessible cpu writeBad word) :
    memory.store32 cpu word value =
      memory.modify (memory.addr2page cpu word) fun block =>
        (block.poke (BitVec.ofNat 9 subaddr) (wordBytes 4 value)).dirty := by
  rw [store32, store, if_neg accessible.2, if_neg accessible.1, pageOffset_atWord place]

/-- The loop and the single store change the same bytes. -/
theorem SameButDirty.poke {memory other : GuestMemory} (same : SameButDirty memory other)
    (b : MemoryBlock PhysRegion) (offset : BitVec 9) (bytes : List (BitVec 8)) :
    SameButDirty (memory.modify b (·.poke offset bytes))
      (other.modify b fun block => (block.poke offset bytes).dirty) := by
  refine ⟨⟨same.map, fun page => ?_⟩, fun page => ?_⟩ <;>
    rw [modify_blocks, modify_blocks] <;> split
  · rw [dirty_flags]
    exact same.flags b
  · exact same.flags page
  · show BlockState.pokeBytes (other.blocks b).mem offset bytes =
      BlockState.pokeBytes (memory.blocks b).mem offset bytes
    rw [same.mem]
  · exact same.mem page

theorem SameButDirty.dirtyLeft {memory other : GuestMemory} (same : SameButDirty memory other)
    (b : MemoryBlock PhysRegion) : SameButDirty (memory.modify b BlockState.dirty) other where
  map := same.map
  flags := by
    intro page
    rw [same.flags, (sameButDirty_dirty memory b).flags]
  mem := by
    intro page
    rw [same.mem, (sameButDirty_dirty memory b).mem]

/-- The step of the loop from one page to the next. -/
theorem transferArrayLoop_nextPage (cpu : Cpu) (value : BitVec 32) (data : List (BitVec 32))
    (memory : GuestMemory) (b : MemoryBlock PhysRegion) (addr : BitVec 32) {subaddr : Nat}
    (ends : subaddr + 4 = 512) :
    transferArrayLoop cpu (value :: data) memory b addr subaddr =
      let stored := (memory.modify b (·.poke (BitVec.ofNat 9 subaddr) (wordBytes 4 value))).modify
        b BlockState.dirty
      if (stored.blocks (memory.addr2page cpu (addr + 512))).has writeBad then
        (stored, .invalid ((addr + 512) &&& ~~~511#32))
      else
        transferArrayLoop cpu data stored (memory.addr2page cpu (addr + 512)) (addr + 512) 0 := by
  rw [transferArrayLoop, if_pos ends]
  rfl

/-- The loop stores the same bytes as the single stores, and only the look-up
behind the last word can fail. -/
theorem transferArrayLoop_spec (cpu : Cpu) (data : List (BitVec 32)) {memory other : GuestMemory}
    (same : SameButDirty memory other) {addr word : BitVec 32} {subaddr : Nat}
    (place : AtWord addr subaddr word)
    (accessible : ∀ i < data.length, memory.Accessible cpu writeBad (wordAfter word i)) :
    SameButDirty
        (transferArrayLoop cpu data memory (memory.addr2page cpu word) addr subaddr).1
        (storeWords cpu data other word) ∧
      ((transferArrayLoop cpu data memory (memory.addr2page cpu word) addr subaddr).2 = .done ↔
        memory.LookupClear cpu writeBad word data.length) := by
  induction data generalizing memory other addr word subaddr with
  | nil => exact ⟨same.dirtyLeft _, iff_of_true rfl (lookupClear_zero _ _ _ _)⟩
  | cons value data ih =>
      have here : memory.Accessible cpu writeBad word := by simpa using accessible 0 (by simp)
      have stored := store32_atWord other cpu value place
        ((same.accessible_iff cpu word).mpr here)
      have block : other.addr2page cpu word = memory.addr2page cpu word := by
        rw [addr2page, addr2page, same.map]
      have poked := same.poke (memory.addr2page cpu word) (BitVec.ofNat 9 subaddr)
        (wordBytes 4 value)
      have kept := sameProtection_poke memory (memory.addr2page cpu word) (BitVec.ofNat 9 subaddr)
        (wordBytes 4 value)
      have rest := accessible_tail accessible
      rw [storeWords, stored, block, List.length_cons]
      by_cases ends : subaddr + 4 = 512
      · have next := place.nextPage ends
        have page := memory.addr2page_congr cpu next.page
        have left := poked.dirtyLeft (memory.addr2page cpu word)
        have keptLeft := kept.trans (sameButDirty_dirty
          (memory.modify (memory.addr2page cpu word)
            (·.poke (BitVec.ofNat 9 subaddr) (wordBytes 4 value)))
          (memory.addr2page cpu word)).toSameProtection
        by_cases fails : (memory.blocks (memory.addr2page cpu (word + 4))).has writeBad
        · obtain ⟨rfl, blocked⟩ := not_lookupClear value next rest fails
          have failsLeft :=
            (keptLeft.has_iff (by decide) (memory.addr2page cpu (word + 4))).mpr fails
          rw [transferArrayLoop_nextPage _ _ _ _ _ _ ends, page, if_pos failsLeft]
          exact ⟨left, iff_of_false (by simp) blocked⟩
        · have clearLeft := mt (keptLeft.has_iff (by decide)
            (memory.addr2page cpu (word + 4))).mp fails
          have following := ih left next fun i inside =>
            (keptLeft.accessible_iff cpu _).mpr (rest i inside)
          rw [keptLeft.lookupClear_iff] at following
          rw [transferArrayLoop_nextPage _ _ _ _ _ _ ends, page, if_neg clearLeft,
            lookupClear_nextPage fails]
          exact following
      · have next := place.within ends
        have page : memory.addr2page cpu word = memory.addr2page cpu (word + 4) :=
          memory.addr2page_congr cpu (place.page.symm.trans next.page)
        have following :=
          ih poked next fun i inside => (kept.accessible_iff cpu _).mpr (rest i inside)
        rw [kept.lookupClear_iff] at following
        rw [lookupClear_within place ends]
        simp only [transferArrayLoop, if_neg ends, page, modify_addr2page] at following ⊢
        exact following

/-! ### Dirty pages -/

/-- All dirty flags of a page are set. -/
def PageDirty (memory : GuestMemory) (page : MemoryBlock PhysRegion) : Prop :=
  (memory.blocks page).flags &&& PageFlag.dirty = PageFlag.dirty

theorem pageDirty_dirty (memory : GuestMemory) (b : MemoryBlock PhysRegion) :
    (memory.modify b BlockState.dirty).PageDirty b := by
  rw [PageDirty, modify_blocks, if_pos rfl, BlockState.dirty, BitVec.and_or_distrib_right,
    BitVec.and_self]
  apply BitVec.eq_of_getLsbD_eq
  intro bit inside
  rw [BitVec.getLsbD_or, BitVec.getLsbD_and]
  cases PageFlag.dirty.getLsbD bit <;> simp

theorem PageDirty.dirty {memory : GuestMemory} {page : MemoryBlock PhysRegion}
    (marked : memory.PageDirty page) (b : MemoryBlock PhysRegion) :
    (memory.modify b BlockState.dirty).PageDirty page := by
  by_cases same : page = b
  · rw [same]
    exact pageDirty_dirty memory b
  · rw [PageDirty, modify_blocks, if_neg same]
    exact marked

theorem PageDirty.poke {memory : GuestMemory} {page : MemoryBlock PhysRegion}
    (marked : memory.PageDirty page) (b : MemoryBlock PhysRegion) (offset : BitVec 9)
    (bytes : List (BitVec 8)) : (memory.modify b (·.poke offset bytes)).PageDirty page := by
  rw [PageDirty, modify_blocks]
  split
  · next same =>
    rw [← same]
    exact marked
  · exact marked

/-- The loop clears no dirty flag. -/
theorem PageDirty.transferArrayLoop {memory : GuestMemory} {page : MemoryBlock PhysRegion}
    (marked : memory.PageDirty page) (cpu : Cpu) (data : List (BitVec 32))
    (b : MemoryBlock PhysRegion) (addr : BitVec 32) (subaddr : Nat) :
    (GuestMemory.transferArrayLoop cpu data memory b addr subaddr).1.PageDirty page := by
  induction data generalizing memory b addr subaddr with
  | nil => exact marked.dirty b
  | cons value data ih =>
      have poked := marked.poke b (BitVec.ofNat 9 subaddr) (wordBytes 4 value)
      rw [GuestMemory.transferArrayLoop]
      dsimp only
      split
      · split
        · exact poked.dirty b
        · exact ih (poked.dirty b) _ _ _
      · exact ih poked _ _ _

/-- The page the loop starts on is dirty in the end. -/
theorem pageDirty_transferArrayLoop (cpu : Cpu) (data : List (BitVec 32)) (memory : GuestMemory)
    (b : MemoryBlock PhysRegion) (addr : BitVec 32) (subaddr : Nat) :
    (transferArrayLoop cpu data memory b addr subaddr).1.PageDirty b := by
  induction data generalizing memory addr subaddr with
  | nil => exact pageDirty_dirty memory b
  | cons value data ih =>
      rw [transferArrayLoop]
      dsimp only
      split
      · split
        · exact pageDirty_dirty _ b
        · exact (pageDirty_dirty _ b).transferArrayLoop _ _ _ _ _
      · exact ih _ _ _

/-- Every page a word was written to is dirty in the end. -/
theorem pageDirty_words (cpu : Cpu) (data : List (BitVec 32)) (memory : GuestMemory)
    {addr word : BitVec 32} {subaddr : Nat} (place : AtWord addr subaddr word)
    (accessible : ∀ i < data.length, memory.Accessible cpu writeBad (wordAfter word i))
    {i : Nat} (inside : i < data.length) :
    (transferArrayLoop cpu data memory (memory.addr2page cpu word) addr subaddr).1.PageDirty
      (memory.addr2page cpu (wordAfter word i)) := by
  induction data generalizing memory addr word subaddr i with
  | nil => simp at inside
  | cons value data ih =>
      cases i with
      | zero =>
          rw [wordAfter_zero]
          exact pageDirty_transferArrayLoop _ _ _ _ _ _
      | succ i =>
          have later : i < data.length := Nat.lt_of_succ_lt_succ inside
          have kept := sameProtection_poke memory (memory.addr2page cpu word)
            (BitVec.ofNat 9 subaddr) (wordBytes 4 value)
          have rest := accessible_tail accessible
          rw [wordAfter_succ]
          by_cases ends : subaddr + 4 = 512
          · have next := place.nextPage ends
            have page := memory.addr2page_congr cpu next.page
            have keptLeft := kept.trans (sameButDirty_dirty
              (memory.modify (memory.addr2page cpu word)
                (·.poke (BitVec.ofNat 9 subaddr) (wordBytes 4 value)))
              (memory.addr2page cpu word)).toSameProtection
            have first := rest 0 (by omega)
            rw [wordAfter_zero] at first
            have clearLeft := mt (keptLeft.has_iff (by decide)
              (memory.addr2page cpu (word + 4))).mp first.1
            rw [transferArrayLoop_nextPage _ _ _ _ _ _ ends, page, if_neg clearLeft]
            exact
              ih _ next (fun i inside => (keptLeft.accessible_iff cpu _).mpr (rest i inside)) later
          · have next := place.within ends
            have page : memory.addr2page cpu word = memory.addr2page cpu (word + 4) :=
              memory.addr2page_congr cpu (place.page.symm.trans next.page)
            have following := ih _ next (fun i inside =>
              (kept.accessible_iff cpu _).mpr (rest i inside)) later
            simp only [transferArrayLoop, if_neg ends, page, modify_addr2page] at following ⊢
            exact following

/-! ### Whole transfers -/

/-- Every page that holds one of the words is accessible. -/
def WordsAccessible (memory : GuestMemory) (cpu : Cpu) (bad addr : BitVec 32) (num : Nat) :
    Prop :=
  ∀ i < num, memory.Accessible cpu bad (wordAddr addr i)

/-- All words are loaded as by single loads, and nothing is reported. -/
def LoadsLikeWords (memory : GuestMemory) (cpu : Cpu) (ioLoad : BitVec 32 → BitVec 32)
    (addr : BitVec 32) (data : List (BitVec 32)) : Prop :=
  memory.load32Array cpu addr data =
    (memory.loadWords cpu ioLoad (addr &&& ~~~3#32) data.length, .done)

/-- Nothing is reported, the bytes are those after single stores, and every page
that was written to is dirty. -/
structure StoresLikeWords (memory : GuestMemory) (cpu : Cpu) (addr : BitVec 32)
    (data : List (BitVec 32)) : Prop where
  report : (memory.transferArray cpu addr data).2 = .done
  bytes : ∀ page, ((memory.transferArray cpu addr data).1.blocks page).mem =
    ((storeWords cpu data memory (addr &&& ~~~3#32)).blocks page).mem
  dirty : ∀ i < data.length,
    (memory.transferArray cpu addr data).1.PageDirty (memory.addr2page cpu (wordAddr addr i))

/-- A transfer of no words finds its first page accessible, and the page behind
a transfer that ends at the end of a page has none of these flags. -/
def EndsClear (memory : GuestMemory) (cpu : Cpu) (bad addr : BitVec 32) (num : Nat) : Prop :=
  (num = 0 → memory.Accessible cpu bad addr) ∧
    (num ≠ 0 → (wordAddr addr num).toNat % 512 = 0 →
      ¬(memory.blocks (memory.addr2page cpu (wordAddr addr num))).has bad)

theorem addr2page_align (memory : GuestMemory) (cpu : Cpu) (addr : BitVec 32) :
    memory.addr2page cpu (addr &&& ~~~3#32) = memory.addr2page cpu addr :=
  memory.addr2page_congr cpu (atWord_start addr).page.symm

/-- Without words, only the first page counts. -/
theorem endsClear_zero (memory : GuestMemory) (cpu : Cpu) (bad addr : BitVec 32) :
    memory.EndsClear cpu bad addr 0 ↔ memory.Accessible cpu bad addr := by
  simp [EndsClear]

/-- With words, only the look-up behind them counts. -/
theorem endsClear_of_ne (memory : GuestMemory) (cpu : Cpu) (bad addr : BitVec 32) {num : Nat}
    (some : num ≠ 0) :
    memory.EndsClear cpu bad addr num ↔ memory.LookupClear cpu bad (addr &&& ~~~3#32) num := by
  simp [EndsClear, LookupClear, wordAddr, some]

theorem first_accessible {memory : GuestMemory} {cpu : Cpu} {bad addr : BitVec 32} {num : Nat}
    (accessible : memory.WordsAccessible cpu bad addr num) (some : num ≠ 0) :
    memory.Accessible cpu bad addr := by
  have first := accessible 0 (Nat.pos_of_ne_zero some)
  rwa [wordAddr, wordAfter_zero, Accessible, addr2page_align] at first

theorem loadsLikeWords_iff (memory : GuestMemory) (cpu : Cpu) (ioLoad : BitVec 32 → BitVec 32)
    (addr : BitVec 32) (data : List (BitVec 32))
    (accessible : memory.WordsAccessible cpu readBad addr data.length) :
    memory.LoadsLikeWords cpu ioLoad addr data ↔
      memory.EndsClear cpu readBad addr data.length := by
  rw [LoadsLikeWords, load32Array]
  by_cases none : data = []
  · subst none
    rw [List.length_nil, endsClear_zero, Accessible, addr2page_align]
    split
    · next bad => simp [bad]
    · next fine =>
      split
      · next handled => simp [handled]
      · next unhandled => simp [fine, unhandled, loadArrayLoop, loadWords]
  · have some : data.length ≠ 0 := by simpa using none
    have first := first_accessible accessible some
    rw [Accessible, ← addr2page_align] at first
    have place : AtWord (addr &&& ~~~3#32) (pageOffset (addr &&& ~~~3#32) 0).toNat
        (addr &&& ~~~3#32) := by
      refine ⟨rfl, ?_, (atWord_start addr).aligned⟩
      rw [toNat_pageOffset, show ~~~(0 : BitVec 32) = BitVec.allOnes 32 from rfl,
        BitVec.and_allOnes]
    obtain ⟨values, report⟩ := memory.loadArrayLoop_spec cpu ioLoad data place accessible
    rw [endsClear_of_ne _ _ _ _ some, ← report, if_neg first.1, if_neg first.2, Prod.ext_iff]
    exact and_iff_right values

theorem storesLikeWords_iff (memory : GuestMemory) (cpu : Cpu) (addr : BitVec 32)
    (data : List (BitVec 32))
    (accessible : memory.WordsAccessible cpu writeBad addr data.length) :
    memory.StoresLikeWords cpu addr data ↔ memory.EndsClear cpu writeBad addr data.length := by
  by_cases none : data = []
  · subst none
    rw [List.length_nil, endsClear_zero]
    constructor
    · intro stores
      have report := stores.report
      rw [transferArray] at report
      split at report
      · simp at report
      · next unhandled =>
        split at report
        · simp at report
        · next fine => exact ⟨fine, unhandled⟩
    · intro first
      have loop : memory.transferArray cpu addr [] =
          (memory.modify (memory.addr2page cpu addr) BlockState.dirty, .done) := by
        rw [transferArray, if_neg first.2, if_neg first.1]
        rfl
      refine ⟨by rw [loop], ?_, by simp⟩
      intro page
      rw [loop]
      exact (sameButDirty_dirty memory _).mem page
  · have some : data.length ≠ 0 := by simpa using none
    have first := first_accessible accessible some
    have place := atWord_start addr
    have loop : memory.transferArray cpu addr data =
        transferArrayLoop cpu data memory (memory.addr2page cpu (addr &&& ~~~3#32)) addr
          (pageOffset addr 3).toNat := by
      rw [transferArray, addr2page_align, if_neg first.2, if_neg first.1]
    obtain ⟨same, report⟩ := transferArrayLoop_spec cpu data
      (⟨⟨rfl, fun _ => rfl⟩, fun _ => rfl⟩ : SameButDirty memory memory) place accessible
    rw [endsClear_of_ne _ _ _ _ some, ← report]
    constructor
    · intro stores
      rw [← loop]
      exact stores.report
    · intro done
      refine ⟨by rw [loop, done], fun page => ?_, fun i inside => ?_⟩
      · rw [loop, ← same.mem]
      · rw [loop]
        exact pageDirty_words cpu data memory place accessible inside

/-- A transfer whose pages are accessible does what single accesses do exactly
when it has words and does not end at the end of a page, or the page it looks up
besides is accessible. -/
theorem blockTransfer_iff (memory : GuestMemory) (cpu : Cpu) (ioLoad : BitVec 32 → BitVec 32)
    (addr : BitVec 32) (data : List (BitVec 32)) :
    (memory.WordsAccessible cpu readBad addr data.length →
        (memory.LoadsLikeWords cpu ioLoad addr data ↔
          memory.EndsClear cpu readBad addr data.length)) ∧
      (memory.WordsAccessible cpu writeBad addr data.length →
        (memory.StoresLikeWords cpu addr data ↔
          memory.EndsClear cpu writeBad addr data.length)) :=
  ⟨memory.loadsLikeWords_iff cpu ioLoad addr data, memory.storesLikeWords_iff cpu addr data⟩

/-- One page of main memory at the address 0, and nothing behind it. -/
def lonePage : GuestMemory where
  map := fun _ page => if page = 0 then ⟨.ram, 0⟩ else ⟨.nullRegion, 0⟩
  blocks := fun b =>
    { flags := if b.1 = .ram then 0 else PageFlag.invalid
      jit := fun _ _ => none
      recompiles := 0
      mem := fun _ => 0 }

instance (memory : GuestMemory) (cpu : Cpu) (bad addr : BitVec 32) :
    Decidable (memory.Accessible cpu bad addr) :=
  inferInstanceAs (Decidable (_ ∧ _))

instance (memory : GuestMemory) (cpu : Cpu) (bad addr : BitVec 32) (num : Nat) :
    Decidable (memory.WordsAccessible cpu bad addr num) :=
  inferInstanceAs (Decidable (∀ i < num, _))

/-- One word at the end of the page, loaded and stored. -/
theorem blockTransfer_fails_pageEnd :
    lonePage.WordsAccessible .arm9 readBad 0x1FC 1 ∧
      lonePage.WordsAccessible .arm9 writeBad 0x1FC 1 ∧
      ¬lonePage.LoadsLikeWords .arm9 (fun _ => 0) 0x1FC [0] ∧
      ¬lonePage.StoresLikeWords .arm9 0x1FC [0] := by
  refine ⟨by decide, by decide, fun loads => ?_, fun stores => ?_⟩
  · exact absurd (congrArg Prod.snd loads) (by decide)
  · exact absurd stores.report (by decide)

end GuestMemory

end Ndse
