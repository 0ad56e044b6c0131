import Ndse.IoRegisters

/-!
# Narrow stores to the input/output registers

The stores of bytes and halfwords rebuild the word they lie in and store that.
For a byte the word is read where it lies.  For a halfword it is read at the
halfword, so that the upper halfword of a word is stored together with a copy
of its own old value in the lower one.
-/

namespace Ndse

open ByteMemory

/-! ### Addresses -/

/-- Where an address lies in its word. -/
def lane (addr : BitVec 32) : Nat := addr.toNat % 4

theorem lane_lt (addr : BitVec 32) : lane addr < 4 := Nat.mod_lt _ (by decide)

theorem toNat_and_three (addr : BitVec 32) : (addr &&& 3).toNat = lane addr :=
  toNat_and_mask addr 2 (by decide)

theorem toNat_half_index (addr : BitVec 32) : ((addr >>> 1) &&& 1).toNat = lane addr / 2 := by
  have index : ((addr >>> 1) &&& 1).toNat = (addr >>> 1).toNat % 2 :=
    toNat_and_mask (addr >>> 1) 1 (by decide)
  rw [index, BitVec.toNat_ushiftRight, Nat.shiftRight_eq_div_pow, lane]
  omega

theorem toNat_wordOffset (addr : BitVec 32) :
    (wordOffset addr).toNat = addr.toNat % 8192 / 4 * 4 := by
  rw [wordOffset, addr4k]
  exact (toNat_and_not_mask (addr.setWidth 13) 2).trans (by simp)

theorem toNat_base (addr : BitVec 32) :
    (addr &&& ~~~3#32).toNat = addr.toNat / 4 * 4 :=
  toNat_and_not_mask addr 2

theorem addr4k_base (addr : BitVec 32) : addr4k (addr &&& ~~~3#32) = wordOffset addr := by
  apply BitVec.eq_of_toNat_eq
  rw [toNat_wordOffset, addr4k, BitVec.toNat_setWidth, toNat_base]
  omega

theorem addr4k_eq_wordOffset_add (addr : BitVec 32) :
    addr4k addr = wordOffset addr + BitVec.ofNat 13 (lane addr) := by
  apply BitVec.eq_of_toNat_eq
  have bounded := lane_lt addr
  rw [BitVec.toNat_add, toNat_wordOffset, addr4k, BitVec.toNat_setWidth, BitVec.toNat_ofNat, lane]
  omega

theorem halfOffset_eq_wordOffset_add (addr : BitVec 32) :
    addr4k addr &&& ~~~1#13 = wordOffset addr + BitVec.ofNat 13 (2 * (lane addr / 2)) := by
  apply BitVec.eq_of_toNat_eq
  have cleared : (addr4k addr &&& ~~~1#13).toNat = (addr4k addr).toNat / 2 * 2 :=
    toNat_and_not_mask (addr4k addr) 1
  rw [cleared, BitVec.toNat_add, toNat_wordOffset, addr4k, BitVec.toNat_setWidth,
    BitVec.toNat_ofNat, lane]
  omega

theorem toNat_base_add (addr : BitVec 32) {i : Nat} (inside : i < 4) :
    ((addr &&& ~~~3#32) + BitVec.ofNat 32 i).toNat = addr.toNat / 4 * 4 + i := by
  have bounded := addr.isLt
  rw [BitVec.toNat_add, toNat_base, BitVec.toNat_ofNat]
  omega

theorem lane_base_add (addr : BitVec 32) {i : Nat} (inside : i < 4) :
    lane ((addr &&& ~~~3#32) + BitVec.ofNat 32 i) = i := by
  rw [lane, toNat_base_add addr inside]
  omega

theorem wordOffset_base_add (addr : BitVec 32) {i : Nat} (inside : i < 4) :
    wordOffset ((addr &&& ~~~3#32) + BitVec.ofNat 32 i) = wordOffset addr := by
  apply BitVec.eq_of_toNat_eq
  rw [toNat_wordOffset, toNat_wordOffset, toNat_base_add addr inside]
  omega

theorem base_base_add (addr : BitVec 32) {i : Nat} (inside : i < 4) :
    ((addr &&& ~~~3#32) + BitVec.ofNat 32 i) &&& ~~~3#32 = addr &&& ~~~3#32 := by
  apply BitVec.eq_of_toNat_eq
  rw [toNat_base, toNat_base_add addr inside, toNat_base]
  omega

theorem wordOffset_base (addr : BitVec 32) : wordOffset (addr &&& ~~~3#32) = wordOffset addr := by
  simpa using wordOffset_base_add addr (show 0 < 4 by decide)

/-! ### Accesses of either processor -/

namespace IoState

def store32 (state : IoState) : Cpu → BitVec 32 → BitVec 32 → IoState × List IoRequest
  | .arm9 => Registers9.store32 state
  | .arm7 => Registers7.store32 state

def store16 (state : IoState) : Cpu → BitVec 32 → BitVec 32 → IoState × List IoRequest
  | .arm9 => Registers9.store16 state
  | .arm7 => Registers7.store16 state

def store8 (state : IoState) : Cpu → BitVec 32 → BitVec 32 → IoState × List IoRequest
  | .arm9 => Registers9.store8 state
  | .arm7 => Registers7.store8 state

def load32 (state : IoState) : Cpu → BitVec 32 → IoState × BitVec 32
  | .arm9 => Registers9.load32 state
  | .arm7 => Registers7.load32 state

def load16u (state : IoState) : Cpu → BitVec 32 → IoState × BitVec 32
  | .arm9 => Registers9.load16u state
  | .arm7 => Registers7.load16u state

def load8u (state : IoState) : Cpu → BitVec 32 → IoState × BitVec 32
  | .arm9 => Registers9.load8u state
  | .arm7 => Registers7.load8u state

end IoState

/-- The words with a case of their own in the switches. -/
def specialWords : Cpu → List (BitVec 13)
  | .arm9 => [0xB8, 0xC4, 0xD0, 0xDC, 0x180, 0x184, 0x188, 0x240, 0x244, 0x248]
  | .arm7 => [0x180, 0x184, 0x188, 0x1C0]

/-- The word of an address has no special case. -/
def PlainWord (cpu : Cpu) (addr : BitVec 32) : Prop := wordOffset addr ∉ specialWords cpu

instance (cpu : Cpu) (addr : BitVec 32) : Decidable (PlainWord cpu addr) :=
  inferInstanceAs (Decidable (_ ∉ _))

/-- Special words are words. -/
theorem specialWords_aligned (cpu : Cpu) :
    ∀ offset ∈ specialWords cpu, offset &&& ~~~3#13 = offset := by
  cases cpu <;> simp [specialWords]

/-- A plain address is itself no special case. -/
theorem PlainWord.not_special {cpu : Cpu} {addr : BitVec 32} (plain : PlainWord cpu addr) :
    addr4k addr ∉ specialWords cpu := by
  intro special
  apply plain
  rw [wordOffset, specialWords_aligned cpu _ special]
  exact special

/-- No plain address of the ARM7 is one of the serial bus. -/
theorem PlainWord.not_serial {addr : BitVec 32} (plain : PlainWord .arm7 addr) :
    addr4k addr ≠ 0x1C0 ∧ addr4k addr ≠ 0x1C2 := by
  constructor
  · intro control
    exact plain (by rw [wordOffset, control]; decide)
  · intro data
    exact plain (by rw [wordOffset, data]; decide)

/-- No callback is registered with a register file. -/
def NoCallbacks (state : IoState) (cpu : Cpu) : Prop :=
  (state.regs cpu).readcbs = [] ∧ (state.regs cpu).writecbs = []

namespace IoState

/-- Both register files after a write to one of them. -/
def written (state : IoState) (cpu : Cpu) (offset : BitVec 13) (size : Nat)
    (value : BitVec 32) : Cpu → RegisterBytes :=
  Function.update state.memory cpu (writeBytes (state.memory cpu) offset size value)

/-! ### What plain accesses do -/

theorem store32_of_plain (state : IoState) {cpu : Cpu} {addr : BitVec 32} (value : BitVec 32)
    (plain : PlainWord cpu addr) (quiet : NoCallbacks state cpu) :
    (state.store32 cpu addr value).1 = state.modify cpu (·.replace addr value) := by
  have special := plain.not_special
  cases cpu with
  | arm9 =>
      simp [specialWords] at special
      simp [store32, Registers9.store32, IoRegs.writecb, quiet.2, special]
  | arm7 =>
      simp [specialWords] at special
      simp [store32, Registers7.store32, IoRegs.writecb, quiet.2, special]

theorem load32_of_plain (state : IoState) {cpu : Cpu} {addr : BitVec 32}
    (plain : PlainWord cpu addr) (quiet : NoCallbacks state cpu) :
    (state.load32 cpu addr).2 = (state.regs cpu).current addr := by
  have special := plain.not_special
  cases cpu with
  | arm9 =>
      simp [specialWords] at special
      simp [load32, Registers9.load32, IoRegs.readcb, quiet.1, special]
  | arm7 =>
      simp [specialWords] at special
      simp [load32, Registers7.load32, IoRegs.readcb, quiet.1, special]

theorem replace_mem (regs : IoRegs) (addr value : BitVec 32) :
    (regs.replace addr value).mem = writeBytes regs.mem (wordOffset addr) 4 value := by
  rw [IoRegs.replace]
  split
  · rfl
  · next same =>
    rw [ne_eq, not_not] at same
    rw [← same, IoRegs.current, writeBytes_readWord]

theorem replace_callbacks (regs : IoRegs) (addr value : BitVec 32) :
    (regs.replace addr value).readcbs = regs.readcbs ∧
      (regs.replace addr value).writecbs = regs.writecbs := by
  rw [IoRegs.replace]
  split <;> exact ⟨rfl, rfl⟩

theorem memory_store32 (state : IoState) {cpu : Cpu} {addr : BitVec 32} (value : BitVec 32)
    (plain : PlainWord cpu addr) (quiet : NoCallbacks state cpu) :
    (state.store32 cpu addr value).1.memory = state.written cpu (wordOffset addr) 4 value := by
  rw [store32_of_plain state value plain quiet]
  funext other
  by_cases own : other = cpu
  · subst own
    simp [memory, modify, written, replace_mem]
  · simp [memory, modify, written, own]

theorem quiet_store32 (state : IoState) {cpu : Cpu} {addr : BitVec 32} (value : BitVec 32)
    (plain : PlainWord cpu addr) (quiet : NoCallbacks state cpu) :
    NoCallbacks (state.store32 cpu addr value).1 cpu := by
  rw [store32_of_plain state value plain quiet, NoCallbacks]
  simpa [modify, replace_callbacks, NoCallbacks] using quiet

/-- The word of the union that `store16` stores. -/
def rebuiltHalf (state : IoState) (cpu : Cpu) (addr value : BitVec 32) : BitVec 32 :=
  setField (readWord (state.memory cpu) (wordOffset addr + BitVec.ofNat 13 (2 * (lane addr / 2))))
    (16 * (lane addr / 2)) (value.setWidth 16)

theorem store16_eq (state : IoState) {cpu : Cpu} {addr : BitVec 32} (value : BitVec 32)
    (notSerial : cpu = .arm7 → addr4k addr ≠ 0x1C0 ∧ addr4k addr ≠ 0x1C2) :
    state.store16 cpu addr value =
      state.store32 cpu (addr &&& ~~~3#32) (state.rebuiltHalf cpu addr value) := by
  have rebuilt : setField (readWord (state.regs cpu).mem (addr4k addr &&& ~~~1#13))
      (16 * ((addr >>> 1) &&& 1).toNat) (value.setWidth 16) = state.rebuiltHalf cpu addr value := by
    rw [halfOffset_eq_wordOffset_add, toNat_half_index, rebuiltHalf, memory]
  cases cpu with
  | arm9 => rw [store16, Registers9.store16, rebuildHalf, rebuilt, store32]
  | arm7 =>
      rw [store16, Registers7.store16, if_neg (notSerial rfl).1, if_neg (notSerial rfl).2,
        rebuildHalf, rebuilt, store32]

theorem store16_of_plain (state : IoState) {cpu : Cpu} {addr : BitVec 32} (value : BitVec 32)
    (plain : PlainWord cpu addr) :
    state.store16 cpu addr value =
      state.store32 cpu (addr &&& ~~~3#32) (state.rebuiltHalf cpu addr value) := by
  apply store16_eq
  rintro rfl
  exact plain.not_serial

theorem load16u_eq (state : IoState) {cpu : Cpu} {addr : BitVec 32}
    (notSerial : cpu = .arm7 → addr4k addr ≠ 0x1C0 ∧ addr4k addr ≠ 0x1C2) :
    state.load16u cpu addr =
      ((state.load32 cpu (addr &&& ~~~3#32)).1,
        halfOf (state.load32 cpu (addr &&& ~~~3#32)).2 (lane addr / 2)) := by
  cases cpu with
  | arm9 => rw [load16u, Registers9.load16u, toNat_half_index, load32]
  | arm7 =>
      rw [load16u, Registers7.load16u, if_neg (notSerial rfl).1, if_neg (notSerial rfl).2,
        toNat_half_index, load32]

theorem load16u_of_plain (state : IoState) {cpu : Cpu} {addr : BitVec 32}
    (plain : PlainWord cpu addr) :
    (state.load16u cpu addr).2 =
      halfOf (state.load32 cpu (addr &&& ~~~3#32)).2 (lane addr / 2) := by
  rw [load16u_eq]
  rintro rfl
  exact plain.not_serial

theorem load8u_eq (state : IoState) (cpu : Cpu) (addr : BitVec 32) :
    state.load8u cpu addr =
      ((state.load32 cpu (addr &&& ~~~3#32)).1,
        byteOf (state.load32 cpu (addr &&& ~~~3#32)).2 (lane addr)) := by
  cases cpu with
  | arm9 => rw [load8u, Registers9.load8u, toNat_and_three, load32]
  | arm7 => rw [load8u, Registers7.load8u, toNat_and_three, load32]

theorem store8_of_plain (state : IoState) (cpu : Cpu) (addr value : BitVec 32) :
    state.store8 cpu addr value =
      state.store32 cpu (addr &&& ~~~3#32)
        (setField (readWord (state.memory cpu) (wordOffset addr)) (8 * lane addr)
          (value.setWidth 8)) := by
  cases cpu with
  | arm9 => rw [store8, Registers9.store8, rebuildByte, toNat_and_three, store32, memory]
  | arm7 => rw [store8, Registers7.store8, rebuildByte, toNat_and_three, store32, memory]

/-! ### Words written one after the other -/

@[simp]
theorem readWord_written (state : IoState) (cpu : Cpu) (offset : BitVec 13) (value : BitVec 32) :
    readWord (state.written cpu offset 4 value cpu) offset = value := by
  rw [written, Function.update_self, readWord_writeBytes (by decide)]

theorem written_of_memory_eq {first second : IoState} {cpu : Cpu} {offset : BitVec 13}
    {value : BitVec 32} (stored : second.memory = first.written cpu offset 4 value)
    (next : BitVec 32) : second.written cpu offset 4 next = first.written cpu offset 4 next := by
  rw [written, stored, written, written, Function.update_self, Function.update_idem,
    writeBytes_writeBytes]

theorem written_readWord (state : IoState) (cpu : Cpu) (offset : BitVec 13) :
    state.written cpu offset 4 (readWord (state.memory cpu) offset) = state.memory := by
  rw [written, writeBytes_readWord, Function.update_eq_self]

theorem written_inj (state : IoState) (cpu : Cpu) (offset : BitVec 13)
    {first second : BitVec 32} :
    state.written cpu offset 4 first = state.written cpu offset 4 second ↔ first = second := by
  constructor
  · intro same
    rw [← readWord_written state cpu offset first, same, readWord_written]
  · rintro rfl
    rfl

/-- A narrow write of a register file is a write of the word around it. -/
theorem written_narrow (state : IoState) (cpu : Cpu) (offset : BitVec 13) (value : BitVec 32)
    {place size : Nat} (fits : place + size ≤ 4) :
    state.written cpu (offset + BitVec.ofNat 13 place) size value =
      state.written cpu offset 4
        (setField (readWord (state.memory cpu) offset) (8 * place)
          (value.setWidth (8 * size))) := by
  rw [written, writeBytes_eq_setField (by decide) _ offset value fits, written]

/-- Store the bytes of a word in some order. -/
def storeBytes (state : IoState) (cpu : Cpu) (addr word : BitVec 32) (order : List (Fin 4)) :
    IoState :=
  order.foldl (fun (state : IoState) (i : Fin 4) =>
    (state.store8 cpu ((addr &&& ~~~3#32) + BitVec.ofNat 32 i.val) (byteOf word i.val)).1) state

/-- Store the halfwords of a word in some order. -/
def storeHalves (state : IoState) (cpu : Cpu) (addr word : BitVec 32) (order : List (Fin 2)) :
    IoState :=
  order.foldl (fun (state : IoState) (i : Fin 2) =>
    (state.store16 cpu ((addr &&& ~~~3#32) + BitVec.ofNat 32 (2 * i.val))
      (halfOf word i.val)).1) state

end IoState

theorem PlainWord.base_add {cpu : Cpu} {addr : BitVec 32} (plain : PlainWord cpu addr) {i : Nat}
    (inside : i < 4) : PlainWord cpu ((addr &&& ~~~3#32) + BitVec.ofNat 32 i) := by
  rwa [PlainWord, wordOffset_base_add addr inside]

theorem PlainWord.base {cpu : Cpu} {addr : BitVec 32} (plain : PlainWord cpu addr) :
    PlainWord cpu (addr &&& ~~~3#32) := by
  rwa [PlainWord, wordOffset_base]

namespace IoState

theorem memory_store8 (state : IoState) {cpu : Cpu} {addr : BitVec 32} (value : BitVec 32)
    (plain : PlainWord cpu addr) (quiet : NoCallbacks state cpu) :
    (state.store8 cpu addr value).1.memory =
      state.written cpu (wordOffset addr) 4
        (setField (readWord (state.memory cpu) (wordOffset addr)) (8 * lane addr)
          (value.setWidth 8)) := by
  rw [store8_of_plain, memory_store32 state _ plain.base quiet, wordOffset_base]

theorem quiet_store8 (state : IoState) {cpu : Cpu} {addr : BitVec 32} (value : BitVec 32)
    (plain : PlainWord cpu addr) (quiet : NoCallbacks state cpu) :
    NoCallbacks (state.store8 cpu addr value).1 cpu := by
  rw [store8_of_plain]
  exact quiet_store32 state _ plain.base quiet

theorem memory_store16 (state : IoState) {cpu : Cpu} {addr : BitVec 32} (value : BitVec 32)
    (plain : PlainWord cpu addr) (quiet : NoCallbacks state cpu) :
    (state.store16 cpu addr value).1.memory =
      state.written cpu (wordOffset addr) 4 (state.rebuiltHalf cpu addr value) := by
  rw [store16_of_plain state value plain, memory_store32 state _ plain.base quiet,
    wordOffset_base]

theorem quiet_store16 (state : IoState) {cpu : Cpu} {addr : BitVec 32} (value : BitVec 32)
    (plain : PlainWord cpu addr) (quiet : NoCallbacks state cpu) :
    NoCallbacks (state.store16 cpu addr value).1 cpu := by
  rw [store16_of_plain state value plain]
  exact quiet_store32 state _ plain.base quiet

/-- Byte stores of one word set its bytes one after the other. -/
theorem memory_storeBytes {cpu : Cpu} {addr word : BitVec 32} (plain : PlainWord cpu addr)
    (order : List (Fin 4)) (state : IoState) (quiet : NoCallbacks state cpu) :
    (state.storeBytes cpu addr word order).memory =
      state.written cpu (wordOffset addr) 4
        (order.foldl (fun (word' : BitVec 32) (i : Fin 4) =>
          setField word' (8 * i.val) (word.extractLsb' (8 * i.val) 8))
            (readWord (state.memory cpu) (wordOffset addr))) := by
  induction order generalizing state with
  | nil => exact (written_readWord state cpu _).symm
  | cons i order ih =>
      have stored := memory_store8 state (byteOf word i.val) (plain.base_add i.isLt) quiet
      have byte : (byteOf word i.val).setWidth 8 = word.extractLsb' (8 * i.val) 8 := by
        simp [byteOf]
      rw [wordOffset_base_add addr i.isLt, lane_base_add addr i.isLt, byte] at stored
      have next := ih _ (quiet_store8 state (byteOf word i.val) (plain.base_add i.isLt) quiet)
      rw [written_of_memory_eq stored, stored, readWord_written] at next
      exact next

/-! ### The halves of a word -/

end IoState

def lowHalf (word : BitVec 32) : BitVec 16 := word.extractLsb' 0 16

def highHalf (word : BitVec 32) : BitVec 16 := word.extractLsb' 16 16

theorem eq_iff_halves (first second : BitVec 32) :
    first = second ↔ lowHalf first = lowHalf second ∧ highHalf first = highHalf second := by
  constructor
  · rintro rfl
    exact ⟨rfl, rfl⟩
  · rintro ⟨low, high⟩
    apply BitVec.eq_of_getLsbD_eq
    intro bit inside
    by_cases lower : bit < 16
    · have bits := congrArg (·.getLsbD bit) low
      simpa [lowHalf, lower] using bits
    · have bits := congrArg (·.getLsbD (bit - 16)) high
      simpa [highHalf, show bit - 16 < 16 by omega, show 16 + (bit - 16) = bit by omega] using bits

@[simp]
theorem lowHalf_setField_low (word : BitVec 32) (value : BitVec 16) :
    lowHalf (setField word 0 value) = value := extractLsb'_setField word 0 value (by decide)

@[simp]
theorem highHalf_setField_low (word : BitVec 32) (value : BitVec 16) :
    highHalf (setField word 0 value) = highHalf word :=
  extractLsb'_setField_of_outside word value (by decide) (Or.inr (by decide))

@[simp]
theorem lowHalf_setField_high (word : BitVec 32) (value : BitVec 16) :
    lowHalf (setField word 16 value) = lowHalf word :=
  extractLsb'_setField_of_outside word value (by decide) (Or.inl (by decide))

@[simp]
theorem highHalf_setField_high (word : BitVec 32) (value : BitVec 16) :
    highHalf (setField word 16 value) = value := extractLsb'_setField word 16 value (by decide)

/-- Read two bytes further on, the lower half of a word is the upper half. -/
theorem lowHalf_readWord_add_two (mem : RegisterBytes) (offset : BitVec 13) :
    lowHalf (readWord mem (offset + 2)) = highHalf (readWord mem offset) := by
  apply BitVec.eq_of_getLsbD_eq
  intro bit short
  rw [lowHalf, highHalf, BitVec.getLsbD_extractLsb', BitVec.getLsbD_extractLsb',
    getLsbD_readWord _ _ (by omega), getLsbD_readWord _ _ (by omega)]
  have place : offset + 2 + BitVec.ofNat 13 ((0 + bit) / 8) =
      offset + BitVec.ofNat 13 ((16 + bit) / 8) := by
    rw [BitVec.add_assoc]
    congr 1
    apply BitVec.eq_of_toNat_eq
    simp
    omega
  rw [place, show (16 + bit) % 8 = (0 + bit) % 8 by omega]

namespace IoState

theorem rebuiltHalf_of_low (state : IoState) (cpu : Cpu) {addr : BitVec 32} (value : BitVec 32)
    (low : lane addr < 2) :
    state.rebuiltHalf cpu addr value =
      setField (readWord (state.memory cpu) (wordOffset addr)) 0 (value.setWidth 16) := by
  rw [rebuiltHalf, show lane addr / 2 = 0 by omega]
  simp

/-- Over the upper half, the lower half becomes a copy of the old upper half. -/
theorem rebuiltHalf_of_high (state : IoState) (cpu : Cpu) {addr : BitVec 32} (value : BitVec 32)
    (high : 2 ≤ lane addr) :
    lowHalf (state.rebuiltHalf cpu addr value) =
        highHalf (readWord (state.memory cpu) (wordOffset addr)) ∧
      highHalf (state.rebuiltHalf cpu addr value) = value.setWidth 16 := by
  have bounded := lane_lt addr
  rw [rebuiltHalf, show lane addr / 2 = 1 by omega]
  constructor
  · rw [lowHalf_setField_high]
    exact lowHalf_readWord_add_two _ _
  · rw [highHalf_setField_high]

end IoState

/-! ### Narrow stores touch only what they address -/

/-- The loads of a word and of its parts give the parts of one word. -/
structure ReadsBack (state : IoState) (cpu : Cpu) (addr word : BitVec 32) : Prop where
  load32 : (state.load32 cpu (addr &&& ~~~3#32)).2 = word
  load16u : ∀ i < 2,
    (state.load16u cpu ((addr &&& ~~~3#32) + BitVec.ofNat 32 (2 * i))).2 = halfOf word i
  load8u : ∀ i < 4,
    (state.load8u cpu ((addr &&& ~~~3#32) + BitVec.ofNat 32 i)).2 = byteOf word i

/-- The stores of every width write what they address and nothing else. -/
structure NarrowStoresExact (state : IoState) (cpu : Cpu) (addr value word : BitVec 32) :
    Prop where
  store16 : (state.store16 cpu addr value).1.memory =
    state.written cpu (addr4k addr &&& ~~~1#13) 2 value
  store8 : (state.store8 cpu addr value).1.memory = state.written cpu (addr4k addr) 1 value
  store32 : (state.store32 cpu (addr &&& ~~~3#32) word).1.memory =
    state.written cpu (wordOffset addr) 4 word
  halves : ∀ order : List (Fin 2), order.Perm (List.finRange 2) →
    (state.storeHalves cpu addr word order).memory =
      (state.store32 cpu (addr &&& ~~~3#32) word).1.memory
  bytes : ∀ order : List (Fin 4), order.Perm (List.finRange 4) →
    (state.storeBytes cpu addr word order).memory =
      (state.store32 cpu (addr &&& ~~~3#32) word).1.memory
  readsBack : ∀ final : IoState, NoCallbacks final cpu →
    final.memory = (state.store32 cpu (addr &&& ~~~3#32) word).1.memory →
      ReadsBack final cpu addr word

/-- The upper half of a word is only stored over two equal halves: the halves
of the old word when the address is in its upper half, and the old upper half
and the new lower half when the lower half is stored first. -/
def UpperHalfCopied (state : IoState) (cpu : Cpu) (addr word : BitVec 32) : Prop :=
  let old := readWord (state.memory cpu) (wordOffset addr)
  (2 ≤ lane addr → highHalf old = lowHalf old) ∧ highHalf old = lowHalf word

instance (state : IoState) (cpu : Cpu) (addr word : BitVec 32) :
    Decidable (UpperHalfCopied state cpu addr word) :=
  inferInstanceAs (Decidable ((_ → _) ∧ _))

namespace IoState

theorem store8_exact (state : IoState) {cpu : Cpu} {addr : BitVec 32} (value : BitVec 32)
    (plain : PlainWord cpu addr) (quiet : NoCallbacks state cpu) :
    (state.store8 cpu addr value).1.memory = state.written cpu (addr4k addr) 1 value := by
  have bounded := lane_lt addr
  rw [memory_store8 state value plain quiet, addr4k_eq_wordOffset_add,
    written_narrow state cpu _ value (show lane addr + 1 ≤ 4 by omega)]

/-- A halfword store is exact in the lower half, and in the upper half when
both halves are equal. -/
theorem store16_exact_iff (state : IoState) {cpu : Cpu} {addr : BitVec 32} (value : BitVec 32)
    (plain : PlainWord cpu addr) (quiet : NoCallbacks state cpu) :
    (state.store16 cpu addr value).1.memory =
        state.written cpu (addr4k addr &&& ~~~1#13) 2 value ↔
      (2 ≤ lane addr →
        highHalf (readWord (state.memory cpu) (wordOffset addr)) =
          lowHalf (readWord (state.memory cpu) (wordOffset addr))) := by
  have bounded := lane_lt addr
  rw [memory_store16 state value plain quiet, halfOffset_eq_wordOffset_add,
    written_narrow state cpu _ value (show 2 * (lane addr / 2) + 2 ≤ 4 by omega), written_inj]
  by_cases high : 2 ≤ lane addr
  · obtain ⟨copied, stored⟩ := state.rebuiltHalf_of_high cpu value high
    rw [eq_iff_halves, copied, stored, show lane addr / 2 = 1 by omega]
    simp [high]
  · rw [state.rebuiltHalf_of_low cpu value (not_le.mp high), show lane addr / 2 = 0 by omega]
    simp [high]

theorem halfOf_setWidth (word : BitVec 32) :
    (halfOf word 0).setWidth 16 = lowHalf word ∧ (halfOf word 1).setWidth 16 = highHalf word := by
  simp [halfOf, lowHalf, highHalf]

theorem memory_storeLow (state : IoState) {cpu : Cpu} {addr : BitVec 32} (word : BitVec 32)
    (plain : PlainWord cpu addr) (quiet : NoCallbacks state cpu) :
    (state.store16 cpu ((addr &&& ~~~3#32) + BitVec.ofNat 32 0) (halfOf word 0)).1.memory =
      state.written cpu (wordOffset addr) 4
        (setField (readWord (state.memory cpu) (wordOffset addr)) 0 (lowHalf word)) := by
  have first : 0 < 4 := by decide
  rw [memory_store16 state _ (plain.base_add first) quiet,
    state.rebuiltHalf_of_low cpu _ (by rw [lane_base_add addr first]; decide),
    wordOffset_base_add addr first, (halfOf_setWidth word).1]

theorem memory_storeHigh (state : IoState) {cpu : Cpu} {addr : BitVec 32} (word : BitVec 32)
    (plain : PlainWord cpu addr) (quiet : NoCallbacks state cpu) :
    ∃ rebuilt,
      (state.store16 cpu ((addr &&& ~~~3#32) + BitVec.ofNat 32 2) (halfOf word 1)).1.memory =
          state.written cpu (wordOffset addr) 4 rebuilt ∧
        lowHalf rebuilt = highHalf (readWord (state.memory cpu) (wordOffset addr)) ∧
        highHalf rebuilt = highHalf word := by
  have third : 2 < 4 := by decide
  have halves := state.rebuiltHalf_of_high cpu (halfOf word 1)
    (show 2 ≤ lane ((addr &&& ~~~3#32) + BitVec.ofNat 32 2) by
      rw [lane_base_add addr third])
  rw [wordOffset_base_add addr third, (halfOf_setWidth word).2] at halves
  refine ⟨_, ?_, halves⟩
  rw [memory_store16 state _ (plain.base_add third) quiet, wordOffset_base_add addr third]

/-- Storing the upper half first, the copy is overwritten. -/
theorem memory_storeHalves_highFirst (state : IoState) {cpu : Cpu} {addr : BitVec 32}
    (word : BitVec 32) (plain : PlainWord cpu addr) (quiet : NoCallbacks state cpu) :
    (state.storeHalves cpu addr word [1, 0]).memory =
      state.written cpu (wordOffset addr) 4 word := by
  obtain ⟨rebuilt, stored, low, high⟩ := memory_storeHigh state word plain quiet
  have next := memory_storeLow _ word plain
    (quiet_store16 state (halfOf word 1) (plain.base_add (show 2 < 4 by decide)) quiet)
  rw [written_of_memory_eq stored, stored, readWord_written] at next
  have whole : setField rebuilt 0 (lowHalf word) = word := by
    rw [eq_iff_halves]
    simp [high]
  rw [whole] at next
  exact next

/-- Storing the lower half first, the copy of the old upper half replaces it. -/
theorem memory_storeHalves_lowFirst_iff (state : IoState) {cpu : Cpu} {addr : BitVec 32}
    (word : BitVec 32) (plain : PlainWord cpu addr) (quiet : NoCallbacks state cpu) :
    (state.storeHalves cpu addr word [0, 1]).memory =
        state.written cpu (wordOffset addr) 4 word ↔
      highHalf (readWord (state.memory cpu) (wordOffset addr)) = lowHalf word := by
  have stored := memory_storeLow state word plain quiet
  obtain ⟨rebuilt, next, low, high⟩ := memory_storeHigh _ word plain
    (quiet_store16 state (halfOf word 0) (plain.base_add (show 0 < 4 by decide)) quiet)
  rw [written_of_memory_eq stored] at next
  rw [stored, readWord_written, highHalf_setField_low] at low
  change _ = _ at next
  rw [show (state.storeHalves cpu addr word [0, 1]).memory = _ from next, written_inj,
    eq_iff_halves, low, high]
  simp

/-- The two orders of two halves. -/
theorem perm_finRange_two {order : List (Fin 2)} (all : order.Perm (List.finRange 2)) :
    order = [0, 1] ∨ order = [1, 0] := by
  have two : order.length = 2 := by simpa using all.length_eq
  obtain ⟨first, second, rfl⟩ := List.length_eq_two.mp two
  have distinct : first ≠ second := by
    simpa using all.nodup_iff.mpr (List.nodup_finRange 2)
  revert first second
  decide

/-- Loads see the word that was stored. -/
theorem readsBack_of_memory {state final : IoState} {cpu : Cpu} {addr word : BitVec 32}
    (plain : PlainWord cpu addr) (quiet : NoCallbacks final cpu)
    (stored : final.memory = state.written cpu (wordOffset addr) 4 word) :
    ReadsBack final cpu addr word := by
  have loaded : (final.load32 cpu (addr &&& ~~~3#32)).2 = word := by
    have current : readWord (final.memory cpu) (wordOffset addr) = word := by
      rw [stored, readWord_written]
    rw [load32_of_plain final plain.base quiet, IoRegs.current, wordOffset_base]
    exact current
  constructor
  · exact loaded
  · intro i inside
    have within : 2 * i < 4 := by omega
    rw [load16u_of_plain final (plain.base_add within), base_base_add addr within, loaded,
      lane_base_add addr within, Nat.mul_div_cancel_left i (by decide)]
  · intro i inside
    rw [load8u_eq, base_base_add addr inside, loaded, lane_base_add addr inside]

end IoState

/-- Narrow stores to plain registers are exact precisely where the upper half
of a word is only stored over two equal halves. -/
theorem narrowStoresExact_iff (state : IoState) (cpu : Cpu) (addr value word : BitVec 32)
    (plain : PlainWord cpu addr) (quiet : NoCallbacks state cpu) :
    NarrowStoresExact state cpu addr value word ↔ UpperHalfCopied state cpu addr word := by
  have stored : (state.store32 cpu (addr &&& ~~~3#32) word).1.memory =
      state.written cpu (wordOffset addr) 4 word := by
    rw [IoState.memory_store32 state word plain.base quiet, wordOffset_base]
  constructor
  · intro exact
    have lowFirst := exact.halves [0, 1] (by decide)
    rw [stored] at lowFirst
    exact ⟨(state.store16_exact_iff value plain quiet).mp exact.store16,
      (state.memory_storeHalves_lowFirst_iff word plain quiet).mp lowFirst⟩
  · rintro ⟨upper, lowFirst⟩
    constructor
    · exact (state.store16_exact_iff value plain quiet).mpr upper
    · exact state.store8_exact value plain quiet
    · exact stored
    · intro order all
      rw [stored]
      obtain rfl | rfl := IoState.perm_finRange_two all
      · exact (state.memory_storeHalves_lowFirst_iff word plain quiet).mpr lowFirst
      · exact state.memory_storeHalves_highFirst word plain quiet
    · intro order all
      rw [stored, IoState.memory_storeBytes plain order state quiet,
        foldl_setField_of_perm word _ all]
    · intro final silent same
      exact IoState.readsBack_of_memory plain silent (same.trans stored)

/-- Over the zeros of a fresh register file, a word with an empty lower half
can be stored in every way. -/
theorem narrowStoresExact_boot :
    NarrowStoresExact IoState.boot .arm9 0x0400000A 0x1234 0x56780000 :=
  (narrowStoresExact_iff IoState.boot .arm9 0x0400000A 0x1234 0x56780000
    (by decide) ⟨rfl, rfl⟩).mpr (by decide)

/-- The control registers of the first two backgrounds are set. -/
def backgroundsSet : IoState := (IoState.boot.store32 .arm9 0x04000008 0x00220011).1

/-- Storing the control register of the second background replaces that of the
first one by the old value of the second. -/
theorem narrowStoresExact_fails_backgrounds :
    PlainWord .arm9 0x0400000A ∧ NoCallbacks backgroundsSet .arm9 ∧
      ((backgroundsSet.store16 .arm9 0x0400000A 0x33).1.load32 .arm9 0x04000008).2 = 0x00330022 ∧
      ¬ NarrowStoresExact backgroundsSet .arm9 0x0400000A 0x33 0 := by
  refine ⟨by decide, ⟨rfl, rfl⟩, by decide, ?_⟩
  intro exact
  have neighbour := congrFun (congrFun exact.store16 .arm9) 8
  revert neighbour
  decide

end Ndse
