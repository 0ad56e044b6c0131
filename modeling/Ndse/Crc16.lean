import Ndse.Library.ReflectedCrc
import Ndse.MemoryAccess
import Ndse.PageVisits

/-!
# The check of a range of memory

The software interrupt runs a check with the polynomial `A001h` over a range of
addresses, page by page.  It reads the stored bytes of the pages, also where an
access handler stands for them.
-/

namespace Ndse

/-- `util::crc16tab`. -/
def crc16tab : List (BitVec 16) :=
  [ 0x0000, 0xC0C1, 0xC181, 0x0140, 0xC301, 0x03C0, 0x0280, 0xC241,
    0xC601, 0x06C0, 0x0780, 0xC741, 0x0500, 0xC5C1, 0xC481, 0x0440,
    0xCC01, 0x0CC0, 0x0D80, 0xCD41, 0x0F00, 0xCFC1, 0xCE81, 0x0E40,
    0x0A00, 0xCAC1, 0xCB81, 0x0B40, 0xC901, 0x09C0, 0x0880, 0xC841,
    0xD801, 0x18C0, 0x1980, 0xD941, 0x1B00, 0xDBC1, 0xDA81, 0x1A40,
    0x1E00, 0xDEC1, 0xDF81, 0x1F40, 0xDD01, 0x1DC0, 0x1C80, 0xDC41,
    0x1400, 0xD4C1, 0xD581, 0x1540, 0xD701, 0x17C0, 0x1680, 0xD641,
    0xD201, 0x12C0, 0x1380, 0xD341, 0x1100, 0xD1C1, 0xD081, 0x1040,
    0xF001, 0x30C0, 0x3180, 0xF141, 0x3300, 0xF3C1, 0xF281, 0x3240,
    0x3600, 0xF6C1, 0xF781, 0x3740, 0xF501, 0x35C0, 0x3480, 0xF441,
    0x3C00, 0xFCC1, 0xFD81, 0x3D40, 0xFF01, 0x3FC0, 0x3E80, 0xFE41,
    0xFA01, 0x3AC0, 0x3B80, 0xFB41, 0x3900, 0xF9C1, 0xF881, 0x3840,
    0x2800, 0xE8C1, 0xE981, 0x2940, 0xEB01, 0x2BC0, 0x2A80, 0xEA41,
    0xEE01, 0x2EC0, 0x2F80, 0xEF41, 0x2D00, 0xEDC1, 0xEC81, 0x2C40,
    0xE401, 0x24C0, 0x2580, 0xE541, 0x2700, 0xE7C1, 0xE681, 0x2640,
    0x2200, 0xE2C1, 0xE381, 0x2340, 0xE101, 0x21C0, 0x2080, 0xE041,
    0xA001, 0x60C0, 0x6180, 0xA141, 0x6300, 0xA3C1, 0xA281, 0x6240,
    0x6600, 0xA6C1, 0xA781, 0x6740, 0xA501, 0x65C0, 0x6480, 0xA441,
    0x6C00, 0xACC1, 0xAD81, 0x6D40, 0xAF01, 0x6FC0, 0x6E80, 0xAE41,
    0xAA01, 0x6AC0, 0x6B80, 0xAB41, 0x6900, 0xA9C1, 0xA881, 0x6840,
    0x7800, 0xB8C1, 0xB981, 0x7940, 0xBB01, 0x7BC0, 0x7A80, 0xBA41,
    0xBE01, 0x7EC0, 0x7F80, 0xBF41, 0x7D00, 0xBDC1, 0xBC81, 0x7C40,
    0xB401, 0x74C0, 0x7580, 0xB541, 0x7700, 0xB7C1, 0xB681, 0x7640,
    0x7200, 0xB2C1, 0xB381, 0x7340, 0xB101, 0x71C0, 0x7080, 0xB041,
    0x5000, 0x90C1, 0x9181, 0x5140, 0x9301, 0x53C0, 0x5280, 0x9241,
    0x9601, 0x56C0, 0x5780, 0x9741, 0x5500, 0x95C1, 0x9481, 0x5440,
    0x9C01, 0x5CC0, 0x5D80, 0x9D41, 0x5F00, 0x9FC1, 0x9E81, 0x5E40,
    0x5A00, 0x9AC1, 0x9B81, 0x5B40, 0x9901, 0x59C0, 0x5880, 0x9841,
    0x8801, 0x48C0, 0x4980, 0x8941, 0x4B00, 0x8BC1, 0x8A81, 0x4A40,
    0x4E00, 0x8EC1, 0x8F81, 0x4F40, 0x8D01, 0x4DC0, 0x4C80, 0x8C41,
    0x4400, 0x84C1, 0x8581, 0x4540, 0x8701, 0x47C0, 0x4680, 0x8641,
    0x8201, 0x42C0, 0x4380, 0x8341, 0x4100, 0x81C1, 0x8081, 0x4040 ]

/-- The loop of `util::get_crc16`.  A `char` is signed. -/
def crc16Step (v : BitVec 32) (byte : BitVec 8) : BitVec 32 :=
  v >>> 8 ^^^ (crc16tab.getD ((v ^^^ byte.signExtend 32) &&& 0xFF).toNat 0).setWidth 32

/-- `util::get_crc16`. -/
def getCrc16 (crc : BitVec 16) (mem : List (BitVec 8)) : BitVec 16 :=
  (mem.foldl crc16Step (crc.setWidth 32)).setWidth 16

namespace GuestMemory

/-- `stream_crc16::process`; nothing is left of the context after a break. -/
def streamCrc16 (memory : GuestMemory) (b : MemoryBlock PhysRegion) (subaddr : BitVec 9)
    (size : Nat) (ctx : Option (BitVec 32)) : Option (BitVec 32) :=
  if (memory.blocks b).has (PageFlag.invalid ||| PageFlag.readProt) then none
  else ctx.map fun crc => (getCrc16 (crc.setWidth 16) (memory.pageBytes b subaddr size)).setWidth 32

/-- `HLE<T>::crc16_direct`: what it returns and the processor with the result in
a register. -/
def crc16Direct (memory : GuestMemory) (cpu : Cpu) (processor : Processor) (crc : BitVec 16)
    (addr : BitVec 32) (len : Nat) : Option (BitVec 16 × Processor) :=
  (memory.visitMemory memory.streamCrc16 cpu addr len (some (crc.setWidth 32))).map fun crc =>
    (crc.setWidth 16, processor.writeReg 0 crc)

end GuestMemory

/-! ### Tables -/

/-- The bit-serial check. -/
abbrev crc16 : BitVec 16 → List (BitVec 8) → BitVec 16 := ReflectedCrc.check 0xA001

theorem crc16_append (crc : BitVec 16) (first second : List (BitVec 8)) :
    crc16 crc (first ++ second) = crc16 (crc16 crc first) second :=
  ReflectedCrc.check_append 0xA001 crc first second

theorem crc16tab_right :
    ReflectedCrc.TableFor 0xA001 fun byte => crc16tab.getD byte.toNat 0 := by
  have entries : ∀ byte < 256, crc16tab.getD byte 0 =
      (ReflectedCrc.bitStep 0xA001)^[8] ((BitVec.ofNat 8 byte).setWidth 16) := by
    decide +kernel
  intro byte
  have entry := entries byte.toNat byte.isLt
  rwa [BitVec.ofNat_toNat, BitVec.setWidth_eq] at entry

/-- The sign of a `char` does not reach the index. -/
theorem crc16_index (crc : BitVec 16) (byte : BitVec 8) :
    ((crc.setWidth 32 ^^^ byte.signExtend 32) &&& 0xFF).toNat =
      ((crc ^^^ byte.setWidth 16).setWidth 8).toNat := by
  have low : (crc.setWidth 32 ^^^ byte.signExtend 32).setWidth 8 =
      (crc ^^^ byte.setWidth 16).setWidth 8 := by
    apply BitVec.eq_of_getLsbD_eq
    intro bit inside
    rw [BitVec.getLsbD_setWidth, BitVec.getLsbD_xor, BitVec.getLsbD_signExtend, if_pos inside,
      BitVec.getLsbD_setWidth, BitVec.getLsbD_setWidth, BitVec.getLsbD_xor,
      BitVec.getLsbD_setWidth, decide_eq_true (show bit < 32 by omega),
      decide_eq_true (show bit < 16 by omega), Bool.true_and, Bool.true_and]
  rw [← low, BitVec.toNat_and, BitVec.toNat_setWidth]
  exact Nat.and_two_pow_sub_one_eq_mod _ 8

/-- Between its steps the loop has only the low half of its variable set. -/
theorem crc16Step_setWidth (crc : BitVec 16) (byte : BitVec 8) :
    crc16Step (crc.setWidth 32) byte =
      (ReflectedCrc.byteStep 0xA001 crc byte).setWidth 32 := by
  have high : crc.setWidth 32 >>> 8 = (crc >>> 8).setWidth 32 :=
    (BitVec.setWidth_ushiftRight (by decide)).symm
  rw [← crc16tab_right.tableStep_eq, crc16Step, crc16_index, high, ← BitVec.setWidth_xor]
  rfl

theorem getCrc16_eq (crc : BitVec 16) (mem : List (BitVec 8)) :
    getCrc16 crc mem = crc16 crc mem := by
  have loop : mem.foldl crc16Step (crc.setWidth 32) = (crc16 crc mem).setWidth 32 := by
    induction mem generalizing crc with
    | nil => rfl
    | cons byte mem ih =>
        rw [List.foldl_cons, crc16Step_setWidth, ih]
        rfl
  rw [getCrc16, loop, BitVec.setWidth_setWidth_of_le _ (by decide), BitVec.setWidth_eq]

namespace GuestMemory

/-- No access handler stands for the page of an address. -/
def Stored (memory : GuestMemory) (cpu : Cpu) (addr : BitVec 32) : Prop :=
  ¬(memory.blocks (memory.addr2page cpu addr)).has PageFlag.accessHandler

instance (memory : GuestMemory) (cpu : Cpu) (addr : BitVec 32) :
    Decidable (memory.Stored cpu addr) :=
  inferInstanceAs (Decidable ¬_)

/-- The stored bytes of a range. -/
def bytesAt (memory : GuestMemory) (cpu : Cpu) (addr : BitVec 32) (len : Nat) :
    List (BitVec 8) :=
  (List.range len).map fun k => memory.byteAt cpu (addr + BitVec.ofNat 32 k)

/-- What `load8u` returns for the addresses of a range. -/
def loadedBytes (memory : GuestMemory) (cpu : Cpu) (ioLoad : BitVec 32 → BitVec 32)
    (addr : BitVec 32) (len : Nat) : List (BitVec 8) :=
  (List.range len).map fun k =>
    (memory.load8u cpu ioLoad (addr + BitVec.ofNat 32 k)).setWidth 8

variable {memory : GuestMemory} {cpu : Cpu} {addr : BitVec 32}

/-- Where nothing but memory stands behind the addresses the bytes are those loaded. -/
theorem bytesAt_eq_loadedBytes (ioLoad : BitVec 32 → BitVec 32) {len : Nat}
    (stored : ∀ k < len, memory.Stored cpu (addr + BitVec.ofNat 32 k)) :
    memory.bytesAt cpu addr len = memory.loadedBytes cpu ioLoad addr len := by
  apply List.map_congr_left
  intro k member
  rw [load8u, if_neg (stored k (List.mem_range.mp member)),
    BitVec.setWidth_setWidth_of_le _ (by decide), BitVec.setWidth_eq]
  rfl

/-! ### The whole range -/

theorem streamCrc16_of_not_has (memory : GuestMemory) {b : MemoryBlock PhysRegion}
    (readable : ¬(memory.blocks b).has (PageFlag.invalid ||| PageFlag.readProt))
    (subaddr : BitVec 9) (size : Nat) (crc : BitVec 32) :
    memory.streamCrc16 b subaddr size (some crc) =
      some ((crc16 (crc.setWidth 16) (memory.pageBytes b subaddr size)).setWidth 32) := by
  rw [streamCrc16, if_neg readable, Option.map_some, getCrc16_eq]

/-- Nothing is left after a break. -/
theorem streamCrc16_none (memory : GuestMemory) (b : MemoryBlock PhysRegion) (subaddr : BitVec 9)
    (size : Nat) : memory.streamCrc16 b subaddr size none = none := by
  rw [streamCrc16]
  split <;> rfl

/-- Cutting the last byte off a piece cuts the variable to its low half once more. -/
theorem streamCrc16_succ (memory : GuestMemory) (b : MemoryBlock PhysRegion) (subaddr : BitVec 9)
    (size : Nat) (ctx : Option (BitVec 32)) :
    memory.streamCrc16 b subaddr (size + 1) ctx =
      memory.streamCrc16 b (subaddr + BitVec.ofNat 9 size) 1
        (memory.streamCrc16 b subaddr size ctx) := by
  cases ctx with
  | none => rw [streamCrc16_none, streamCrc16_none, streamCrc16_none]
  | some crc =>
      by_cases has : (memory.blocks b).has (PageFlag.invalid ||| PageFlag.readProt)
      · rw [streamCrc16, streamCrc16, if_pos has, if_pos has]
      · rw [streamCrc16_of_not_has memory has, streamCrc16_of_not_has memory has,
          streamCrc16_of_not_has memory has, BitVec.setWidth_setWidth_of_le _ (by decide),
          BitVec.setWidth_eq, ← crc16_append, pageBytes_succ]

/-- The whole range is checked byte by byte, however pages split it. -/
theorem steps_streamCrc16 (crc : BitVec 16) {len : Nat}
    (readable : ∀ k < len, memory.Readable cpu (addr + BitVec.ofNat 32 k)) :
    steps (fun place => memory.streamCrc16 place.1 place.2 1) memory cpu addr len
        (some (crc.setWidth 32)) =
      some ((crc16 crc (memory.bytesAt cpu addr len)).setWidth 32) := by
  induction len with
  | zero => rfl
  | succ len ih =>
      have bytes : memory.bytesAt cpu addr (len + 1) =
          memory.bytesAt cpu addr len ++ [memory.byteAt cpu (addr + BitVec.ofNat 32 len)] := by
        rw [bytesAt, List.range_succ, List.map_append]
        rfl
      rw [steps_succ, ih fun k inside => readable k (Nat.lt_succ_of_lt inside), place,
        streamCrc16_of_not_has memory (readable len (Nat.lt_succ_self len)), pageBytes_one, bytes,
        crc16_append, BitVec.setWidth_setWidth_of_le _ (by decide), BitVec.setWidth_eq]
      rfl

/-- The check of a range whose first page, also if the range is empty, and other
pages may be read is the bit-serial one of the stored bytes. -/
theorem crc16Direct_eq_stored (processor : Processor) (crc : BitVec 16) {len : Nat}
    (first : memory.Readable cpu addr)
    (readable : ∀ k < len, memory.Readable cpu (addr + BitVec.ofNat 32 k)) :
    memory.crc16Direct cpu processor crc addr len =
      some (crc16 crc (memory.bytesAt cpu addr len),
        processor.writeReg 0 ((crc16 crc (memory.bytesAt cpu addr len)).setWidth 32)) := by
  have visited : memory.visitMemory memory.streamCrc16 cpu addr len (some (crc.setWidth 32)) =
      some ((crc16 crc (memory.bytesAt cpu addr len)).setWidth 32) := by
    rcases Nat.eq_zero_or_pos len with rfl | some
    · rw [visitMemory, Nat.zero_min, visitPages, if_pos rfl, streamCrc16_of_not_has memory first,
        BitVec.setWidth_setWidth_of_le _ (by decide), BitVec.setWidth_eq]
      rfl
    · rw [(bytewise_of_succ memory.streamCrc16_succ).visitMemory_eq memory cpu addr some,
        steps_streamCrc16 crc readable]
  rw [crc16Direct, visited, Option.map_some, BitVec.setWidth_setWidth_of_le _ (by decide),
    BitVec.setWidth_eq]

/-- A check of memory with no access handler is the bit-serial one of the bytes
loaded, and checks of byte strings compose. -/
theorem crc16Direct_eq (cpu : Cpu) (processor : Processor) (ioLoad : BitVec 32 → BitVec 32)
    (memory : GuestMemory) (crc : BitVec 16) (addr : BitVec 32) (len : Nat)
    (first : memory.Readable cpu addr)
    (readable : ∀ k < len, memory.Readable cpu (addr + BitVec.ofNat 32 k)) :
    (∃ check, memory.crc16Direct cpu processor crc addr len =
        some (check, processor.writeReg 0 (check.setWidth 32)) ∧
      check = crc16 crc (memory.bytesAt cpu addr len) ∧
      ((∀ k < len, memory.Stored cpu (addr + BitVec.ofNat 32 k)) →
        check = crc16 crc (memory.loadedBytes cpu ioLoad addr len))) ∧
      (∀ crc x y, getCrc16 crc (x ++ y) = getCrc16 (getCrc16 crc x) y) ∧
        ∀ crc x, getCrc16 crc x = crc16 crc x := by
  refine ⟨⟨_, crc16Direct_eq_stored processor crc first readable, rfl, fun stored => ?_⟩,
    fun crc x y => ?_, getCrc16_eq⟩
  · rw [bytesAt_eq_loadedBytes ioLoad stored]
  · rw [getCrc16_eq, getCrc16_eq, getCrc16_eq, crc16_append]

/-- Two bytes, each on a page of its own. -/
theorem crc16Direct_eq_mirroredPage :
    (∃ check, mirroredPage.crc16Direct .arm9 .boot 0xFFFF 0x1FF 2 =
        some (check, Processor.boot.writeReg 0 (check.setWidth 32)) ∧
      check = crc16 0xFFFF (mirroredPage.bytesAt .arm9 0x1FF 2) ∧
      ((∀ k < 2, mirroredPage.Stored .arm9 (0x1FF + BitVec.ofNat 32 k)) →
        check = crc16 0xFFFF (mirroredPage.loadedBytes .arm9 (fun _ => 0) 0x1FF 2))) ∧
      (∀ crc x y, getCrc16 crc (x ++ y) = getCrc16 (getCrc16 crc x) y) ∧
        ∀ crc x, getCrc16 crc x = crc16 crc x :=
  crc16Direct_eq .arm9 .boot (fun _ => 0) mirroredPage 0xFFFF 0x1FF 2 (by decide) (by decide)

/-- A page of the queue's output alone, with nothing stored. -/
def queuePage : GuestMemory where
  map := fun _ _ => ⟨.transfer9, 0⟩
  blocks := fun _ =>
    { flags := PageFlag.accessHandler
      jit := fun _ _ => none
      recompiles := 0
      mem := fun _ => 0 }

/-- `crc16Direct` does not ask the handler for what it has, here a one. -/
theorem crc16Direct_omits_handler :
    (∀ k < 1, queuePage.Readable .arm9 (0x04100000 + BitVec.ofNat 32 k)) ∧
      (queuePage.crc16Direct .arm9 .boot 0 0x04100000 1).map Prod.fst ≠
        some (crc16 0 (queuePage.loadedBytes .arm9 (fun _ => 1) 0x04100000 1)) := by
  refine ⟨by decide, ?_⟩
  rw [crc16Direct_eq_stored .boot 0 (by decide) (by decide)]
  decide

/-! ### Changed bytes -/

theorem monic_crc16 : ReflectedCrc.Monic (0xA001 : BitVec 16) := rfl

/-- Two memories with the same check of a range that differ there in two
neighbouring bytes at most do not differ there at all. -/
theorem crc16Direct_detects (cpu : Cpu) (processor : Processor) (memory other : GuestMemory)
    (crc : BitVec 16) (addr : BitVec 32) (len start : Nat)
    (readable : memory.Readable cpu addr ∧
      ∀ k < len, memory.Readable cpu (addr + BitVec.ofNat 32 k))
    (readable' : other.Readable cpu addr ∧
      ∀ k < len, other.Readable cpu (addr + BitVec.ofNat 32 k))
    (near : ∀ k < len, k ≠ start → k ≠ start + 1 →
      memory.byteAt cpu (addr + BitVec.ofNat 32 k) = other.byteAt cpu (addr + BitVec.ofNat 32 k))
    (same : memory.crc16Direct cpu processor crc addr len =
      other.crc16Direct cpu processor crc addr len) :
    ∀ k < len,
      memory.byteAt cpu (addr + BitVec.ofNat 32 k) =
        other.byteAt cpu (addr + BitVec.ofNat 32 k) := by
  rw [crc16Direct_eq_stored processor crc readable.1 readable.2,
    crc16Direct_eq_stored processor crc readable'.1 readable'.2] at same
  have checks := (Prod.mk.inj (Option.some.inj same)).1
  have before : (memory.bytesAt cpu addr len).take start =
      (other.bytesAt cpu addr len).take start := by
    rw [bytesAt, bytesAt, ← List.map_take, ← List.map_take]
    apply List.map_congr_left
    intro k member
    rw [List.take_range, List.mem_range] at member
    exact near k (by omega) (by omega) (by omega)
  have behind : (memory.bytesAt cpu addr len).drop (start + 2) =
      (other.bytesAt cpu addr len).drop (start + 2) := by
    rw [bytesAt, bytesAt, ← List.map_drop, ← List.map_drop]
    apply List.map_congr_left
    intro k member
    obtain ⟨i, inside, rfl⟩ := List.mem_iff_getElem.mp member
    rw [List.length_drop, List.length_range] at inside
    rw [List.getElem_drop, List.getElem_range]
    exact near _ (by omega) (by omega) (by omega)
  have lengths : (memory.bytesAt cpu addr len).length = (other.bytesAt cpu addr len).length := by
    rw [bytesAt, bytesAt, List.length_map, List.length_map]
  have equal := ReflectedCrc.eq_of_check_window monic_crc16 lengths (by decide) before behind checks
  exact fun k inside => List.map_inj_left.mp equal k (List.mem_range.mpr inside)

/-- Six bytes over the end of a page, the neighbours on both sides of it among
them, and memory that differs behind them. -/
theorem crc16Direct_detects_mirroredPage :
    mirroredPage.bytesAt .arm9 0x1FD 6 =
      (mirroredPage.store8 .arm9 0x10 5).bytesAt .arm9 0x1FD 6 := by
  apply List.map_congr_left
  intro k inside
  refine crc16Direct_detects .arm9 .boot mirroredPage (mirroredPage.store8 .arm9 0x10 5) 0xFFFF
    0x1FD 6 2 (by decide) (by decide) (by decide) ?_ k (List.mem_range.mp inside)
  rw [crc16Direct_eq_stored .boot 0xFFFF (by decide) (by decide),
    crc16Direct_eq_stored .boot 0xFFFF (by decide) (by decide)]
  rfl

end GuestMemory

end Ndse
