import Mathlib.Data.BitVec
import Mathlib.Data.List.FinRange

/-!
# Words over a byte memory

A memory of bytes with addresses of any width, little endian words in it, and
words seen as a union of bytes and halfwords.  A narrow write into a word is the
same as rebuilding the word with one field replaced and writing it back.
-/

namespace ByteMemory

/-! ### Alignment -/

/-- Clearing the low bits rounds down. -/
theorem toNat_and_not_mask {width : Nat} (value : BitVec width) (k : Nat) :
    (value &&& ~~~(BitVec.ofNat width (2 ^ k - 1))).toNat = value.toNat / 2 ^ k * 2 ^ k := by
  have cleared : value &&& ~~~(BitVec.ofNat width (2 ^ k - 1)) = (value >>> k) <<< k := by
    apply BitVec.eq_of_getLsbD_eq
    intro bit inside
    simp only [BitVec.getLsbD_and, BitVec.getLsbD_not, BitVec.getLsbD_ofNat,
      Nat.testBit_two_pow_sub_one, BitVec.getLsbD_shiftLeft, BitVec.getLsbD_ushiftRight, inside]
    by_cases low : bit < k
    · simp [low]
    · simp [low, show k + (bit - k) = bit by omega]
  have bounded : value.toNat / 2 ^ k * 2 ^ k < 2 ^ width :=
    lt_of_le_of_lt (Nat.div_mul_le_self _ _) value.isLt
  rw [cleared, BitVec.toNat_shiftLeft, BitVec.toNat_ushiftRight, Nat.shiftRight_eq_div_pow,
    Nat.shiftLeft_eq, Nat.mod_eq_of_lt bounded]

theorem toNat_and_mask {width : Nat} (value : BitVec width) (k : Nat) (fits : k ≤ width) :
    (value &&& (BitVec.ofNat width (2 ^ k - 1))).toNat = value.toNat % 2 ^ k := by
  rw [BitVec.toNat_and, BitVec.toNat_ofNat, Nat.mod_eq_of_lt, Nat.and_two_pow_sub_one_eq_mod]
  have larger := Nat.pow_le_pow_right (show 0 < 2 by omega) fits
  have positive := Nat.two_pow_pos k
  omega

/-! ### Fields of a word -/

/-- The word with the bits from a position on replaced. -/
def setField {width : Nat} (word : BitVec 32) (position : Nat) (value : BitVec width) :
    BitVec 32 :=
  (word &&& ~~~((BitVec.allOnes width).setWidth 32 <<< position)) |||
    (value.setWidth 32 <<< position)

theorem getLsbD_setField {width : Nat} (word : BitVec 32) (position : Nat)
    (value : BitVec width) (bit : Nat) :
    (setField word position value).getLsbD bit =
      (decide (bit < 32) &&
        if position ≤ bit ∧ bit < position + width then value.getLsbD (bit - position)
        else word.getLsbD bit) := by
  by_cases inside : bit < 32
  · by_cases after : position ≤ bit
    · have reach : bit < position + width ↔ bit - position < width := by omega
      by_cases field : bit - position < width
      · simp [setField, inside, after, reach, field, not_lt.mpr after]
      · simp [setField, inside, after, reach, field, not_lt.mpr after,
          BitVec.getLsbD_of_ge value _ (not_lt.mp field)]
    · simp [setField, inside, after, not_le.mp after]
  · simp [inside, BitVec.getLsbD_of_ge _ _ (not_lt.mp inside)]

/-- A field reads back as it was set. -/
theorem extractLsb'_setField {width : Nat} (word : BitVec 32) (position : Nat)
    (value : BitVec width) (fits : position + width ≤ 32) :
    (setField word position value).extractLsb' position width = value := by
  apply BitVec.eq_of_getLsbD_eq
  intro bit inside
  have low : position + bit < 32 := by omega
  rw [BitVec.getLsbD_extractLsb', getLsbD_setField]
  simp [inside, low]

/-- What lies outside a replaced field stays. -/
theorem extractLsb'_setField_of_outside {width : Nat} (word : BitVec 32) (value : BitVec width)
    {position start length : Nat} (inside : start + length ≤ 32)
    (outside : start + length ≤ position ∨ position + width ≤ start) :
    (setField word position value).extractLsb' start length = word.extractLsb' start length := by
  apply BitVec.eq_of_getLsbD_eq
  intro bit short
  rw [BitVec.getLsbD_extractLsb', BitVec.getLsbD_extractLsb', getLsbD_setField,
    if_neg (by omega)]
  simp [show start + bit < 32 by omega]

/-- A part of a replaced field is a part of what was set. -/
theorem extractLsb'_setField_of_inside {width : Nat} (word : BitVec 32) (value : BitVec width)
    {position start length : Nat} (after : position ≤ start)
    (inside : start + length ≤ position + width) (fits : start + length ≤ 32) :
    (setField word position value).extractLsb' start length =
      value.extractLsb' (start - position) length := by
  apply BitVec.eq_of_getLsbD_eq
  intro bit short
  rw [BitVec.getLsbD_extractLsb', BitVec.getLsbD_extractLsb', getLsbD_setField,
    if_pos (by omega), show start - position + bit = start + bit - position by omega]
  simp [show start + bit < 32 by omega]

theorem extractLsb'_extractLsb' {width : Nat} (value : BitVec width)
    {outer inner start length : Nat} (inside : start + length ≤ inner) :
    (value.extractLsb' outer inner).extractLsb' start length =
      value.extractLsb' (outer + start) length := by
  apply BitVec.eq_of_getLsbD_eq
  intro bit short
  simp [short, show start + bit < inner by omega, Nat.add_assoc]

/-- Setting some of the bytes of a word, one after the other, to those of
another word. -/
theorem getLsbD_foldl_setField (value : BitVec 32) (bytes : List (Fin 4)) (word : BitVec 32)
    (bit : Nat) (inside : bit < 32) :
    (bytes.foldl (fun (word : BitVec 32) (i : Fin 4) =>
      setField word (8 * i.val) (value.extractLsb' (8 * i.val) 8)) word).getLsbD bit =
        if (⟨bit / 8, by omega⟩ : Fin 4) ∈ bytes then value.getLsbD bit
        else word.getLsbD bit := by
  induction bytes generalizing word with
  | nil => simp
  | cons i bytes ih =>
      rw [List.foldl_cons, ih]
      by_cases later : (⟨bit / 8, by omega⟩ : Fin 4) ∈ bytes
      · rw [if_pos later, if_pos (List.mem_cons_of_mem _ later)]
      · rw [if_neg later, getLsbD_setField]
        by_cases now : (⟨bit / 8, by omega⟩ : Fin 4) = i
        · have quotient : bit / 8 = i.val := congrArg Fin.val now
          have field : 8 * i.val ≤ bit ∧ bit < 8 * i.val + 8 := by omega
          have short : bit - 8 * i.val < 8 := by omega
          have offset : 8 * i.val + (bit - 8 * i.val) = bit := by omega
          rw [if_pos field, if_pos (List.mem_cons.mpr (Or.inl now))]
          simp [inside, short, offset]
        · have field : ¬(8 * i.val ≤ bit ∧ bit < 8 * i.val + 8) := by
            intro field
            exact now (Fin.ext (show bit / 8 = i.val by omega))
          rw [if_neg field, if_neg (by simp [now, later])]
          simp [inside]

/-- Setting all four bytes of a word in any order gives the other word. -/
theorem foldl_setField_of_perm (value word : BitVec 32) {bytes : List (Fin 4)}
    (all : bytes.Perm (List.finRange 4)) :
    bytes.foldl (fun (word : BitVec 32) (i : Fin 4) =>
      setField word (8 * i.val) (value.extractLsb' (8 * i.val) 8)) word = value := by
  apply BitVec.eq_of_getLsbD_eq
  intro bit inside
  rw [getLsbD_foldl_setField value bytes word bit inside, if_pos]
  exact all.mem_iff.mpr (List.mem_finRange _)

/-! ### Reading and writing words -/

variable {space : Nat}

/-- The little endian word at an address. -/
def readWord (mem : BitVec space → BitVec 8) (base : BitVec space) : BitVec 32 :=
  mem (base + 3) ++ mem (base + 2) ++ mem (base + 1) ++ mem base

/-- Write the low bytes of a value from an address on. -/
def writeBytes (mem : BitVec space → BitVec 8) (base : BitVec space) (size : Nat)
    (value : BitVec 32) : BitVec space → BitVec 8 :=
  fun address =>
    if (address - base).toNat < size then value.extractLsb' (8 * (address - base).toNat) 8
    else mem address

theorem getLsbD_readWord (mem : BitVec space → BitVec 8) (base : BitVec space) {bit : Nat}
    (inside : bit < 32) :
    (readWord mem base).getLsbD bit =
      (mem (base + BitVec.ofNat space (bit / 8))).getLsbD (bit % 8) := by
  have bytes : (readWord mem base).getLsbD bit =
      if bit < 8 then (mem base).getLsbD bit
      else if bit - 8 < 8 then (mem (base + 1)).getLsbD (bit - 8)
      else if bit - 8 - 8 < 8 then (mem (base + 2)).getLsbD (bit - 8 - 8)
      else (mem (base + 3)).getLsbD (bit - 8 - 8 - 8) := by
    rw [readWord, BitVec.getLsbD_append, BitVec.getLsbD_append, BitVec.getLsbD_append]
  have lane : bit / 8 = 0 ∨ bit / 8 = 1 ∨ bit / 8 = 2 ∨ bit / 8 = 3 := by omega
  rw [bytes]
  rcases lane with zero | one | two | three
  · rw [if_pos (by omega), zero, Nat.mod_eq_of_lt (by omega)]
    simp
  · rw [if_neg (by omega), if_pos (by omega), one, show bit - 8 = bit % 8 by omega]
    rfl
  · rw [if_neg (by omega), if_neg (by omega), if_pos (by omega), two,
      show bit - 8 - 8 = bit % 8 by omega]
    rfl
  · rw [if_neg (by omega), if_neg (by omega), if_neg (by omega), three,
      show bit - 8 - 8 - 8 = bit % 8 by omega]
    rfl

/-- A byte of a word is the byte at its place. -/
theorem extractLsb'_readWord (mem : BitVec space → BitVec 8) (base : BitVec space) {i : Nat}
    (inside : i < 4) :
    (readWord mem base).extractLsb' (8 * i) 8 = mem (base + BitVec.ofNat space i) := by
  apply BitVec.eq_of_getLsbD_eq
  intro bit short
  rw [BitVec.getLsbD_extractLsb', getLsbD_readWord mem base (by omega),
    show (8 * i + bit) / 8 = i by omega, show (8 * i + bit) % 8 = bit by omega]
  simp [short]

private theorem toNat_offset (large : 2 < space) {i : Nat} (inside : i < 4)
    (base : BitVec space) : (base + BitVec.ofNat space i - base).toNat = i := by
  have power : 2 ^ 3 ≤ 2 ^ space := Nat.pow_le_pow_right (by omega) large
  rw [BitVec.add_comm, BitVec.add_sub_cancel, BitVec.toNat_ofNat]
  exact Nat.mod_eq_of_lt (by omega)

/-- A written word reads back. -/
theorem readWord_writeBytes (large : 2 < space) (mem : BitVec space → BitVec 8)
    (base : BitVec space) (value : BitVec 32) :
    readWord (writeBytes mem base 4 value) base = value := by
  apply BitVec.eq_of_getLsbD_eq
  intro bit inside
  have lane : bit / 8 < 4 := by omega
  rw [getLsbD_readWord _ base inside, writeBytes, toNat_offset large lane, if_pos lane,
    BitVec.getLsbD_extractLsb', show 8 * (bit / 8) + bit % 8 = bit by omega]
  simp [Nat.mod_lt]

/-- The last of two writes of the same word stays. -/
theorem writeBytes_writeBytes (mem : BitVec space → BitVec 8) (base : BitVec space)
    (size : Nat) (first second : BitVec 32) :
    writeBytes (writeBytes mem base size first) base size second =
      writeBytes mem base size second := by
  funext address
  simp only [writeBytes]
  split <;> rfl

/-- Writing what is there changes nothing. -/
theorem writeBytes_readWord (mem : BitVec space → BitVec 8) (base : BitVec space) :
    writeBytes mem base 4 (readWord mem base) = mem := by
  funext address
  rw [writeBytes]
  split
  · next inside =>
    rw [extractLsb'_readWord mem base inside, BitVec.ofNat_toNat, BitVec.setWidth_eq,
      BitVec.add_comm, BitVec.sub_add_cancel]
  · rfl

private theorem toNat_sub_offset (large : 2 < space) (address base : BitVec space)
    {offset : Nat} (inside : offset ≤ 4) :
    (address - (base + BitVec.ofNat space offset)).toNat =
      if offset ≤ (address - base).toNat then (address - base).toNat - offset
      else 2 ^ space + (address - base).toNat - offset := by
  have power : 2 ^ 3 ≤ 2 ^ space := Nat.pow_le_pow_right (by omega) large
  have bounded := (address - base).isLt
  rw [← BitVec.sub_sub, BitVec.toNat_sub, BitVec.toNat_ofNat,
    Nat.mod_eq_of_lt (show offset < 2 ^ space by omega)]
  split
  · rw [show 2 ^ space - offset + (address - base).toNat =
      (address - base).toNat - offset + 2 ^ space by omega, Nat.add_mod_right,
      Nat.mod_eq_of_lt (by omega)]
  · rw [Nat.mod_eq_of_lt (by omega)]
    omega

/-- A narrow write is a write of the word with one field replaced. -/
theorem writeBytes_eq_setField (large : 2 < space) (mem : BitVec space → BitVec 8)
    (base : BitVec space) (value : BitVec 32) {offset size : Nat} (fits : offset + size ≤ 4) :
    writeBytes mem (base + BitVec.ofNat space offset) size value =
      writeBytes mem base 4
        (setField (readWord mem base) (8 * offset) (value.setWidth (8 * size))) := by
  have power : 2 ^ 3 ≤ 2 ^ space := Nat.pow_le_pow_right (by omega) large
  funext address
  have whole : base + BitVec.ofNat space (address - base).toNat = address := by
    rw [BitVec.ofNat_toNat, BitVec.setWidth_eq, BitVec.add_comm, BitVec.sub_add_cancel]
  simp only [writeBytes, toNat_sub_offset large address base (show offset ≤ 4 by omega)]
  by_cases field : offset ≤ (address - base).toNat ∧ (address - base).toNat < offset + size
  · -- the byte belongs to the replaced field
    rw [if_pos field.1, if_pos (by omega), if_pos (by omega)]
    apply BitVec.eq_of_getLsbD_eq
    intro bit short
    rw [BitVec.getLsbD_extractLsb', BitVec.getLsbD_extractLsb', getLsbD_setField,
      if_pos (by omega), BitVec.getLsbD_setWidth]
    generalize (address - base).toNat = place at field ⊢
    have shifted : 8 * place + bit - 8 * offset = 8 * (place - offset) + bit := by omega
    simp [shifted, show 8 * place + bit < 32 by omega,
      show 8 * (place - offset) + bit < 8 * size by omega]
  · rw [if_neg (by split <;> omega)]
    split
    · next inside =>
      rw [extractLsb'_setField_of_outside _ _ (by omega) (by omega),
        extractLsb'_readWord mem base inside, whole]
    · rfl

end ByteMemory
