import Ndse.PageVisits

/-!
# Debug strings

A debug message is pulled out of guest memory into a buffer of fixed length, up to
a zero or a page that cannot be read.  The zero is written once more at its end.
-/

namespace Ndse

/-- `stream_debugstring::MAX_LEN`. -/
def debugMaxLen : Nat := 4096

/-- `stream_debugstring::context`; `string` goes on with what is behind the buffer. -/
structure DebugContext where
  string : Nat → BitVec 8
  running : Bool
  pos : Nat

namespace DebugContext

/-- `ctx.string[ctx.pos++] = byte`. -/
def put (ctx : DebugContext) (byte : BitVec 8) : DebugContext :=
  { ctx with
    string := Function.update ctx.string ctx.pos byte
    pos := ctx.pos + 1 }

/-- The label `end`. -/
def finish (ctx : DebugContext) : DebugContext :=
  { ctx.put 0 with running := false }

/-- The loop over the bytes of a page. -/
def copy (ctx : DebugContext) : List (BitVec 8) → DebugContext
  | [] => ctx
  | byte :: mem => if byte = 0 then (ctx.put byte).finish else (ctx.put byte).copy mem

end DebugContext

namespace GuestMemory

/-- `stream_debugstring::process`. -/
def streamDebugstring (memory : GuestMemory) (b : MemoryBlock PhysRegion) (subaddr : BitVec 9)
    (size : Nat) (ctx : DebugContext) : DebugContext :=
  if !ctx.running then ctx
  else if (memory.blocks b).has (PageFlag.invalid ||| PageFlag.readProt) then ctx.finish
  else ctx.copy (memory.pageBytes b subaddr size)

/-- Pull the string as `HLE<T>::debug_magic` does. -/
def debugString (memory : GuestMemory) (cpu : Cpu) (addr : BitVec 32)
    (string : Nat → BitVec 8) : DebugContext :=
  memory.visitMemory memory.streamDebugstring cpu addr debugMaxLen ⟨string, true, 0⟩

/-- The string ends at a zero or where memory cannot be read. -/
def EndsAt (memory : GuestMemory) (cpu : Cpu) (addr : BitVec 32) : Prop :=
  ¬memory.Readable cpu addr ∨ memory.byteAt cpu addr = 0

/-- A string was captured within the buffer. -/
structure Captured (memory : GuestMemory) (cpu : Cpu) (addr : BitVec 32)
    (string after : Nat → BitVec 8) : Prop where
  behind : ∀ index, debugMaxLen ≤ index → after index = string index
  terminated : ∃ length < debugMaxLen, after length = 0 ∧
    (∀ k < length, ¬memory.EndsAt cpu (addr + BitVec.ofNat 32 k) ∧
      after k = memory.byteAt cpu (addr + BitVec.ofNat 32 k)) ∧
    (memory.EndsAt cpu (addr + BitVec.ofNat 32 length) ∨ length + 1 = debugMaxLen)

/-- The string ends within the buffer, and a zero leaves room for another. -/
def Fits (memory : GuestMemory) (cpu : Cpu) (addr : BitVec 32) : Prop :=
  ∃ length < debugMaxLen, (∀ k < length, ¬memory.EndsAt cpu (addr + BitVec.ofNat 32 k)) ∧
    (¬memory.Readable cpu (addr + BitVec.ofNat 32 length) ∨
      memory.byteAt cpu (addr + BitVec.ofNat 32 length) = 0 ∧ length + 1 < debugMaxLen)

variable {memory : GuestMemory} {cpu : Cpu} {addr : BitVec 32} {ctx : DebugContext}

/-! ### Byte by byte -/

theorem copy_append (mem more : List (BitVec 8)) (running : ctx.running = true) :
    ctx.copy (mem ++ more) =
      if (ctx.copy mem).running then (ctx.copy mem).copy more else ctx.copy mem := by
  induction mem generalizing ctx with
  | nil => exact (if_pos running).symm
  | cons byte mem ih =>
      rw [List.cons_append, DebugContext.copy, DebugContext.copy]
      split
      · rfl
      · exact ih running

theorem streamDebugstring_of_stopped (memory : GuestMemory) (b : MemoryBlock PhysRegion)
    (subaddr : BitVec 9) (size : Nat) (stopped : ctx.running = false) :
    memory.streamDebugstring b subaddr size ctx = ctx := by
  rw [streamDebugstring, stopped]
  rfl

theorem streamDebugstring_of_running (memory : GuestMemory) (b : MemoryBlock PhysRegion)
    (subaddr : BitVec 9) (size : Nat) (running : ctx.running = true) :
    memory.streamDebugstring b subaddr size ctx =
      if (memory.blocks b).has (PageFlag.invalid ||| PageFlag.readProt) then ctx.finish
      else ctx.copy (memory.pageBytes b subaddr size) := by
  rw [streamDebugstring, running]
  rfl

theorem streamDebugstring_succ (memory : GuestMemory) (b : MemoryBlock PhysRegion)
    (subaddr : BitVec 9) (size : Nat) (ctx : DebugContext) :
    memory.streamDebugstring b subaddr (size + 1) ctx =
      memory.streamDebugstring b (subaddr + BitVec.ofNat 9 size) 1
        (memory.streamDebugstring b subaddr size ctx) := by
  cases running : ctx.running with
  | false =>
      rw [streamDebugstring_of_stopped _ _ _ _ running,
        streamDebugstring_of_stopped _ _ _ _ running,
        streamDebugstring_of_stopped _ _ _ _ running]
  | true =>
      rw [streamDebugstring_of_running _ _ _ _ running,
        streamDebugstring_of_running _ _ _ _ running]
      by_cases has : (memory.blocks b).has (PageFlag.invalid ||| PageFlag.readProt)
      · rw [if_pos has, if_pos has, streamDebugstring_of_stopped _ _ _ _ rfl]
      · rw [if_neg has, if_neg has, pageBytes_succ, copy_append _ _ running, streamDebugstring,
          if_neg has]
        cases (ctx.copy (memory.pageBytes b subaddr size)).running <;> rfl

/-- The bytes of the string are copied one after the other. -/
theorem debugString_eq (memory : GuestMemory) (cpu : Cpu) (addr : BitVec 32)
    (string : Nat → BitVec 8) :
    memory.debugString cpu addr string =
      steps (fun place => memory.streamDebugstring place.1 place.2 1) memory cpu addr debugMaxLen
        ⟨string, true, 0⟩ :=
  (bytewise_of_succ memory.streamDebugstring_succ).visitMemory_eq memory cpu addr (by decide) _

/-- The step of one byte. -/
theorem streamDebugstring_place (running : ctx.running = true) :
    memory.streamDebugstring (memory.place cpu addr).1 (memory.place cpu addr).2 1 ctx =
      if ¬memory.Readable cpu addr then ctx.finish
      else if memory.byteAt cpu addr = 0 then (ctx.put (memory.byteAt cpu addr)).finish
      else ctx.put (memory.byteAt cpu addr) := by
  rw [streamDebugstring_of_running _ _ _ _ running, pageBytes_one]
  by_cases readable : memory.Readable cpu addr
  · rw [if_neg (not_not.mpr readable), place, if_neg readable]
    rfl
  · rw [if_pos readable]
    exact if_pos (not_not.mp readable)

theorem steps_of_stopped (count : Nat) (addr : BitVec 32) (stopped : ctx.running = false) :
    steps (fun place => memory.streamDebugstring place.1 place.2 1) memory cpu addr count ctx =
      ctx := by
  induction count with
  | zero => rfl
  | succ count ih => rw [steps_succ, ih, streamDebugstring_of_stopped _ _ _ _ stopped]

/-! ### The buffer -/

/-- The buffer with some bytes of memory at its start. -/
def filled (memory : GuestMemory) (cpu : Cpu) (addr : BitVec 32) (string : Nat → BitVec 8)
    (count index : Nat) : BitVec 8 :=
  if index < count then memory.byteAt cpu (addr + BitVec.ofNat 32 index) else string index

theorem filled_succ (memory : GuestMemory) (cpu : Cpu) (addr : BitVec 32)
    (string : Nat → BitVec 8) (count : Nat) :
    memory.filled cpu addr string (count + 1) =
      Function.update (memory.filled cpu addr string count) count
        (memory.byteAt cpu (addr + BitVec.ofNat 32 count)) := by
  funext index
  rw [Function.update_apply, filled, filled]
  by_cases last : index = count
  · rw [if_pos last, if_pos (by omega), last]
  · rw [if_neg last]
    exact if_congr (by omega) rfl rfl

/-- Up to its end the string is copied. -/
theorem steps_of_not_endsAt (string : Nat → BitVec 8) {count : Nat}
    (more : ∀ k < count, ¬memory.EndsAt cpu (addr + BitVec.ofNat 32 k)) :
    steps (fun place => memory.streamDebugstring place.1 place.2 1) memory cpu addr count
        ⟨string, true, 0⟩ =
      ⟨memory.filled cpu addr string count, true, count⟩ := by
  induction count with
  | zero => rfl
  | succ count ih =>
      obtain ⟨readable, byte⟩ := not_or.mp (more count (Nat.lt_succ_self count))
      rw [steps_succ, ih fun k inside => more k (Nat.lt_succ_of_lt inside),
        streamDebugstring_place rfl, if_neg readable, if_neg byte, filled_succ]
      rfl

/-- Behind the end of the string nothing is done any more. -/
theorem debugString_of_first (string : Nat → BitVec 8) {length : Nat}
    (inside : length < debugMaxLen)
    (more : ∀ k < length, ¬memory.EndsAt cpu (addr + BitVec.ofNat 32 k))
    (ends : memory.EndsAt cpu (addr + BitVec.ofNat 32 length)) :
    (memory.debugString cpu addr string).string =
      if memory.Readable cpu (addr + BitVec.ofNat 32 length) then
        Function.update (Function.update (memory.filled cpu addr string length) length 0)
          (length + 1) 0
      else Function.update (memory.filled cpu addr string length) length 0 := by
  have split : debugMaxLen = length + 1 + (debugMaxLen - (length + 1)) := by omega
  rw [debugString_eq, split, steps_add, steps_succ, steps_of_not_endsAt string more,
    streamDebugstring_place rfl]
  by_cases readable : memory.Readable cpu (addr + BitVec.ofNat 32 length)
  · have byte := ends.resolve_left (not_not.mpr readable)
    rw [if_neg (not_not.mpr readable), if_pos byte, byte, if_pos readable, steps_of_stopped _ _ rfl]
    rfl
  · rw [if_pos readable, if_neg readable, steps_of_stopped _ _ rfl]
    rfl

/-- Either no byte of the string is its end or there is a first one. -/
theorem exists_first_end (memory : GuestMemory) (cpu : Cpu) (addr : BitVec 32) (count : Nat) :
    (∀ k < count, ¬memory.EndsAt cpu (addr + BitVec.ofNat 32 k)) ∨
      ∃ length < count, (∀ k < length, ¬memory.EndsAt cpu (addr + BitVec.ofNat 32 k)) ∧
        memory.EndsAt cpu (addr + BitVec.ofNat 32 length) := by
  induction count with
  | zero => exact Or.inl fun k none => absurd none (Nat.not_lt_zero k)
  | succ count ih =>
      rcases ih with more | ⟨length, inside, first⟩
      · by_cases ends : memory.EndsAt cpu (addr + BitVec.ofNat 32 count)
        · exact Or.inr ⟨count, Nat.lt_succ_self count, more, ends⟩
        · refine Or.inl fun k inside => ?_
          rcases Nat.lt_succ_iff_lt_or_eq.mp inside with before | rfl
          · exact more k before
          · exact ends
      · exact Or.inr ⟨length, Nat.lt_succ_of_lt inside, first⟩

theorem Fits.captured (fits : memory.Fits cpu addr) (string : Nat → BitVec 8) :
    memory.Captured cpu addr string (memory.debugString cpu addr string).string := by
  obtain ⟨length, inside, more, last⟩ := fits
  have ends : memory.EndsAt cpu (addr + BitVec.ofNat 32 length) := last.imp_right And.left
  have prefix_of {after : Nat → BitVec 8}
      (text : ∀ k ≤ length, after k =
        Function.update (memory.filled cpu addr string length) length 0 k) :
      ∃ length < debugMaxLen, after length = 0 ∧
        (∀ k < length, ¬memory.EndsAt cpu (addr + BitVec.ofNat 32 k) ∧
          after k = memory.byteAt cpu (addr + BitVec.ofNat 32 k)) ∧
        (memory.EndsAt cpu (addr + BitVec.ofNat 32 length) ∨ length + 1 = debugMaxLen) := by
    refine ⟨length, inside, ?_, fun k before => ⟨more k before, ?_⟩, Or.inl ends⟩
    · rw [text length (Nat.le_refl length), Function.update_self]
    · rw [text k before.le, Function.update_of_ne before.ne, filled, if_pos before]
  have behind (index : Nat) (outside : debugMaxLen ≤ index) :
      Function.update (memory.filled cpu addr string length) length 0 index = string index := by
    rw [Function.update_of_ne (by omega), filled, if_neg (by omega)]
  rw [debugString_of_first string inside more ends]
  by_cases readable : memory.Readable cpu (addr + BitVec.ofNat 32 length)
  · obtain ⟨-, room⟩ := last.resolve_left (not_not.mpr readable)
    rw [if_pos readable]
    refine ⟨fun index outside => ?_, prefix_of fun k before => ?_⟩
    · rw [Function.update_of_ne (by omega), behind index outside]
    · rw [Function.update_of_ne (by omega)]
  · rw [if_neg readable]
    exact ⟨behind, prefix_of fun k _ => rfl⟩

/-- A string without an end has no zero put behind it. -/
theorem debugString_of_not_endsAt (string : Nat → BitVec 8)
    (more : ∀ k < debugMaxLen, ¬memory.EndsAt cpu (addr + BitVec.ofNat 32 k)) :
    (memory.debugString cpu addr string).string = memory.filled cpu addr string debugMaxLen := by
  rw [debugString_eq, steps_of_not_endsAt string more]

/-- A string is captured within the buffer and closed by a zero exactly if it fits. -/
theorem debugString_captured_iff (memory : GuestMemory) (cpu : Cpu) (addr : BitVec 32) :
    (∀ string, memory.Captured cpu addr string (memory.debugString cpu addr string).string) ↔
      memory.Fits cpu addr := by
  refine ⟨fun captured => ?_, Fits.captured⟩
  rcases memory.exists_first_end cpu addr debugMaxLen with more | ⟨length, inside, more, ends⟩
  · obtain ⟨length, inside, zero, -⟩ := (captured fun _ => 0).terminated
    rw [debugString_of_not_endsAt _ more, filled, if_pos inside] at zero
    exact absurd (Or.inr zero) (more length inside)
  · refine ⟨length, inside, more, ?_⟩
    by_cases readable : memory.Readable cpu (addr + BitVec.ofNat 32 length)
    · refine Or.inr ⟨ends.resolve_left (not_not.mpr readable), ?_⟩
      by_contra full
      have last : length + 1 = debugMaxLen := by omega
      have kept := (captured fun _ => 1).behind debugMaxLen (Nat.le_refl _)
      rw [debugString_of_first _ inside more ends, if_pos readable, ← last,
        Function.update_self] at kept
      exact absurd kept (by decide)
    · exact Or.inl readable

/-- Readable memory full of one letter. -/
def letters : GuestMemory where
  map := fun _ _ => ⟨.ram, 0⟩
  blocks := fun _ =>
    { flags := 0
      jit := fun _ _ => none
      recompiles := 0
      mem := fun _ => 0x41 }

/-- No zero is in the buffer. -/
theorem debugString_unterminated :
    ¬∃ index < debugMaxLen,
      (letters.debugString .arm9 0x02000000 fun _ => 0).string index = 0 := by
  have readable (addr : BitVec 32) : letters.Readable .arm9 addr := by
    apply not_not.mpr
    change (0 : BitVec 32) &&& (PageFlag.invalid ||| PageFlag.readProt) = 0
    decide
  have letter (addr : BitVec 32) : letters.byteAt .arm9 addr ≠ 0 := by
    change (0x41 : BitVec 8) ≠ 0
    decide
  rintro ⟨index, inside, zero⟩
  rw [debugString_of_not_endsAt _ fun k _ => not_or.mpr ⟨not_not.mpr (readable _), letter _⟩,
    filled, if_pos inside] at zero
  exact letter _ zero

end GuestMemory

end Ndse
