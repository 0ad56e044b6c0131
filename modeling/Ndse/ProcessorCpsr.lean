import Ndse.Processor
import Mathlib.Tactic.IntervalCases

/-!
# The write/read law of the status register

Reading the status register after a masked write should return the old value
with the selected fields replaced.  `loadcpsr` misses this in two ways: a bank
switch leaves the condition flags of the write behind in the bank it comes
from, and bit 27, which `loadcpsr` counts among the condition flags, has no
place in the host word that `storecpsr` rebuilds them from.  The law is proved
to hold exactly when neither matters.
-/

namespace Ndse

/-- `cpsr_masks`: the masks an instruction can name, one bit per byte field. -/
def cpsrMasks (fields : Fin 16) : BitVec 32 :=
  #v[0x00000000, 0x000000FF, 0x0000FF00, 0x0000FFFF,
    0x00FF0000, 0x00FF00FF, 0x00FFFF00, 0x00FFFFFF,
    0xFF000000, 0xFF0000FF, 0xFF00FF00, 0xFF00FFFF,
    0xFFFF0000, 0xFFFF00FF, 0xFFFFFF00, 0xFFFFFFFF][fields]

/-- The masked write selects the byte that holds the condition flags. -/
def SelectsFlags (fields : Fin 16) : Prop := fields.val.testBit 3

instance (fields : Fin 16) : Decidable (SelectsFlags fields) :=
  inferInstanceAs (Decidable (_ = true))

theorem psrOfX86_x86OfPsr (cpsr : BitVec 32) :
    psrOfX86 (x86OfPsr cpsr) = cpsr &&& 0xF0000000 := by
  apply BitVec.eq_of_getLsbD_eq
  intro i hi
  interval_cases i <;> simp [psrOfX86, x86OfPsr]

/-- Only the four condition flags come back from a host word. -/
theorem psrOfX86_and (x86Flags : BitVec 32) :
    psrOfX86 x86Flags &&& 0xF0000000 = psrOfX86 x86Flags := by
  apply BitVec.eq_of_getLsbD_eq
  intro i hi
  interval_cases i <;> simp [psrOfX86]

theorem cpsrMasks_flags_selected :
    ∀ fields : Fin 16, SelectsFlags fields → cpsrMasks fields &&& 0xFF000000 = 0xFF000000 := by
  decide

theorem cpsrMasks_flags_kept :
    ∀ fields : Fin 16, ¬ SelectsFlags fields → cpsrMasks fields &&& 0xFF000000 = 0 := by
  decide

theorem cpsrMasks_touches_flags :
    ∀ fields : Fin 16, cpsrMasks fields &&& 0xF8000000 ≠ 0 ↔ SelectsFlags fields := by
  decide

/-! ### The status word as flag bits over control bits -/

private theorem getLsbD_controlBits {i : Nat} (hi : i < 32) :
    (0x07FFFFFF : BitVec 32).getLsbD i = decide (i < 27) := by
  interval_cases i <;> rfl

private theorem getLsbD_flagBits {i : Nat} (hi : i < 32) :
    (0xF0000000 : BitVec 32).getLsbD i = decide (28 ≤ i) := by
  interval_cases i <;> rfl

private theorem getLsbD_flagByte {i : Nat} (hi : i < 32) :
    (0xFF000000 : BitVec 32).getLsbD i = decide (24 ≤ i) := by
  interval_cases i <;> rfl

theorem getLsbD_mergeMasked (old value mask : BitVec 32) {i : Nat} (hi : i < 32) :
    (mergeMasked old value mask).getLsbD i =
      if mask.getLsbD i then value.getLsbD i else old.getLsbD i := by
  simp only [mergeMasked, BitVec.getLsbD_or, BitVec.getLsbD_and, BitVec.getLsbD_not, hi,
    decide_true, Bool.true_and]
  cases mask.getLsbD i <;> simp

private theorem getLsbD_of_and_ones {mask : BitVec 32}
    (selected : mask &&& 0xFF000000 = 0xFF000000) {i : Nat} (low : 24 ≤ i) (hi : i < 32) :
    mask.getLsbD i = true := by
  have bit := congrArg (BitVec.getLsbD · i) selected
  simpa only [BitVec.getLsbD_and, getLsbD_flagByte hi, low, decide_true, Bool.and_true]
    using bit

private theorem getLsbD_of_and_zero {mask : BitVec 32}
    (kept : mask &&& 0xFF000000 = 0) {i : Nat} (low : 24 ≤ i) (hi : i < 32) :
    mask.getLsbD i = false := by
  have bit := congrArg (BitVec.getLsbD · i) kept
  rw [BitVec.getLsbD_and, getLsbD_flagByte hi] at bit
  simpa [low] using bit

/-- A word whose only bits are condition flags has no others. -/
private theorem getLsbD_of_and_flags {flags : BitVec 32}
    (confined : flags &&& 0xF0000000 = flags) {i : Nat} (low : i < 28) :
    flags.getLsbD i = false := by
  have bit := congrArg (BitVec.getLsbD · i) confined
  have high : ¬ 28 ≤ i := by omega
  simpa only [BitVec.getLsbD_and, getLsbD_flagBits (show i < 32 by omega), high,
    decide_false, Bool.and_false] using bit.symm

section StatusWord

variable {cpsr value mask before after : BitVec 32}
  (beforeFlags : before &&& 0xF0000000 = before) (afterFlags : after &&& 0xF0000000 = after)
include beforeFlags afterFlags

/-- When the flag byte is written, the word read back is the merged word
exactly if the written bit 27 is clear and the flags read are those written. -/
theorem statusWord_eq_merge_of_selected (selected : mask &&& 0xFF000000 = 0xFF000000) :
    ((mergeMasked cpsr value mask &&& 0x07FFFFFF) ||| after =
        mergeMasked ((cpsr &&& 0x07FFFFFF) ||| before) value mask) ↔
      value.getLsbD 27 = false ∧ after = value &&& 0xF0000000 := by
  constructor
  · intro equal
    have bit (i : Nat) (hi : i < 32) (low : 24 ≤ i) :
        ((mergeMasked cpsr value mask).getLsbD i && decide (i < 27) || after.getLsbD i) =
          value.getLsbD i := by
      have one := congrArg (BitVec.getLsbD · i) equal
      simpa only [BitVec.getLsbD_or, BitVec.getLsbD_and, getLsbD_controlBits hi,
        getLsbD_mergeMasked _ _ _ hi, getLsbD_of_and_ones selected low hi, if_true] using one
    refine ⟨?_, BitVec.eq_of_getLsbD_eq fun i hi => ?_⟩
    · have sticky := bit 27 (by omega) (by omega)
      rw [getLsbD_of_and_flags afterFlags (by omega)] at sticky
      simpa using sticky.symm
    · rw [BitVec.getLsbD_and, getLsbD_flagBits hi]
      by_cases low : i < 28
      · simp [getLsbD_of_and_flags afterFlags low, low]
      · have flag := bit i hi (by omega)
        simpa [show ¬ i < 27 by omega, show 28 ≤ i by omega] using flag
  · rintro ⟨sticky, rfl⟩
    apply BitVec.eq_of_getLsbD_eq
    intro i hi
    simp only [BitVec.getLsbD_or, BitVec.getLsbD_and, getLsbD_mergeMasked _ _ _ hi,
      getLsbD_controlBits hi, getLsbD_flagBits hi]
    by_cases low : i < 24
    · have clear := getLsbD_of_and_flags beforeFlags (show i < 28 by omega)
      simp [clear, show i < 27 by omega, show ¬ 28 ≤ i by omega]
    · rw [getLsbD_of_and_ones selected (Nat.le_of_not_lt low) hi]
      obtain below | rfl | above : i < 27 ∨ i = 27 ∨ 28 ≤ i := by omega
      · simp [below, show ¬ 28 ≤ i by omega]
      · simp only [if_true, sticky]
        simp
      · simp [above, show ¬ i < 27 by omega]

/-- When the flag byte is kept, the word read back is the merged word exactly
if the flags read are the ones read before. -/
theorem statusWord_eq_merge_of_kept (kept : mask &&& 0xFF000000 = 0) :
    ((mergeMasked cpsr value mask &&& 0x07FFFFFF) ||| after =
        mergeMasked ((cpsr &&& 0x07FFFFFF) ||| before) value mask) ↔ after = before := by
  constructor
  · intro equal
    apply BitVec.eq_of_getLsbD_eq
    intro i hi
    by_cases low : i < 28
    · rw [getLsbD_of_and_flags afterFlags low, getLsbD_of_and_flags beforeFlags low]
    · have one := congrArg (BitVec.getLsbD · i) equal
      simp only [BitVec.getLsbD_or, BitVec.getLsbD_and, getLsbD_controlBits hi,
        getLsbD_mergeMasked _ _ _ hi,
        getLsbD_of_and_zero kept (show 24 ≤ i by omega) hi] at one
      simpa [show ¬ i < 27 by omega] using one
  · rintro rfl
    apply BitVec.eq_of_getLsbD_eq
    intro i hi
    simp only [BitVec.getLsbD_or, BitVec.getLsbD_and, getLsbD_controlBits hi,
      getLsbD_mergeMasked _ _ _ hi]
    by_cases low : i < 24
    · have clear := getLsbD_of_and_flags beforeFlags (show i < 28 by omega)
      simp [clear, show i < 27 by omega]
    · simp [getLsbD_of_and_zero kept (Nat.le_of_not_lt low) hi]

end StatusWord

/-! ### The law -/

/-- Reading back after a masked write yields the old word with the masked bits
replaced. -/
def CpsrLaw (processor : Processor) (value mask : BitVec 32) : Prop :=
  storecpsr (loadcpsr processor value mask).1 =
    mergeMasked (storecpsr processor) value mask

instance (processor : Processor) (value mask : BitVec 32) :
    Decidable (CpsrLaw processor value mask) :=
  inferInstanceAs (Decidable (_ = _))

/-- The processor's bank is the one its mode field names. -/
def ModeAgrees (processor : Processor) : Prop :=
  cpumodeOf processor.ctx.cpsr = some processor.mode

instance (processor : Processor) : Decidable (ModeAgrees processor) :=
  inferInstanceAs (Decidable (_ = _))

/-- The condition flags a write should leave readable. -/
def flagsAfter (processor : Processor) (value : BitVec 32) (fields : Fin 16) : BitVec 32 :=
  if SelectsFlags fields then value &&& 0xF0000000 else psrOfX86 processor.ctx.x86Flags

/-- A write to the flag byte has bit 27 clear, and a write that switches to
another bank finds there the condition flags it should leave. -/
def LawCondition (processor : Processor) (value : BitVec 32) (fields : Fin 16) : Prop :=
  (SelectsFlags fields → value.getLsbD 27 = false) ∧
    ∀ cpumode, cpumodeOf (mergeMasked processor.ctx.cpsr value (cpsrMasks fields)) = some cpumode →
      cpumode ≠ processor.mode →
        psrOfX86 (processor.context cpumode).x86Flags = flagsAfter processor value fields

theorem storecpsr_eq_merge_iff {processor after : Processor} {value : BitVec 32}
    {fields : Fin 16}
    (written : after.ctx.cpsr = mergeMasked processor.ctx.cpsr value (cpsrMasks fields)) :
    storecpsr after = mergeMasked (storecpsr processor) value (cpsrMasks fields) ↔
      (SelectsFlags fields → value.getLsbD 27 = false) ∧
        psrOfX86 after.ctx.x86Flags = flagsAfter processor value fields := by
  unfold storecpsr flagsAfter
  rw [written]
  by_cases selected : SelectsFlags fields
  · rw [statusWord_eq_merge_of_selected (psrOfX86_and _) (psrOfX86_and _)
      (cpsrMasks_flags_selected fields selected)]
    simp [selected]
  · rw [statusWord_eq_merge_of_kept (psrOfX86_and _) (psrOfX86_and _)
      (cpsrMasks_flags_kept fields selected)]
    simp [selected]

/-- Within one bank the flags read back are those the write should leave. -/
theorem psrOfX86_loadcpsrFlags (processor : Processor) (value : BitVec 32) (fields : Fin 16) :
    psrOfX86 (loadcpsrFlags processor value (cpsrMasks fields)).ctx.x86Flags =
      flagsAfter processor value fields := by
  rw [loadcpsrFlags_x86Flags, flagsAfter]
  by_cases selected : SelectsFlags fields
  · rw [if_pos ((cpsrMasks_touches_flags fields).mpr selected), if_pos selected,
      psrOfX86_x86OfPsr]
    apply BitVec.eq_of_getLsbD_eq
    intro i hi
    rw [BitVec.getLsbD_and, BitVec.getLsbD_and, getLsbD_flagBits hi,
      getLsbD_mergeMasked _ _ _ hi]
    by_cases high : 28 ≤ i
    · rw [getLsbD_of_and_ones (cpsrMasks_flags_selected fields selected) (by omega) hi, if_pos rfl]
    · simp [high]
  · rw [if_neg (mt (cpsrMasks_touches_flags fields).mp selected), if_neg selected]

/-- A write that does not select the mode field leaves it alone. -/
theorem mergeMasked_mode_of_kept {old value mask : BitVec 32} (kept : mask &&& 0x1F = 0) :
    mergeMasked old value mask &&& 0x1F = old &&& 0x1F := by
  apply BitVec.eq_of_getLsbD_eq
  intro i hi
  have clear := congrArg (BitVec.getLsbD · i) kept
  simp only [BitVec.getLsbD_and, BitVec.ofNat_eq_ofNat, BitVec.getLsbD_zero] at clear ⊢
  rw [getLsbD_mergeMasked _ _ _ hi]
  cases bit : (31#32).getLsbD i
  · simp
  · rw [bit, Bool.and_true] at clear
    simp [clear]

theorem cpumodeOf_congr {first second : BitVec 32}
    (same : first &&& 0x1F = second &&& 0x1F) : cpumodeOf first = cpumodeOf second := by
  unfold cpumodeOf
  rw [same]

/-- From a processor whose bank agrees with its mode field, writing any byte
fields so that the mode field ends up valid obeys the write/read law exactly
when `LawCondition` holds. -/
theorem cpsrLaw_iff (processor : Processor) (value : BitVec 32) (fields : Fin 16)
    (agrees : ModeAgrees processor)
    (valid : (cpumodeOf (mergeMasked processor.ctx.cpsr value (cpsrMasks fields))).isSome) :
    CpsrLaw processor value (cpsrMasks fields) ↔ LawCondition processor value fields := by
  obtain ⟨cpumode, named⟩ := Option.isSome_iff_exists.mp valid
  have kept : cpsrMasks fields &&& 0x1F = 0 → cpumode = processor.mode := by
    intro kept
    rw [cpumodeOf_congr (mergeMasked_mode_of_kept kept)] at named
    exact Option.some.inj (named.symm.trans agrees)
  unfold CpsrLaw LawCondition
  rw [loadcpsr_of_cpumodeOf named kept, storecpsr_eq_merge_iff (by simp), switchBank_x86Flags]
  refine and_congr_right fun _ => ?_
  by_cases same : cpumode = processor.mode
  · subst same
    have read := psrOfX86_loadcpsrFlags processor value fields
    simp only [named, Option.some.injEq]
    exact ⟨fun _ other equal differs => absurd equal.symm differs, fun _ => read⟩
  · rw [loadcpsrFlags_context_of_ne _ _ _ same]
    simp only [named, Option.some.injEq]
    exact ⟨fun equal other isOther _ => isOther ▸ equal, fun all => all cpumode rfl same⟩

/-- User mode with the sign flag set, the first write after boot. -/
def bootUser : Processor :=
  (loadcpsr Processor.boot 0x8000001F (cpsrMasks 9)).1

/-- Setting the carry in user mode reads back, by the law. -/
theorem cpsrLaw_iff_bootUser :
    CpsrLaw bootUser 0x20000000 (cpsrMasks 8) ↔ LawCondition bootUser 0x20000000 8 :=
  cpsrLaw_iff bootUser 0x20000000 8 (by decide) (by decide)

/-- A write of the mode alone that enters supervisor mode loses the sign. -/
theorem cpsrLaw_fails_at_bootUser :
    ModeAgrees bootUser ∧
      (cpumodeOf (mergeMasked bootUser.ctx.cpsr 0x13 (cpsrMasks 1))).isSome ∧
      ¬ CpsrLaw bootUser 0x13 (cpsrMasks 1) := by
  decide

end Ndse
