import Ndse.Lz77Decodes

/-!
# The output of any stream

The decoder compares what it has put out with the size of the header between
tokens only, so on a stream of any kind the last token decides whether the size
is met.
-/

namespace Ndse.Lz77

/-- In front of a token: the bytes read and the flags still to be used. -/
structure Cursor where
  position : Nat
  bits : List Bool
deriving DecidableEq, Repr

namespace Cursor

/-- The flag of the next token. -/
def flag (input : Nat → BitVec 8) (cursor : Cursor) : Bool × Cursor :=
  match cursor.bits with
  | [] =>
      let flags := input cursor.position
      (flags.getLsbD 7, ⟨cursor.position + 1, (flagBits flags).tail⟩)
  | flag :: bits => (flag, ⟨cursor.position, bits⟩)

/-- How many bytes the next token stands for. -/
def token (input : Nat → BitVec 8) (cursor : Cursor) : Nat × Cursor :=
  let next := (cursor.flag input).2
  if (cursor.flag input).1 then
    ((input next.position >>> 4).toNat + 3, { next with position := next.position + 2 })
  else (1, { next with position := next.position + 1 })

/-- The lengths of the next tokens. -/
def lengths (input : Nat → BitVec 8) : (count : Nat) → Cursor → List Nat
  | 0, _ => []
  | count + 1, cursor => (cursor.token input).1 :: lengths input count (cursor.token input).2

end Cursor

/-- Some first tokens of the stream stand for as many bytes as the header says. -/
def EndsWithToken (input : Nat → BitVec 8) : Prop :=
  ∃ count, (Cursor.lengths input count ⟨4, []⟩).sum = declaredSize input

/-- The decoder is in front of a token. -/
structure Stands (state : Lz77) (cursor : Cursor) : Prop where
  reads : state.reads = cursor.position
  awaits : Awaits state cursor.bits
  count : state.output.length = state.curSize

theorem flagBits_eq (flags : BitVec 8) :
    flagBits flags = flags.getLsbD 7 :: (flagBits flags).tail :=
  rfl

theorem token_flags (input : Nat → BitVec 8) (state : Lz77) :
    (state.token input).flags = state.flags := by
  rw [token]
  split
  · rfl
  · exact copyLoop_flags _ _ _

theorem token_z (input : Nat → BitVec 8) (state : Lz77) : (state.token input).z = state.z := by
  rw [token]
  split
  · rfl
  · exact copyLoop_z _ _ _

theorem copyLoop_output_length (j : BitVec 32) (count : Nat) (state : Lz77) :
    (copyLoop j count state).output.length = state.output.length + count := by
  induction count generalizing state with
  | zero => rfl
  | succ count ih =>
      rw [copyLoop, ih, emit, List.length_append, List.length_singleton]
      omega

theorem reference_count (c : BitVec 8) :
    ((c.setWidth 32 >>> 4) + threshold).toNat + 1 = (c >>> 4).toNat + 3 := by
  have bound := (c >>> 4).isLt
  have value : ((c.setWidth 32) >>> 4).toNat = (c >>> 4).toNat := by
    rw [BitVec.toNat_ushiftRight, BitVec.toNat_ushiftRight,
      BitVec.toNat_setWidth_of_le (by decide)]
  rw [BitVec.toNat_add, value, threshold]
  change ((c >>> 4).toNat + 2) % 2 ^ 32 + 1 = _
  omega

variable {input : Nat → BitVec 8} {state : Lz77} {cursor : Cursor}

theorem token_reference (input : Nat → BitVec 8) (isCopy : ¬ state.flags &&& 0x80 = 0) :
    ∃ j, j.setWidth 12 = (input state.reads).setWidth 4 ++ input (state.reads + 1) ∧
      state.token input = copyLoop j ((input state.reads >>> 4).toNat + 3)
        { state with reads := state.reads + 2 } := by
  rw [token, if_neg isCopy, ← reference_count]
  exact ⟨_, reference_setWidth _ _, rfl⟩

theorem Stands.nextFlag (stands : Stands state cursor) (input : Nat → BitVec 8) :
    Stands (state.nextFlag input) (cursor.flag input).2 ∧
      Flagged (state.nextFlag input) (cursor.flag input).1 (cursor.flag input).2.bits := by
  obtain ⟨position, bits⟩ := cursor
  have reads := nextFlag_reads input stands.awaits
  have count : (state.nextFlag input).output.length = (state.nextFlag input).curSize := by
    have kept : (state.nextFlag input).output = state.output := by
      rw [Lz77.nextFlag]
      split <;> rfl
    rw [kept, nextFlag_curSize, stands.count]
  cases bits with
  | nil =>
      have flagged := stands.awaits.nextFlag_nil input (flagBits_eq (input state.reads))
      rw [stands.reads] at flagged
      rw [stands.reads] at reads
      exact ⟨⟨reads, flagged.awaits, count⟩, flagged⟩
  | cons flag bits =>
      have flagged := stands.awaits.nextFlag_cons input
      exact ⟨⟨reads.trans stands.reads, flagged.awaits, count⟩, flagged⟩

theorem Stands.token {flag : Bool} (stands : Stands state cursor)
    (flagged : Flagged state flag cursor.bits) (input : Nat → BitVec 8) :
    Stands (state.token input) { cursor with position := cursor.position + if flag then 2 else 1 } ∧
      (state.token input).curSize =
        state.curSize + if flag then (input cursor.position >>> 4).toNat + 3 else 1 := by
  have awaits : Awaits (state.token input) cursor.bits := by
    refine ⟨?_, ?_⟩
    · rw [token_z]
      exact flagged.awaits.phase
    · rw [token_flags]
      exact flagged.awaits.coming
  cases flag with
  | false =>
      rw [Lz77.token, if_pos (flagged.literal_iff.mpr rfl)] at awaits ⊢
      refine ⟨⟨?_, awaits, ?_⟩, rfl⟩
      · exact congrArg Nat.succ stands.reads
      · exact List.length_append.trans (congrArg Nat.succ stands.count)
  | true =>
      have isCopy : ¬ state.flags &&& 0x80 = 0 := by
        rw [flagged.literal_iff]
        decide
      obtain ⟨j, -, run⟩ := token_reference input isCopy
      rw [run] at awaits ⊢
      refine ⟨⟨?_, awaits, ?_⟩, ?_⟩
      · rw [copyLoop_reads, if_pos rfl, ← stands.reads]
      · rw [copyLoop_output_length, copyLoop_curSize, stands.count]
      · rw [copyLoop_curSize, if_pos rfl, ← stands.reads]

/-- A turn of the loop takes the next token. -/
theorem Stands.turn (stands : Stands state cursor) (input : Nat → BitVec 8) :
    Stands ((state.nextFlag input).token input) (cursor.token input).2 ∧
      ((state.nextFlag input).token input).curSize =
        state.curSize + (cursor.token input).1 := by
  obtain ⟨flagRead, flagged⟩ := stands.nextFlag input
  obtain ⟨next, size⟩ := flagRead.token flagged input
  rw [nextFlag_curSize] at size
  rw [Cursor.token]
  cases isCopy : (cursor.flag input).1 <;> rw [isCopy] at next size <;> exact ⟨next, size⟩

/-- The loop ends with the first token that reaches the size. -/
theorem decodeLoop_exact_iff {decompSize turns : Nat} (stands : Stands state cursor)
    (enough : decompSize ≤ turns + state.curSize) :
    (decodeLoop input decompSize turns state).output.length = decompSize ↔
      ∃ count, state.curSize + (cursor.lengths input count).sum = decompSize := by
  have reached {state : Lz77} {cursor : Cursor} (stands : Stands state cursor)
      (done : decompSize ≤ state.curSize) :
      state.output.length = decompSize ↔
        ∃ count, state.curSize + (cursor.lengths input count).sum = decompSize := by
    rw [stands.count]
    constructor
    · exact fun exact => ⟨0, exact⟩
    · rintro ⟨count, sum⟩
      omega
  induction turns generalizing state cursor with
  | zero =>
      rw [decodeLoop]
      exact reached stands (by omega)
  | succ turns ih =>
      rw [decodeLoop]
      split
      · next more =>
        obtain ⟨next, size⟩ := stands.turn input
        have longer := token_curSize input (state.nextFlag input)
        rw [nextFlag_curSize] at longer
        refine (ih next (by omega)).trans ?_
        constructor
        · rintro ⟨count, sum⟩
          refine ⟨count + 1, ?_⟩
          rw [Cursor.lengths, List.sum_cons]
          omega
        · rintro ⟨count, sum⟩
          cases count with
          | zero => exact absurd sum more.ne
          | succ count =>
              rw [Cursor.lengths, List.sum_cons] at sum
              exact ⟨count, by omega⟩
      · next done => exact reached stands (not_lt.mp done)

/-- The decoder comes to the end of its loop, and its output has the size of the
header exactly if some first tokens of the stream have. -/
theorem decode_output_iff (input : Nat → BitVec 8) (textBuf : BitVec 12 → BitVec 8) :
    ¬ (decode input textBuf).curSize < declaredSize input ∧
      ((decode input textBuf).output.length = declaredSize input ↔ EndsWithToken input) := by
  obtain ⟨state, four, tracks, awaits, run⟩ := decode_eq input textBuf
  have none : state.curSize = 0 := tracks.count
  have stands : Stands state ⟨4, []⟩ :=
    ⟨four, awaits, (congrArg List.length tracks.output).trans tracks.count.symm⟩
  rw [run]
  refine ⟨not_lt.mpr (decodeLoop_finished input (Nat.le_add_right _ _)), ?_⟩
  rw [decodeLoop_exact_iff stands (Nat.le_add_right _ _), none, EndsWithToken]
  simp only [Nat.zero_add]

/-- A size of one byte and a reference of three. -/
theorem decode_exceeds_size :
    let stream : List (BitVec 8) := [0x10, 1, 0, 0, 0x80, 0, 0]
    declaredSize (stream.getD · 0) = 1 ∧
      (decode (stream.getD · 0) fun _ => 0).output.length = 3 := by
  decide +kernel

end Ndse.Lz77
