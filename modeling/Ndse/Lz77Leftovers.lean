import Ndse.Lz77Output

/-!
# What one stream leaves to the next

The ring is not new for every stream: the slots behind the first `N - F` keep
what they had until the first bytes are put out.  A reference that reaches back
far enough from one of these bytes brings the old contents out.
-/

namespace Ndse.Lz77

/-- The contents of the ring of a static object: zeros at first, then what the
calls of `decode` leave. -/
inductive LeftBehind : (BitVec 12 → BitVec 8) → Prop
  | zeros : LeftBehind fun _ => 0
  | decode {textBuf : BitVec 12 → BitVec 8} (input : Nat → BitVec 8)
      (before : LeftBehind textBuf) : LeftBehind (decode input textBuf).textBuf

namespace Cursor

/-- The displacement of the next token if it is a reference. -/
def displacement (input : Nat → BitVec 8) (cursor : Cursor) : Option (BitVec 12) :=
  let next := (cursor.flag input).2
  if (cursor.flag input).1 then
    some ((input next.position).setWidth 4 ++ input (next.position + 1))
  else none

/-- Behind the next tokens. -/
def skip (input : Nat → BitVec 8) : (count : Nat) → Cursor → Cursor
  | 0, cursor => cursor
  | count + 1, cursor => skip input count (cursor.token input).2

end Cursor

/-- From some bytes on, every reference up to the size stays within what is put
out and the slots that are reset. -/
def CoveredFrom (input : Nat → BitVec 8) (decompSize produced : Nat) (cursor : Cursor) : Prop :=
  ∀ count displacement, produced + (cursor.lengths input count).sum < decompSize →
    (cursor.skip input count).displacement input = some displacement →
      displacement.toNat < produced + (cursor.lengths input count).sum + start

/-- Every reference of the stream stays within what is put out and the slots that
are reset. -/
def Covered (input : Nat → BitVec 8) : Prop := CoveredFrom input (declaredSize input) 0 ⟨4, []⟩

variable {input : Nat → BitVec 8} {state one other : Lz77} {cursor : Cursor}

/-! ### The slots that are not written yet -/

/-- The next slot, and the slots that still have the old contents. -/
structure Filled (old : BitVec 12 → BitVec 8) (state : Lz77) : Prop where
  position : state.r = BitVec.ofNat 12 (start + state.curSize)
  untouched : ∀ slot, start + state.curSize ≤ slot.toNat → state.textBuf slot = old slot

variable {old : BitVec 12 → BitVec 8}

theorem Filled.emit (filled : Filled old state) (c : BitVec 8) : Filled old (state.emit c) where
  position := by
    change state.r + 1 = BitVec.ofNat 12 (start + (state.curSize + 1))
    rw [filled.position, ← Nat.add_assoc, BitVec.ofNat_add _ 1]
    rfl
  untouched := by
    intro slot later
    have behind : start + state.curSize < slot.toNat := later
    have apart : slot ≠ state.r := by
      intro here
      rw [here, filled.position, BitVec.toNat_ofNat] at behind
      exact absurd (Nat.mod_le _ _) (not_le.mpr behind)
    exact (Function.update_of_ne apart _ _).trans (filled.untouched slot behind.le)

theorem Filled.read (filled : Filled old state) (reads : Nat) :
    Filled old { state with reads := reads } :=
  ⟨filled.position, filled.untouched⟩

theorem Filled.nextFlag (filled : Filled old state) (input : Nat → BitVec 8) :
    Filled old (state.nextFlag input) := by
  rw [Lz77.nextFlag]
  split <;> exact ⟨filled.position, filled.untouched⟩

theorem Filled.copyLoop (filled : Filled old state) (j : BitVec 32) (count : Nat) :
    Filled old (Lz77.copyLoop j count state) := by
  induction count generalizing state with
  | zero => exact filled
  | succ count ih => exact ih (filled.emit _)

/-! ### Two runs -/

/-- Two decoders differ in slots at most that are not written yet. -/
structure Alike (one other : Lz77) : Prop where
  reads : one.reads = other.reads
  output : one.output = other.output
  position : one.r = other.r
  flags : one.flags = other.flags
  phase : one.z = other.z
  count : one.curSize = other.curSize
  written : ∀ slot, slot.toNat < start + one.curSize → one.textBuf slot = other.textBuf slot

theorem Alike.read (alike : Alike one other) (reads : Nat) :
    Alike { one with reads := reads } { other with reads := reads } :=
  { alike with reads := rfl }

theorem Alike.emit (alike : Alike one other) (filled : Filled old one) (c : BitVec 8) :
    Alike (one.emit c) (other.emit c) where
  reads := alike.reads
  output := congrArg (· ++ [c]) alike.output
  position := congrArg (· + 1) alike.position
  flags := alike.flags
  phase := alike.phase
  count := congrArg (· + 1) alike.count
  written := by
    intro slot inside
    have inside : slot.toNat < start + (one.curSize + 1) := inside
    rw [Lz77.emit, Lz77.emit]
    dsimp only
    rw [← alike.position]
    by_cases here : slot = one.r
    · rw [here, Function.update_self, Function.update_self]
    · rw [Function.update_of_ne here, Function.update_of_ne here]
      apply alike.written
      have bound := slot.isLt
      have different : slot.toNat ≠ start + one.curSize := by
        intro same
        apply here
        rw [filled.position, ← same, BitVec.ofNat_toNat, BitVec.setWidth_eq]
      omega

/-- The slot of a covered reference is reset or written. -/
theorem slot_covered (filled : Filled old state) {displacement : BitVec 12}
    (covered : displacement.toNat < state.curSize + start) :
    (state.r - displacement - 1).toNat < start + state.curSize := by
  have bound := (state.r - displacement - 1).isLt
  by_cases full : 4096 ≤ start + state.curSize
  · omega
  · have place : state.r.toNat = start + state.curSize := by
      rw [filled.position, BitVec.toNat_ofNat, Nat.mod_eq_of_lt (by omega)]
    have one : (1 : BitVec 12).toNat = 1 := rfl
    rw [BitVec.toNat_sub, BitVec.toNat_sub, place]
    omega

theorem Alike.copyLoop (alike : Alike one other) (filled : Filled old one) {j j' : BitVec 32}
    (word : j.setWidth 12 = j'.setWidth 12)
    (covered : (j.setWidth 12).toNat < one.curSize + start) (count : Nat) :
    Alike (Lz77.copyLoop j count one) (Lz77.copyLoop j' count other) := by
  induction count generalizing one other with
  | zero => exact alike
  | succ count ih =>
      have same := alike.written _ (slot_covered filled covered)
      rw [Lz77.copyLoop, Lz77.copyLoop, ← alike.position, ← word, ← same]
      refine ih (alike.emit filled _) (filled.emit _) (covered.trans ?_)
      exact Nat.add_lt_add_right (Nat.lt_succ_self _) _

/-! ### Tokens -/

theorem token_literal_eq (input : Nat → BitVec 8) (isLiteral : state.flags &&& 0x80 = 0) :
    state.token input =
      Lz77.emit { state with reads := state.reads + 1 } (input state.reads) := by
  rw [token, if_pos isLiteral]
  rfl

theorem Filled.turn (filled : Filled old state) (input : Nat → BitVec 8) :
    Filled old ((state.nextFlag input).token input) := by
  have flagRead := filled.nextFlag input
  by_cases isLiteral : (state.nextFlag input).flags &&& 0x80 = 0
  · rw [token_literal_eq input isLiteral]
    exact (flagRead.read _).emit _
  · obtain ⟨j, -, run⟩ := token_reference input isLiteral
    rw [run]
    exact (flagRead.read _).copyLoop j _

theorem Alike.nextFlag (alike : Alike one other) (input : Nat → BitVec 8) :
    Alike (one.nextFlag input) (other.nextFlag input) := by
  rw [Lz77.nextFlag, Lz77.nextFlag, ← alike.phase, ← alike.flags]
  split
  · rw [get8, get8, ← alike.reads]
    exact ⟨rfl, alike.output, alike.position, rfl, rfl, alike.count, alike.written⟩
  · exact ⟨alike.reads, alike.output, alike.position, rfl, rfl, alike.count, alike.written⟩

/-- The next token does the same to both if it is covered. -/
theorem Alike.turn (alike : Alike one other) (filled : Filled old one) (stands : Stands one cursor)
    (covered : ∀ displacement, cursor.displacement input = some displacement →
      displacement.toNat < one.curSize + start) :
    Alike ((one.nextFlag input).token input) ((other.nextFlag input).token input) := by
  have flagsRead := alike.nextFlag input
  obtain ⟨flagRead, flagged⟩ := stands.nextFlag input
  have still := filled.nextFlag input
  by_cases isLiteral : (one.nextFlag input).flags &&& 0x80 = 0
  · rw [token_literal_eq input isLiteral,
      token_literal_eq input (flagsRead.flags ▸ isLiteral), ← flagsRead.reads]
    exact (flagsRead.read _).emit (still.read _) _
  · obtain ⟨j, word, run⟩ := token_reference input isLiteral
    have isReference : ¬(other.nextFlag input).flags &&& 0x80 = 0 := flagsRead.flags ▸ isLiteral
    obtain ⟨j', word', run'⟩ := token_reference input isReference
    rw [← flagsRead.reads] at word' run'
    have isCopy : (cursor.flag input).1 = true := by
      rw [flagged.literal_iff] at isLiteral
      exact Bool.eq_true_of_not_eq_false isLiteral
    have found : cursor.displacement input = some (j.setWidth 12) := by
      rw [Cursor.displacement, if_pos isCopy, word, flagRead.reads]
    rw [run, run']
    refine (flagsRead.read _).copyLoop (still.read _) (word.trans word'.symm) ?_ _
    refine (covered _ found).trans_eq ?_
    rw [← nextFlag_curSize input one]

/-! ### Streams without leftovers -/

theorem CoveredFrom.next {decompSize produced : Nat}
    (covered : CoveredFrom input decompSize produced cursor) :
    CoveredFrom input decompSize (produced + (cursor.token input).1) (cursor.token input).2 := by
  intro count displacement more found
  have sum : produced + (cursor.token input).1 +
      ((cursor.token input).2.lengths input count).sum =
        produced + (cursor.lengths input (count + 1)).sum := by
    rw [Cursor.lengths, List.sum_cons, Nat.add_assoc]
  rw [sum] at more ⊢
  exact covered (count + 1) displacement more found

theorem decodeLoop_alike {decompSize : Nat} (turns : Nat) (alike : Alike one other)
    (filled : Filled old one) (stands : Stands one cursor)
    (covered : CoveredFrom input decompSize one.curSize cursor) :
    Alike (decodeLoop input decompSize turns one) (decodeLoop input decompSize turns other) := by
  induction turns generalizing one other cursor with
  | zero => exact alike
  | succ turns ih =>
      rw [decodeLoop, decodeLoop, ← alike.count]
      split
      · next more =>
        obtain ⟨next, size⟩ := stands.turn input
        have here : ∀ displacement, cursor.displacement input = some displacement →
            displacement.toNat < one.curSize + start :=
          fun displacement found => covered 0 displacement more found
        refine ih (alike.turn filled stands here) (filled.turn input) next ?_
        rw [size]
        exact covered.next
      · exact alike

theorem opened_stands (textBuf : BitVec 12 → BitVec 8) : Stands (opened textBuf) ⟨4, []⟩ :=
  ⟨rfl, ⟨rfl, nofun⟩, rfl⟩

theorem opened_filled (textBuf : BitVec 12 → BitVec 8) : Filled textBuf (opened textBuf) where
  position := rfl
  untouched := fun _ behind => if_neg (not_lt.mpr behind)

theorem opened_alike (textBuf textBuf' : BitVec 12 → BitVec 8) :
    Alike (opened textBuf) (opened textBuf') where
  reads := rfl
  output := rfl
  position := rfl
  flags := rfl
  phase := rfl
  count := rfl
  written := fun _ inside => (if_pos inside).trans (if_pos inside).symm

/-! ### Streams with leftovers -/

theorem copyLoop_output_extends (j : BitVec 32) (count : Nat) (state : Lz77) :
    state.output <+: (copyLoop j count state).output := by
  induction count generalizing state with
  | zero => exact List.prefix_rfl
  | succ count ih =>
      have first (c : BitVec 8) : state.output <+: (state.emit c).output :=
        List.prefix_append _ _
      exact (first _).trans (ih _)

theorem nextFlag_output (input : Nat → BitVec 8) (state : Lz77) :
    (state.nextFlag input).output = state.output := by
  rw [nextFlag]
  split <;> rfl

theorem turn_output_extends (input : Nat → BitVec 8) (state : Lz77) :
    state.output <+: ((state.nextFlag input).token input).output := by
  rw [← nextFlag_output input state]
  by_cases isLiteral : (state.nextFlag input).flags &&& 0x80 = 0
  · rw [token_literal_eq input isLiteral]
    exact List.prefix_append _ _
  · obtain ⟨j, -, run⟩ := token_reference input isLiteral
    rw [run]
    exact copyLoop_output_extends j _
      { state.nextFlag input with reads := (state.nextFlag input).reads + 2 }

theorem decodeLoop_output_extends (input : Nat → BitVec 8) (decompSize turns : Nat)
    (state : Lz77) : state.output <+: (decodeLoop input decompSize turns state).output := by
  induction turns generalizing state with
  | zero => exact List.prefix_rfl
  | succ turns ih =>
      rw [decodeLoop]
      split
      · exact (turn_output_extends input state).trans (ih _)
      · exact List.prefix_rfl

/-- The slot of a reference that is not covered has its old contents. -/
theorem slot_leftover (filled : Filled old state) {displacement : BitVec 12}
    (beyond : state.curSize + start ≤ displacement.toNat) :
    start + state.curSize ≤ (state.r - displacement - 1).toNat := by
  have bound := displacement.isLt
  have place : state.r.toNat = start + state.curSize := by
    rw [filled.position, BitVec.toNat_ofNat, Nat.mod_eq_of_lt (by omega)]
  have one : (1 : BitVec 12).toNat = 1 := rfl
  rw [BitVec.toNat_sub, BitVec.toNat_sub, place]
  omega

/-- The first byte of such a reference is an old one. -/
theorem turn_leftover (filled : Filled old state) (stands : Stands state cursor)
    {displacement : BitVec 12} (found : cursor.displacement input = some displacement)
    (beyond : state.curSize + start ≤ displacement.toNat) :
    ∃ slot : BitVec 12, start ≤ slot.toNat ∧
      state.output ++ [old slot] <+: ((state.nextFlag input).token input).output := by
  obtain ⟨flagRead, flagged⟩ := stands.nextFlag input
  have still := filled.nextFlag input
  have isCopy : (cursor.flag input).1 = true := by
    by_contra isLiteral
    rw [Cursor.displacement, if_neg isLiteral] at found
    exact Option.some_ne_none _ found.symm
  have notLiteral : ¬(state.nextFlag input).flags &&& 0x80 = 0 := by
    rw [flagged.literal_iff, isCopy]
    exact nofun
  obtain ⟨j, word, run⟩ := token_reference input notLiteral
  rw [Cursor.displacement, if_pos isCopy, Option.some.injEq, ← flagRead.reads, ← word] at found
  rw [← found, ← nextFlag_curSize input state] at beyond
  have behind := slot_leftover still beyond
  refine ⟨_, (Nat.le_add_right _ _).trans behind, ?_⟩
  rw [run, copyLoop, ← still.untouched _ behind, ← nextFlag_output input state]
  exact copyLoop_output_extends j _
    (Lz77.emit { state.nextFlag input with reads := (state.nextFlag input).reads + 2 } _)

theorem decodeLoop_leftover {decompSize turns : Nat} (filled : Filled old state)
    (stands : Stands state cursor) (enough : decompSize ≤ turns + state.curSize) {count : Nat}
    (more : state.curSize + (cursor.lengths input count).sum < decompSize)
    {displacement : BitVec 12}
    (found : (cursor.skip input count).displacement input = some displacement)
    (beyond : state.curSize + (cursor.lengths input count).sum + start ≤ displacement.toNat) :
    ∃ slot : BitVec 12, start ≤ slot.toNat ∧
      (decodeLoop input decompSize turns state).output[
        state.curSize + (cursor.lengths input count).sum]? = some (old slot) := by
  induction count generalizing state cursor turns with
  | zero =>
      have nothing : state.curSize + (cursor.lengths input 0).sum = state.curSize := Nat.add_zero _
      rw [nothing] at more beyond ⊢
      obtain ⟨fewer, rfl⟩ : ∃ fewer, turns = fewer + 1 := Nat.exists_eq_add_one.mpr (by omega)
      obtain ⟨slot, behind, first⟩ := turn_leftover filled stands found beyond
      obtain ⟨rest, all⟩ := first.trans (decodeLoop_output_extends input decompSize fewer _)
      refine ⟨slot, behind, ?_⟩
      rw [decodeLoop, if_pos more, ← all, ← stands.count, List.append_assoc,
        List.getElem?_append_right le_rfl, Nat.sub_self]
      rfl
  | succ count ih =>
      rw [Cursor.lengths, List.sum_cons, ← Nat.add_assoc] at more beyond ⊢
      obtain ⟨fewer, rfl⟩ : ∃ fewer, turns = fewer + 1 := Nat.exists_eq_add_one.mpr (by omega)
      obtain ⟨next, size⟩ := stands.turn input
      have longer := token_curSize input (state.nextFlag input)
      rw [nextFlag_curSize] at longer
      rw [decodeLoop, if_pos (by omega), ← size]
      rw [← size] at more beyond
      exact ih (filled.turn input) next (by omega) more found beyond

/-- Eighteen bytes fill the slots that are not reset. -/
def eighteenOnes : List (BitVec 8) :=
  [0x10, 18, 0, 0, 0, 1, 1, 1, 1, 1, 1, 1, 1, 0, 1, 1, 1, 1, 1, 1, 1, 1, 0, 1, 1]

theorem eighteenOnes_left : ∀ slot : BitVec 12, start ≤ slot.toNat →
    (decode (eighteenOnes.getD · 0) fun _ => 0).textBuf slot = 1 := by
  have each : ∀ k < 18,
      (decode (eighteenOnes.getD · 0) fun _ => 0).textBuf (BitVec.ofNat 12 (start + k)) = 1 := by
    decide +kernel
  intro slot behind
  obtain ⟨k, place⟩ := Nat.exists_eq_add_of_le behind
  have bound := slot.isLt
  have small : start = 4078 := rfl
  have found := each k (by omega)
  rwa [← place, BitVec.ofNat_toNat, BitVec.setWidth_eq] at found

/-- A stream is decoded to the same bytes whatever earlier ones have left exactly if its
references are covered. -/
theorem decode_independent_iff (input : Nat → BitVec 8) :
    (∀ one other, LeftBehind one → LeftBehind other →
      (decode input one).output = (decode input other).output) ↔ Covered input := by
  constructor
  · intro same count displacement more found
    by_contra beyond
    have old {textBuf : BitVec 12 → BitVec 8} : ∃ slot : BitVec 12, start ≤ slot.toNat ∧
        (decode input textBuf).output[0 + ((Cursor.lengths input count) ⟨4, []⟩).sum]? =
          some (textBuf slot) :=
      decodeLoop_leftover (opened_filled textBuf) (opened_stands textBuf) (Nat.le_add_right _ _)
        more found (not_lt.mp beyond)
    obtain ⟨slot, behind, zero⟩ := old
    obtain ⟨slot', behind', one⟩ := old
    rw [same _ _ (.decode (eighteenOnes.getD · 0) .zeros) .zeros, zero, Option.some.injEq,
      eighteenOnes_left slot' behind'] at one
    exact absurd one (by decide)
  · intro covered one other _ _
    exact (decodeLoop_alike _ (opened_alike one other) (opened_filled one) (opened_stands one)
      covered).output

/-- A reference of three bytes to the first of the last eighteen slots, as the first
token. -/
theorem decode_leaks_first_reference :
    let stream : List (BitVec 8) := [0x10, 3, 0, 0, 0x80, 0x0F, 0xFF]
    ∃ one other, LeftBehind one ∧ LeftBehind other ∧
      (decode (stream.getD · 0) one).output ≠ (decode (stream.getD · 0) other).output := by
  refine ⟨_, _, .zeros, .decode (eighteenOnes.getD · 0) .zeros, ?_⟩
  decide +kernel

end Ndse.Lz77
