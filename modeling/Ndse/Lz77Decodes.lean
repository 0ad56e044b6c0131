import Ndse.Library.BitFields
import Ndse.Library.RingWindow
import Ndse.Lz77
import Ndse.Lz77Format

/-!
# Well-formed streams are decoded

The ring of the decoder is a window onto its output, and the flags it has not
used yet are those that the stream has in store.
-/

namespace Ndse.Lz77

/-! ### One byte -/

section Emit

variable (state : Lz77) (c : BitVec 8)

@[simp] theorem emit_reads : (state.emit c).reads = state.reads := rfl
@[simp] theorem emit_flags : (state.emit c).flags = state.flags := rfl
@[simp] theorem emit_z : (state.emit c).z = state.z := rfl

end Emit

/-- The output and what the decoder remembers of it. -/
structure Tracks (state : Lz77) (history : List (BitVec 8)) : Prop where
  output : state.output = history
  count : state.curSize = history.length
  window : RingWindow.Holds state.textBuf state.r history

theorem Tracks.emit {state : Lz77} {history : List (BitVec 8)} (tracks : Tracks state history)
    (c : BitVec 8) :
    Tracks (state.emit c) (history ++ [c]) where
  output := by rw [Lz77.emit, tracks.output]
  count := by rw [Lz77.emit, tracks.count, List.length_append, List.length_singleton]
  window := tracks.window.push c

/-! ### A reference -/

@[simp]
theorem copyLoop_reads (j : BitVec 32) (count : Nat) (state : Lz77) :
    (copyLoop j count state).reads = state.reads := by
  induction count generalizing state with
  | zero => rfl
  | succ count ih => rw [copyLoop, ih, emit_reads]

@[simp]
theorem copyLoop_flags (j : BitVec 32) (count : Nat) (state : Lz77) :
    (copyLoop j count state).flags = state.flags := by
  induction count generalizing state with
  | zero => rfl
  | succ count ih => rw [copyLoop, ih, emit_flags]

@[simp]
theorem copyLoop_z (j : BitVec 32) (count : Nat) (state : Lz77) :
    (copyLoop j count state).z = state.z := by
  induction count generalizing state with
  | zero => rfl
  | succ count ih => rw [copyLoop, ih, emit_z]

theorem Tracks.copyLoop {state : Lz77} {history : List (BitVec 8)} {displacement : Nat}
    (tracks : Tracks state history) (window : displacement + 1 ≤ 4096)
    (produced : displacement + 1 ≤ history.length) {j : BitVec 32}
    (reference : j.setWidth 12 = BitVec.ofNat 12 displacement) (count : Nat) :
    Tracks (Lz77.copyLoop j count state) (repeatBytes displacement count history) := by
  induction count generalizing state history with
  | zero => exact tracks
  | succ count ih =>
      have inside : displacement < history.reverse.length := by
        rw [List.length_reverse]
        exact produced
      have located := List.getElem?_eq_getElem inside
      have back : state.textBuf (state.r - j.setWidth 12 - 1) =
          history.reverse.getD displacement 0 := by
        rw [reference, tracks.window displacement _ window located,
          List.getD_eq_getElem?_getD, located, Option.getD_some]
      rw [Lz77.copyLoop, back]
      refine ih (tracks.emit _) ?_
      rw [List.length_append]
      omega

/-! ### The flags -/

/-- The flags that were read and are still to be used. -/
structure Awaits (state : Lz77) (bits : List Bool) : Prop where
  phase : state.z + bits.length = 7
  coming : ∀ i, (inside : i < bits.length) → bits[i] = state.flags.getLsbD (6 - i)

/-- The flag of the next token is in place. -/
structure Flagged (state : Lz77) (flag : Bool) (bits : List Bool) : Prop where
  awaits : Awaits state bits
  current : state.flags.getLsbD 7 = flag

theorem Flagged.literal_iff {state : Lz77} {flag : Bool} {bits : List Bool}
    (flagged : Flagged state flag bits) :
    state.flags &&& 0x80 = 0 ↔ flag = false := by
  rw [← flagged.current, show (0x80 : BitVec 32) = BitVec.twoPow 32 7 from rfl,
    BitVec.and_twoPow]
  cases state.flags.getLsbD 7 with
  | false => simp
  | true =>
      rw [if_pos rfl]
      exact iff_of_false (by decide) (by decide)

/-- The next flag is shifted into place. -/
theorem Awaits.nextFlag_cons {state : Lz77} {flag : Bool} {bits : List Bool}
    (input : Nat → BitVec 8) (awaits : Awaits state (flag :: bits)) :
    Flagged (state.nextFlag input) flag bits := by
  have phase := awaits.phase
  rw [List.length_cons] at phase
  have more : state.z + 1 ≠ 8 := by omega
  rw [nextFlag, if_neg more]
  refine ⟨⟨?_, ?_⟩, ?_⟩
  · change state.z + 1 + bits.length = 7
    omega
  · intro i inside
    have coming := awaits.coming (i + 1) (Nat.succ_lt_succ inside)
    rw [List.getElem_cons_succ] at coming
    change bits[i] = (state.flags <<< 1).getLsbD (6 - i)
    rw [coming, BitVec.getLsbD_shiftLeft]
    have left : 6 - i - 1 = 6 - (i + 1) := by omega
    have low : 6 - i < 32 := by omega
    have positive : ¬ 6 - i < 1 := by omega
    simp [left, low, positive]
  · have coming := awaits.coming 0 (Nat.zero_lt_succ _)
    rw [List.getElem_cons_zero] at coming
    change (state.flags <<< 1).getLsbD 7 = flag
    rw [coming, BitVec.getLsbD_shiftLeft]
    rfl

/-- After eight flags there is a new byte of them. -/
theorem Awaits.nextFlag_nil {state : Lz77} {flag : Bool} {bits : List Bool}
    (input : Nat → BitVec 8) (awaits : Awaits state [])
    (first : flagBits (input state.reads) = flag :: bits) :
    Flagged (state.nextFlag input) flag bits := by
  have last : state.z + 1 = 8 := congrArg Nat.succ awaits.phase
  rw [nextFlag, if_pos last]
  obtain ⟨rfl, rfl⟩ := List.cons.inj first
  refine ⟨⟨rfl, ?_⟩, ?_⟩
  · intro i inside
    have known : ∀ k < 8, ((input state.reads).setWidth 32).getLsbD k =
        (input state.reads).getLsbD k := by
      intro k low
      rw [BitVec.getLsbD_setWidth, decide_eq_true (show k < 32 by omega), Bool.true_and]
    change _ = ((input state.reads).setWidth 32).getLsbD (6 - i)
    rw [known (6 - i) (by omega)]
    change i < 7 at inside
    match i, inside with
    | 0, _ | 1, _ | 2, _ | 3, _ | 4, _ | 5, _ | 6, _ => rfl
  · change ((input state.reads).setWidth 32).getLsbD 7 = (input state.reads).getLsbD 7
    rw [BitVec.getLsbD_setWidth]
    rfl

theorem nextFlag_reads (input : Nat → BitVec 8) {state : Lz77} {bits : List Bool}
    (awaits : Awaits state bits) :
    (state.nextFlag input).reads = state.reads + if bits = [] then 1 else 0 := by
  cases bits with
  | nil =>
      have last : state.z + 1 = 8 := congrArg Nat.succ awaits.phase
      rw [nextFlag, if_pos last]
      rfl
  | cons flag bits =>
      have phase := awaits.phase
      rw [List.length_cons] at phase
      have more : state.z + 1 ≠ 8 := by omega
      rw [nextFlag, if_neg more]
      rfl

theorem Tracks.nextFlag {state : Lz77} {history : List (BitVec 8)} (tracks : Tracks state history)
    (input : Nat → BitVec 8) :
    Tracks (state.nextFlag input) history := by
  rw [Lz77.nextFlag]
  split <;> exact ⟨tracks.output, tracks.count, tracks.window⟩

/-! ### One token -/

/-- The calls of `get8` from a number on return the bytes of `stream`. -/
def Supplies (input : Nat → BitVec 8) (reads : Nat) (stream : List (BitVec 8)) : Prop :=
  ∀ i, (inside : i < stream.length) → input (reads + i) = stream[i]

theorem supplies_cons {input : Nat → BitVec 8} {reads : Nat} {c : BitVec 8}
    {stream : List (BitVec 8)} :
    Supplies input reads (c :: stream) ↔
      input reads = c ∧ Supplies input (reads + 1) stream := by
  constructor
  · intro supplies
    refine ⟨supplies 0 (Nat.zero_lt_succ _), fun i inside => ?_⟩
    rw [Nat.add_assoc, Nat.add_comm 1 i]
    exact supplies (i + 1) (Nat.succ_lt_succ inside)
  · rintro ⟨head, tail⟩ i inside
    cases i with
    | zero => exact head
    | succ i =>
        rw [← Nat.add_assoc, Nat.add_right_comm]
        exact tail i (Nat.lt_of_succ_lt_succ inside)

theorem supplies_getD (stream : List (BitVec 8)) : Supplies (stream.getD · 0) 0 stream := by
  intro i inside
  rw [Nat.zero_add]
  change stream.getD i 0 = stream[i]
  rw [List.getD_eq_getElem?_getD, List.getElem?_eq_getElem inside, Option.getD_some]

theorem length_repeatBytes (displacement length : Nat) (history : List (BitVec 8)) :
    (repeatBytes displacement length history).length = history.length + length := by
  induction length generalizing history with
  | zero => rfl
  | succ length ih =>
      rw [repeatBytes, ih, List.length_append, List.length_singleton]
      omega

/-- The two bytes of a reference as the decoder puts them together. -/
theorem reference_setWidth (i j : BitVec 8) :
    (j.setWidth 32 ||| ((i.setWidth 32 <<< 8) &&& 0x0F00)).setWidth 12 =
      (i.setWidth 4 ++ j : BitVec 12) := by
  rw [show (0x0F00 : BitVec 32) = BitVec.ofNat 32 ((2 ^ 4 - 1) <<< 8) from rfl,
    BitFields.and_mask]
  apply BitVec.eq_of_getLsbD_eq
  intro index inside
  simp only [BitVec.getLsbD_setWidth, BitVec.getLsbD_or, BitVec.getLsbD_shiftLeft,
    BitVec.getLsbD_extractLsb', inside, decide_true, Bool.true_and]
  by_cases low : index < 8
  · have word : index < 32 := by omega
    rw [BitFields.getLsbD_append_low low]
    simp [low, word]
  · obtain ⟨high, rfl⟩ := Nat.exists_eq_add_of_le (not_lt.mp low)
    have within : high < 4 := by omega
    have word : 8 + high < 32 := by omega
    rw [BitFields.getLsbD_append_high (by omega), Nat.add_sub_cancel_left,
      BitVec.getLsbD_setWidth, BitVec.getLsbD_of_ge j _ (by omega)]
    simp [within, word, low, show high < 32 by omega]

/-- The two bytes of a reference give its displacement. -/
theorem reference_displacement (n : BitVec 4) (displacement : BitVec 12) :
    ((displacement.extractLsb' 0 8).setWidth 32 |||
      (((n ++ displacement.extractLsb' 8 4).setWidth 32 <<< 8) &&& 0x0F00)).setWidth 12 =
        displacement := by
  have joined : displacement.extractLsb' 8 4 ++ displacement.extractLsb' 0 8 =
      displacement.extractLsb' 0 12 :=
    BitVec.extractLsb'_append_extractLsb'_eq_extractLsb' rfl
  have low : (n ++ displacement.extractLsb' 8 4 : BitVec 8).setWidth 4 =
      displacement.extractLsb' 8 4 := by
    apply BitVec.eq_of_getLsbD_eq
    intro index inside
    rw [BitVec.getLsbD_setWidth, BitFields.getLsbD_append_low inside, decide_eq_true inside,
      Bool.true_and]
  rw [reference_setWidth, low, joined]
  exact BitVec.extractLsb'_eq_self

/-- The upper half of the first byte of a reference gives its length. -/
theorem reference_length (tail : BitVec 4) {length : Nat} (shortest : 3 ≤ length)
    (longest : length ≤ 18) :
    (((BitVec.ofNat 4 (length - 3) ++ tail).setWidth 32 >>> 4) + threshold).toNat + 1 =
      length := by
  have field : (BitVec.ofNat 4 (length - 3) ++ tail).setWidth 32 >>> 4 =
      (BitVec.ofNat 4 (length - 3)).setWidth 32 := by
    apply BitVec.eq_of_getLsbD_eq
    intro index inside
    rw [BitVec.getLsbD_ushiftRight, BitVec.getLsbD_setWidth, BitVec.getLsbD_setWidth,
      BitFields.getLsbD_append_high (by omega), Nat.add_sub_cancel_left]
    by_cases within : index < 4
    · rw [decide_eq_true inside, decide_eq_true (show 4 + index < 32 by omega)]
    · rw [BitVec.getLsbD_of_ge _ _ (not_lt.mp within), Bool.and_false, Bool.and_false]
  rw [field, BitVec.toNat_add, BitVec.toNat_setWidth, BitVec.toNat_ofNat, threshold]
  change ((length - 3) % 2 ^ 4 % 2 ^ 32 + 2) % 2 ^ 32 + 1 = length
  omega

/-- Before a token: what was put out, the flags at hand, the bytes to come. -/
structure Ready (input : Nat → BitVec 8) (state : Lz77) (history : List (BitVec 8))
    (bits : List Bool) (stream : List (BitVec 8)) : Prop where
  tracks : Tracks state history
  awaits : Awaits state bits
  supplies : Supplies input state.reads stream

variable {input : Nat → BitVec 8} {state : Lz77} {history stream data : List (BitVec 8)}
variable {flag : Bool} {bits : List Bool} {tokens : List Token}

theorem token_literal (tracks : Tracks state history) (flagged : Flagged state false bits)
    {value : BitVec 8}
    (supplies : Supplies input state.reads ((Token.literal value).bytes ++ stream)) :
    Ready input (state.token input) (history ++ [value]) bits stream ∧
      (state.token input).reads = state.reads + 1 := by
  obtain ⟨byte, rest⟩ := supplies_cons.mp supplies
  rw [token, if_pos (flagged.literal_iff.mpr rfl)]
  change Ready input (Lz77.emit { state with reads := state.reads + 1 } (input state.reads))
    _ _ _ ∧ _
  rw [byte]
  have kept : Tracks { state with reads := state.reads + 1 } history :=
    ⟨tracks.output, tracks.count, tracks.window⟩
  exact ⟨⟨kept.emit value, ⟨flagged.awaits.phase, flagged.awaits.coming⟩, rest⟩, rfl⟩

theorem token_copy (tracks : Tracks state history) (flagged : Flagged state true bits)
    {length displacement : Nat} (shortest : 3 ≤ length) (longest : length ≤ 18)
    (window : displacement + 1 ≤ 4096) (produced : displacement + 1 ≤ history.length)
    (supplies : Supplies input state.reads
      ((Token.copy length displacement).bytes ++ stream)) :
    Ready input (state.token input) (repeatBytes displacement length history) bits stream ∧
      (state.token input).reads = state.reads + 2 := by
  obtain ⟨first, supplies⟩ := supplies_cons.mp supplies
  obtain ⟨second, rest⟩ := supplies_cons.mp supplies
  have isCopy : ¬ state.flags &&& 0x80 = 0 := by
    rw [flagged.literal_iff]
    exact nofun
  have kept : Tracks { state with reads := state.reads + 2 } history :=
    ⟨tracks.output, tracks.count, tracks.window⟩
  have copied := kept.copyLoop window produced
    (reference_displacement (BitVec.ofNat 4 (length - 3)) (BitVec.ofNat 12 displacement)) length
  rw [token, if_neg isCopy]
  change Ready input (Lz77.copyLoop ((input (state.reads + 1)).setWidth 32 |||
    (((input state.reads).setWidth 32 <<< 8) &&& 0x0F00))
    ((((input state.reads).setWidth 32 >>> 4) + threshold).toNat + 1)
    { state with reads := state.reads + 2 }) _ _ _ ∧
    (Lz77.copyLoop _ _ { state with reads := state.reads + 2 }).reads = _
  rw [first, second, reference_length _ shortest longest]
  refine ⟨⟨copied, ⟨?_, ?_⟩, ?_⟩, ?_⟩
  · rw [copyLoop_z]
    exact flagged.awaits.phase
  · rw [copyLoop_flags]
    exact flagged.awaits.coming
  · rw [copyLoop_reads]
    exact rest
  · rw [copyLoop_reads]

/-- Every token is read and carried out, and puts out at least a byte. -/
theorem token_expands {next : Token} (tracks : Tracks state history)
    (flagged : Flagged state next.isCopy bits) (expands : Expands history (next :: tokens) data)
    (supplies : Supplies input state.reads (next.bytes ++ stream)) :
    ∃ produced, Ready input (state.token input) produced bits stream ∧
      Expands produced tokens data ∧ history.length < produced.length ∧
      (state.token input).reads = state.reads + next.bytes.length := by
  cases expands with
  | literal value rest =>
      obtain ⟨ready, reads⟩ := token_literal tracks flagged supplies
      refine ⟨_, ready, rest, ?_, reads⟩
      rw [List.length_append, List.length_singleton]
      exact Nat.lt_succ_self _
  | copy shortest longest window produced rest =>
      obtain ⟨ready, reads⟩ :=
        token_copy tracks flagged shortest longest window produced supplies
      refine ⟨_, ready, rest, ?_, reads⟩
      rw [length_repeatBytes]
      omega

theorem Expands.length_le (expands : Expands history tokens data) :
    history.length ≤ data.length := by
  induction expands with
  | nil => exact le_rfl
  | literal value rest ih =>
      rw [List.length_append] at ih
      exact (Nat.le_add_right _ _).trans ih
  | copy shortest longest window produced rest ih =>
      rw [length_repeatBytes] at ih
      exact (Nat.le_add_right _ _).trans ih

/-! ### The whole stream -/

theorem decodeLoop_done {decompSize : Nat} (done : ¬ state.curSize < decompSize) (turns : Nat) :
    decodeLoop input decompSize turns state = state := by
  cases turns with
  | zero => rfl
  | succ turns => rw [decodeLoop, if_neg done]

/-- A turn of the loop in front of a token. -/
theorem decodeLoop_turn {next : Token} {turns : Nat} (tracks : Tracks state history)
    (flagged : Flagged (state.nextFlag input) next.isCopy bits)
    (expands : Expands history (next :: tokens) data)
    (supplies : Supplies input (state.nextFlag input).reads (next.bytes ++ stream))
    (enough : data.length ≤ turns + history.length) :
    ∃ later produced fewer, Ready input later produced bits stream ∧
      Expands produced tokens data ∧ data.length ≤ fewer + produced.length ∧
      later.reads = (state.nextFlag input).reads + next.bytes.length ∧
      decodeLoop input data.length turns state =
        decodeLoop input data.length fewer later := by
  obtain ⟨produced, ready, rest, longer, reads⟩ :=
    token_expands (tracks.nextFlag input) flagged expands supplies
  have bound := rest.length_le
  have more : state.curSize < data.length := by
    rw [tracks.count]
    exact longer.trans_le bound
  obtain ⟨fewer, rfl⟩ : ∃ fewer, turns = fewer + 1 :=
    Nat.exists_eq_add_one.mpr (by omega)
  refine ⟨_, produced, fewer, ready, rest, by omega, reads, ?_⟩
  rw [decodeLoop, if_pos more]

theorem decodeLoop_layout (layout : Layout bits tokens stream) {turns : Nat}
    (ready : Ready input state history bits stream) (expands : Expands history tokens data)
    (enough : data.length ≤ turns + history.length) :
    (decodeLoop input data.length turns state).output = data ∧
      (decodeLoop input data.length turns state).reads = state.reads + stream.length := by
  induction layout generalizing state history turns with
  | nil bits =>
      cases expands
      rw [decodeLoop_done (by rw [ready.tracks.count]; exact lt_irrefl _)]
      exact ⟨ready.tracks.output, rfl⟩
  | token next rest ih =>
      have flagged := ready.awaits.nextFlag_cons input
      have reads : (state.nextFlag input).reads = state.reads :=
        nextFlag_reads input ready.awaits
      obtain ⟨later, produced, fewer, nextReady, expands, enough, taken, run⟩ :=
        decodeLoop_turn ready.tracks flagged expands (reads ▸ ready.supplies) enough
      obtain ⟨output, all⟩ := ih nextReady expands enough
      rw [run]
      refine ⟨output, ?_⟩
      rw [all, taken, reads, List.length_append, Nat.add_assoc]
  | flags first rest ih =>
      obtain ⟨byte, supplies⟩ := supplies_cons.mp ready.supplies
      have flagged := ready.awaits.nextFlag_nil input (byte ▸ first)
      have reads : (state.nextFlag input).reads = state.reads + 1 :=
        nextFlag_reads input ready.awaits
      obtain ⟨later, produced, fewer, nextReady, expands, enough, taken, run⟩ :=
        decodeLoop_turn ready.tracks flagged expands (reads ▸ supplies) enough
      obtain ⟨output, all⟩ := ih nextReady expands enough
      rw [run]
      refine ⟨output, ?_⟩
      rw [all, taken, reads, List.length_cons, List.length_append]
      omega

/-- The size in the header. -/
def declaredSize (input : Nat → BitVec 8) : Nat :=
  ((input 3 ++ input 2 ++ input 1 ++ input 0) >>> 8).toNat

/-- Behind the header. -/
def opened (textBuf : BitVec 12 → BitVec 8) : Lz77 where
  reads := 4
  textBuf := fun i => if i.toNat < start then 0xFF else textBuf i
  r := BitVec.ofNat 12 start
  flags := 7
  z := 7

theorem decode_opened (input : Nat → BitVec 8) (textBuf : BitVec 12 → BitVec 8) :
    decode input textBuf =
      decodeLoop input (declaredSize input) (declaredSize input) (opened textBuf) :=
  rfl

/-- Behind the header the ring is empty. -/
theorem decode_eq (input : Nat → BitVec 8) (textBuf : BitVec 12 → BitVec 8) :
    ∃ state, state.reads = 4 ∧ Tracks state [] ∧ Awaits state [] ∧
      decode input textBuf = decodeLoop input (declaredSize input) (declaredSize input) state :=
  ⟨opened textBuf, rfl, ⟨rfl, rfl, RingWindow.holds_nil _ _⟩, ⟨rfl, nofun⟩,
    decode_opened input textBuf⟩

/-- The four bytes of the header give the size of the data. -/
theorem declaredSize_header (input : Nat → BitVec 8) {size : Nat} {body : List (BitVec 8)}
    (small : size < 2 ^ 24) (supplies : Supplies input 0 (header size ++ body)) :
    declaredSize input = size ∧ Supplies input 4 body := by
  obtain ⟨-, supplies⟩ := supplies_cons.mp supplies
  obtain ⟨c1, supplies⟩ := supplies_cons.mp supplies
  obtain ⟨c2, supplies⟩ := supplies_cons.mp supplies
  obtain ⟨c3, supplies⟩ := supplies_cons.mp supplies
  refine ⟨?_, supplies⟩
  have whole : input 3 ++ input 2 ++ input 1 = BitVec.ofNat 24 size := by
    have upper (word : BitVec 24) :
        word.extractLsb' 16 8 ++ word.extractLsb' 8 8 = word.extractLsb' 8 16 :=
      BitVec.extractLsb'_append_extractLsb'_eq_extractLsb' rfl
    have all (word : BitVec 24) :
        word.extractLsb' 8 16 ++ word.extractLsb' 0 8 = word.extractLsb' 0 24 :=
      BitVec.extractLsb'_append_extractLsb'_eq_extractLsb' rfl
    rw [c1, c2, c3, upper, all]
    exact BitVec.extractLsb'_eq_self
  rw [declaredSize, whole, BitVec.toNat_ushiftRight, BitVec.toNat_append,
    ← Nat.shiftLeft_add_eq_or_of_lt (input 0).isLt, Nat.shiftLeft_eq,
    Nat.shiftRight_eq_div_pow, BitVec.toNat_ofNat, Nat.mod_eq_of_lt small]
  have low := (input 0).isLt
  omega

/-- A stream is decoded to its data and read to its end. -/
theorem decode_encodes (input : Nat → BitVec 8) (textBuf : BitVec 12 → BitVec 8)
    {stream data : List (BitVec 8)} (encodes : Encodes stream data)
    (supplies : Supplies input 0 stream) :
    (decode input textBuf).output = data ∧ (decode input textBuf).reads = stream.length := by
  obtain ⟨small, tokens, body, rfl, layout, expands⟩ := encodes
  obtain ⟨size, body⟩ := declaredSize_header input small supplies
  obtain ⟨state, four, tracks, awaits, run⟩ := decode_eq input textBuf
  rw [run, size]
  obtain ⟨output, reads⟩ := decodeLoop_layout layout ⟨tracks, awaits, four ▸ body⟩ expands
    (Nat.le_add_right _ _)
  refine ⟨output, ?_⟩
  rw [reads, four, List.length_append]
  rfl

/-- Three literals and a reference that repeats its own first bytes. -/
theorem decode_encodes_repeat :
    let stream : List (BitVec 8) := [0x10, 11, 0, 0, 0x10, 1, 2, 3, 0x50, 2]
    (decode (stream.getD · 0) fun _ => 0).output = [1, 2, 3, 1, 2, 3, 1, 2, 3, 1, 2] ∧
      (decode (stream.getD · 0) fun _ => 0).reads = 10 := by
  refine decode_encodes _ _ ⟨by decide,
    [.literal 1, .literal 2, .literal 3, .copy 8 2], [0x10, 1, 2, 3, 0x50, 2], rfl, ?_, ?_⟩ ?_
  · have rest : Layout [false, false, true, false, false, false, false]
        [.literal 2, .literal 3, .copy 8 2] [2, 3, 0x50, 2] :=
      .token (.literal 2) (.token (.literal 3) (.token (.copy 8 2) (.nil _)))
    have first : flagBits 0x10 = (Token.literal 1).isCopy ::
        [false, false, true, false, false, false, false] := by decide
    exact .flags first rest
  · exact .literal _ (.literal _ (.literal _
      (.copy (by decide) (by decide) (by decide) (by decide) (.nil _))))
  · exact supplies_getD _

/-! ### Streams of any kind

On any input every turn puts out a byte, so the turns do not run out before the
size of the header is reached.
-/

theorem copyLoop_curSize (j : BitVec 32) (count : Nat) (state : Lz77) :
    (copyLoop j count state).curSize = state.curSize + count := by
  induction count generalizing state with
  | zero => rfl
  | succ count ih =>
      rw [copyLoop, ih]
      exact Nat.succ_add_eq_add_succ state.curSize count

theorem nextFlag_curSize (input : Nat → BitVec 8) (state : Lz77) :
    (state.nextFlag input).curSize = state.curSize := by
  rw [nextFlag]
  split <;> rfl

theorem token_curSize (input : Nat → BitVec 8) (state : Lz77) :
    state.curSize < (state.token input).curSize := by
  rw [token]
  split
  · exact Nat.lt_succ_self _
  · change state.curSize < (copyLoop _ _ _).curSize
    rw [copyLoop_curSize]
    exact Nat.lt_add_of_pos_right (Nat.succ_pos _)

theorem decodeLoop_finished (input : Nat → BitVec 8) {decompSize turns : Nat} {state : Lz77}
    (enough : decompSize ≤ turns + state.curSize) :
    decompSize ≤ (decodeLoop input decompSize turns state).curSize := by
  induction turns generalizing state with
  | zero => rwa [Nat.zero_add] at enough
  | succ turns ih =>
      rw [decodeLoop]
      split
      · apply ih
        have longer := token_curSize input (state.nextFlag input)
        rw [nextFlag_curSize] at longer
        omega
      · exact not_lt.mp ‹_›

end Ndse.Lz77
