import Ndse.Library.RingWindow

/-!
# The LZ77 decoder

A stream of type `10h` is a header with the size of the data and then tokens:
bytes and references to earlier bytes, eight of them behind each byte of flags.
The decoder keeps the last `N` bytes it has put out in a ring.
-/

namespace Ndse

/-- `lz77` with what its mixin has been asked for: how often `get8` was called
and what was given to `put8`.  The indices into `text_buf` are all taken modulo
`N`, its first `N` entries. -/
structure Lz77 where
  reads : Nat := 0
  output : List (BitVec 8) := []
  textBuf : BitVec 12 → BitVec 8
  r : BitVec 12 := 0
  flags : BitVec 32 := 0
  z : Nat := 0
  curSize : Nat := 0

namespace Lz77

/-- `N - F`. -/
def start : Nat := 4096 - 18

/-- `THRESHOLD`. -/
def threshold : BitVec 32 := 2

/-- `mixin::get8`, whose calls return the bytes of `input` in order. -/
def get8 (input : Nat → BitVec 8) (state : Lz77) : BitVec 8 × Lz77 :=
  (input state.reads, { state with reads := state.reads + 1 })

/-- `mixin::put8(c)` and the bookkeeping after it. -/
def emit (state : Lz77) (c : BitVec 8) : Lz77 :=
  { state with
    output := state.output ++ [c]
    textBuf := Function.update state.textBuf state.r c
    r := state.r + 1
    curSize := state.curSize + 1 }

/-- The loop over `k` of a reference. -/
def copyLoop (j : BitVec 32) : Nat → Lz77 → Lz77
  | 0, state => state
  | count + 1, state =>
      copyLoop j count (state.emit (state.textBuf (state.r - j.setWidth 12 - 1)))

/-- The next flag, read anew after eight of them. -/
def nextFlag (input : Nat → BitVec 8) (state : Lz77) : Lz77 :=
  let state := { state with flags := state.flags <<< 1, z := state.z + 1 }
  if state.z = 8 then
    let (flags, state) := state.get8 input
    { state with flags := flags.setWidth 32, z := 0 }
  else state

/-- The token of the flag. -/
def token (input : Nat → BitVec 8) (state : Lz77) : Lz77 :=
  if state.flags &&& 0x80 = 0 then
    let (c, state) := state.get8 input
    state.emit c
  else
    let (i, state) := state.get8 input
    let (j, state) := state.get8 input
    let i := i.setWidth 32
    let j := j.setWidth 32 ||| ((i <<< 8) &&& 0x0F00)
    let i := (i >>> 4) + threshold
    copyLoop j (i.toNat + 1) state

/-- The loop of `decode`; every turn puts out a byte, so as many turns as there
are bytes are enough. -/
def decodeLoop (input : Nat → BitVec 8) (decompSize : Nat) : Nat → Lz77 → Lz77
  | 0, state => state
  | turns + 1, state =>
      if state.curSize < decompSize then
        decodeLoop input decompSize turns ((state.nextFlag input).token input)
      else state

/-- `lz77::decode` on a buffer with any contents. -/
def decode (input : Nat → BitVec 8) (textBuf : BitVec 12 → BitVec 8) : Lz77 :=
  let state : Lz77 := { textBuf := textBuf }
  let (c0, state) := state.get8 input
  let (c1, state) := state.get8 input
  let (c2, state) := state.get8 input
  let (c3, state) := state.get8 input
  let gbaheader := c3 ++ c2 ++ c1 ++ c0
  let decompSize := (gbaheader >>> 8).toNat
  let state := { state with
    textBuf := fun i => if i.toNat < start then 0xFF else state.textBuf i
    r := BitVec.ofNat 12 start
    flags := 7
    z := 7 }
  state.decodeLoop input decompSize decompSize

end Lz77

end Ndse
