import Ndse.PhysMem

/-!
# The video memory banks

Nine control bytes place the video memory banks into the address spaces of the
two processors.  `remap` runs after every write to one of them.  It visits all
banks and moves those whose address differs from the one it remembers; the
memory map itself is never asked.
-/

namespace Ndse

/-- The video memory banks. -/
inductive VramBank
  | a | b | c | d | e | f | g | h | i
deriving DecidableEq, Repr

namespace VramBank

/-- `banks`: the region of each bank. -/
def region : VramBank → PhysRegion
  | a => .vramA
  | b => .vramB
  | c => .vramC
  | d => .vramD
  | e => .vramE
  | f => .vramF
  | g => .vramG
  | h => .vramH
  | i => .vramI

/-- Control bytes are literals below 10. -/
instance neZero_controlBytes : NeZero 10 := ⟨by decide⟩

/-- The place of the bank's control byte behind `0x04000240`; byte 7 controls
the shared work memory. -/
def byteIndex : VramBank → Fin 10
  | a => 0
  | b => 1
  | c => 2
  | d => 3
  | e => 4
  | f => 5
  | g => 6
  | h => 8
  | i => 9

end VramBank

/-- The control bytes, `cur_maps<T>::mapping` and the memory maps. -/
structure VramState where
  vramcnt : Fin 10 → BitVec 8
  mapping : Cpu → Fin 10 → BitVec 32
  memory : Cpu → MemoryMap PhysRegion

namespace VramState

/-- `vram::init` after the initial mapping. -/
def init : VramState where
  vramcnt := fun _ => 0
  mapping := fun _ _ => 0
  memory := initializeMapping

/-- `unmap_bank`. -/
def unmapBank (state : VramState) (cpu : Cpu) (idx : Fin 10) (region : PhysRegion) :
    VramState :=
  if state.mapping cpu idx ≠ 0 then
    { state with
      memory := Function.update state.memory cpu ((state.memory cpu).unmap physTable region)
      mapping := Function.update state.mapping cpu
        (Function.update (state.mapping cpu) idx 0) }
  else state

/-- `map_bank`. -/
def mapBank (state : VramState) (cpu : Cpu) (idx : Fin 10) (region : PhysRegion)
    (addr : BitVec 32) : VramState :=
  if state.mapping cpu idx ≠ addr then
    let state := state.unmapBank cpu idx region
    { state with
      memory := Function.update state.memory cpu
        ((state.memory cpu).mapAt region (addr >>> 9).toNat)
      mapping := Function.update state.mapping cpu
        (Function.update (state.mapping cpu) idx addr) }
  else state

end VramState

/-! ### The tables of `map_vcnt` -/

/-- What the switch of `map_vcnt` asks for: a mapping, nothing but a warning, or
an entry behind the end of `lut_fg`. -/
inductive VcntRequest
  | map (cpu : Cpu) (region : PhysRegion) (addr : BitVec 32)
  | invalid
  | outOfBounds
deriving DecidableEq

/-- `lut_fg`. -/
def lutFg : List (BitVec 32) := [0x0, 0x4000, 0x10000, 0x14000]

/-- The cases of banks A and B. -/
def vcntAB (region : PhysRegion) (lcdc mst ofs : BitVec 32) : VcntRequest :=
  if mst = 0 then .map .arm9 region lcdc
  else if mst = 1 then .map .arm9 region (0x06000000 ||| (ofs <<< 14))
  else if mst = 2 then .map .arm9 region (0x06400000 ||| (ofs <<< 14))
  else .invalid

/-- The cases of banks C and D. -/
def vcntCD (region : PhysRegion) (lcdc sub mst ofs : BitVec 32) : VcntRequest :=
  if mst = 0 then .map .arm9 region lcdc
  else if mst = 1 then .map .arm9 region (0x06000000 ||| (ofs <<< 14))
  else if mst = 2 then .map .arm7 region (0x06000000 ||| (ofs <<< 14))
  else if mst = 4 then .map .arm9 region sub
  else .invalid

/-- The cases of bank E. -/
def vcntE (mst : BitVec 32) : VcntRequest :=
  if mst = 0 then .map .arm9 .vramE 0x06880000
  else if mst = 1 then .map .arm9 .vramE 0x06000000
  else if mst = 2 then .map .arm9 .vramE 0x06400000
  else .invalid

/-- The cases of banks F and G; the table is indexed with the masked byte, which
has the offset in bits 3 and 4. -/
def vcntFG (region : PhysRegion) (lcdc mst ofs : BitVec 32) : VcntRequest :=
  let lookup (base : BitVec 32) : VcntRequest :=
    match lutFg[ofs.toNat]? with
    | some offset => .map .arm9 region (base ||| offset)
    | none => .outOfBounds
  if mst = 0 then .map .arm9 region lcdc
  else if mst = 1 then lookup 0x06000000
  else if mst = 2 then lookup 0x06400000
  else .invalid

/-- The cases of bank H. -/
def vcntH (mst : BitVec 32) : VcntRequest :=
  if mst = 0 then .map .arm9 .vramH 0x06898000
  else if mst = 1 then .map .arm9 .vramH 0x06200000
  else .invalid

/-- The cases of bank I. -/
def vcntI (mst : BitVec 32) : VcntRequest :=
  if mst = 0 then .map .arm9 .vramI 0x068A0000
  else if mst = 1 then .map .arm9 .vramI 0x06208000
  else if mst = 2 then .map .arm9 .vramI 0x06600000
  else .invalid

/-- `switch (idx)` of `map_vcnt`.  Bank C falls through to bank D, which has no
case that bank C lacks; index 7 has no case at all. -/
def vcntRequest (idx : Fin 10) (mst ofs : BitVec 32) : VcntRequest :=
  if idx = 0 then vcntAB .vramA 0x06800000 mst ofs
  else if idx = 1 then vcntAB .vramB 0x06820000 mst ofs
  else if idx = 2 then
    match vcntCD .vramC 0x06840000 0x06200000 mst ofs with
    | .invalid => vcntCD .vramD 0x06860000 0x06600000 mst ofs
    | request => request
  else if idx = 3 then vcntCD .vramD 0x06860000 0x06600000 mst ofs
  else if idx = 4 then vcntE mst
  else if idx = 5 then vcntFG .vramF 0x06890000 mst ofs
  else if idx = 6 then vcntFG .vramG 0x06894000 mst ofs
  else if idx = 8 then vcntH mst
  else if idx = 9 then vcntI mst
  else .invalid

/-- `banks[idx]`. -/
def vcntBanks : List PhysRegion :=
  [.vramA, .vramB, .vramC, .vramD, .vramE, .vramF, .vramG, .vramH, .vramI]

namespace VramState

/-- `map_vcnt`; `none` when a table lookup is out of bounds. -/
def mapVcnt (state : VramState) (cnt mstMask ofsMask : BitVec 32) (idx : Fin 10) :
    Option VramState :=
  if cnt &&& 0x80 ≠ 0 then
    match vcntRequest idx (cnt &&& mstMask) (cnt &&& ofsMask) with
    | .map cpu region addr => some (state.mapBank cpu idx region addr)
    | .invalid => some state
    | .outOfBounds => none
  else
    match vcntBanks[idx.val]? with
    | some region => some ((state.unmapBank .arm7 idx region).unmapBank .arm9 idx region)
    | none => none

/-- The arguments `vram::remap` passes for each bank: the byte, the masks of
mode and offset, and the index.  The indices of the last two banks follow
`banks` and not the cases of the switch. -/
def remapArgs : VramBank → BitVec 32 × BitVec 32 × Fin 10
  | .a => (0x3, 0x18, 0)
  | .b => (0x3, 0x18, 1)
  | .c => (0x7, 0x18, 2)
  | .d => (0x7, 0x18, 3)
  | .e => (0x7, 0x00, 4)
  | .f => (0x7, 0x18, 5)
  | .g => (0x7, 0x18, 6)
  | .h => (0x3, 0x00, 7)
  | .i => (0x3, 0x00, 8)

/-- One line of `vram::remap`. -/
def remapBank (state : VramState) (bank : VramBank) : Option VramState :=
  let args := remapArgs bank
  state.mapVcnt ((state.vramcnt bank.byteIndex).setWidth 32) args.1 args.2.1 args.2.2

/-- `vram::remap`. -/
def remap (state : VramState) : Option VramState :=
  [VramBank.a, .b, .c, .d, .e, .f, .g, .h, .i].foldlM remapBank state

/-- A write to a control byte, followed by `remap`. -/
def writeVcnt (state : VramState) (bank : VramBank) (value : BitVec 8) : Option VramState :=
  { state with vramcnt := Function.update state.vramcnt bank.byteIndex value }.remap

end VramState

end Ndse
