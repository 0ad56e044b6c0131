import Ndse.GuestMemory
import Ndse.Library.LabelledRun

/-!
# Breakpoints in translated code

A breakpoint is a byte of translated code replaced by the byte that traps.  The
byte that was there is kept in the `break_info`, and the debugger table maps the
position back to the `break_info` when the trap is hit.  Two kinds of owners
patch the same code: the regular breakpoints, one `break_data` for each guest
instruction, and the two one-time slots used for single stepping.  The blocks of
one processor and the boundaries of their instructions are fixed here.
-/

namespace Ndse

/-- `MAX_SUBINSTRUCTIONS`. -/
abbrev maxSubinstructions : Nat := 40

/-- `DEBUG_BREAK`. -/
def debugBreak : BitVec 8 := 0xCF

namespace InstructionSet

/-- `compiled_block<U>::REMAPS`. -/
def remaps (isa : InstructionSet) : Nat := 512 >>> isa.instructionSizeLg2

end InstructionSet

/-! ### The fixed translations -/

/-- `compiled_block<U>`, known by where its code lies. -/
structure CodeLayout where
  code : Nat
  codeSize : Nat
  remap : Nat → Nat

/-- What one processor has translated: its page table, the blocks of each page,
the bytes of their code and the sizes of the instructions `distorm_decode`
finds in a piece of it, `none` when it does not succeed. -/
structure Translations (Block : Type*) where
  addr2page : BitVec 32 → Block
  jit : InstructionSet → Block → Option CodeLayout
  compiled : Nat → BitVec 8
  distormDecode : Nat → Nat → Option (List Nat)

/-- Where instructions of the given sizes start. -/
def instructionStarts : Nat → List Nat → List Nat
  | _, [] => []
  | start, size :: sizes => start :: instructionStarts (start + size) sizes

namespace Translations

variable {Block : Type*}

/-- The host address of a guest address, by the page and the offset in it. -/
def physical (env : Translations Block) (addr : BitVec 32) : Block × BitVec 9 :=
  (env.addr2page addr, addr.setWidth 9)

/-- The piece of code `disassemble_breakdata` gives to `distorm_decode`. -/
def piece (isa : InstructionSet) (code : CodeLayout) (addr : BitVec 32) : Nat × Nat :=
  let inst := (addr.setWidth 9).toNat >>> isa.instructionSizeLg2
  let start := code.remap inst
  if inst + 1 ≥ isa.remaps then (start, code.codeSize - (start - code.code))
  else (start, code.remap (inst + 1) - start)

/-- Where the translated instructions of a guest instruction start. -/
def jitStarts (env : Translations Block) (isa : InstructionSet) (addr : BitVec 32) :
    Option (List Nat) :=
  match env.jit isa (env.addr2page addr) with
  | none => none
  | some code =>
      let (start, size) := piece isa code addr
      (env.distormDecode start size).map (instructionStarts start)

/-- The position a break on an instruction of an address gets when it is read. -/
def linePosition (env : Translations Block) (isa : InstructionSet) (addr : BitVec 32)
    (subcode : Fin maxSubinstructions) : Option Nat :=
  (env.jitStarts isa addr).bind (·[subcode.val]?)

end Translations

/-! ### Break data -/

/-- `break_info`; its block and its subaddress are given by where it is kept. -/
structure BreakInfo where
  used : Bool := false
  patched : Bool := false
  pos : Option Nat := none
  originalByte : BitVec 8 := 0
deriving DecidableEq

/-- `break_data`. -/
structure BreakData where
  addr : BitVec 32 := 0
  jitInstructions : Nat := 0
  jitLine : Fin maxSubinstructions → BreakInfo := fun _ => {}

/-- Who keeps a `break_data`: the map of regular breakpoints at a host address,
or a one-time slot. -/
inductive BreakOwner (Block : Type*)
  | regular (isa : InstructionSet) (physical : Block × BitVec 9)
  | oneTime (isa : InstructionSet) (slot : Fin 2)
deriving DecidableEq

/-- A pointer to a `break_info`. -/
structure BreakRef (Block : Type*) where
  owner : BreakOwner Block
  subcode : Fin maxSubinstructions
deriving DecidableEq

/-- The translated code of one processor as it stands, the maps of regular
breakpoints, the one-time slots and the debugger table. -/
structure Breakpoints (Block : Type*) where
  code : Nat → BitVec 8
  breaks : InstructionSet → Block × BitVec 9 → Option BreakData
  singleStep : InstructionSet → Fin 2 → BreakData
  dt : Nat → Option (BreakRef Block)

namespace Breakpoints

variable {Block : Type*} [DecidableEq Block]

/-- Nothing is set yet. -/
def boot (env : Translations Block) : Breakpoints Block where
  code := env.compiled
  breaks := fun _ _ => none
  singleStep := fun _ _ => {}
  dt := fun _ => none

/-- The `break_data` an owner keeps; a fresh one for an address without breaks. -/
def data (state : Breakpoints Block) : BreakOwner Block → BreakData
  | .regular isa physical => (state.breaks isa physical).getD {}
  | .oneTime isa slot => state.singleStep isa slot

def setData (state : Breakpoints Block) (owner : BreakOwner Block) (data : BreakData) :
    Breakpoints Block :=
  match owner with
  | .regular isa physical =>
      { state with
        breaks := Function.update state.breaks isa
          (Function.update (state.breaks isa) physical (some data)) }
  | .oneTime isa slot =>
      { state with
        singleStep := Function.update state.singleStep isa
          (Function.update (state.singleStep isa) slot data) }

def info (state : Breakpoints Block) (ref : BreakRef Block) : BreakInfo :=
  (state.data ref.owner).jitLine ref.subcode

def setInfo (state : Breakpoints Block) (ref : BreakRef Block) (bi : BreakInfo) :
    Breakpoints Block :=
  let old := state.data ref.owner
  state.setData ref.owner { old with jitLine := Function.update old.jitLine ref.subcode bi }

/-- `breakpoints_base<T>::resolve`. -/
def resolve (state : Breakpoints Block) (ip : Nat) : Option (BreakRef Block) := state.dt ip

/-- `*pos = byte`. -/
def poke (state : Breakpoints Block) (pos : Nat) (byte : BitVec 8) : Breakpoints Block :=
  { state with code := Function.update state.code pos byte }

/-- `dt[pos] = &bi` and `dt.erase(pos)`. -/
def setDt (state : Breakpoints Block) (pos : Nat) (entry : Option (BreakRef Block)) :
    Breakpoints Block :=
  { state with dt := Function.update state.dt pos entry }

/-! ### Patching -/

/-- `patch_bi`, at the position `toggle_sub` and `disassemble_breakdata` have
checked or just set. -/
def patchBi (state : Breakpoints Block) (ref : BreakRef Block) (pos : Nat) :
    Breakpoints Block :=
  let bi := state.info ref
  if bi.patched then state
  else ((state.setDt pos (some ref)).poke pos debugBreak).setInfo ref { bi with patched := true }

/-- `unpatch_bi`. -/
def unpatchBi (state : Breakpoints Block) (ref : BreakRef Block) (pos : Nat) :
    Breakpoints Block :=
  let bi := state.info ref
  if bi.patched then
    ((state.poke pos bi.originalByte).setInfo ref { bi with patched := false }).setDt pos none
  else state

/-- `remove_bi`. -/
def removeBi (state : Breakpoints Block) (ref : BreakRef Block) : Breakpoints Block :=
  let bi := state.info ref
  let erased := match bi.patched, bi.pos with
    | true, some pos => state.setDt pos none
    | _, _ => state
  erased.setInfo ref { bi with pos := none, patched := false }

/-- `toggle_sub`, also reached as `enable_step`. -/
def toggleSub (state : Breakpoints Block) (ref : BreakRef Block) : Breakpoints Block :=
  let bi := state.info ref
  let flipped := state.setInfo ref { bi with used := !bi.used }
  match bi.pos with
  | none => flipped
  | some pos => if !bi.used then flipped.patchBi ref pos else flipped.unpatchBi ref pos

/-! ### Reading the translated instructions -/

/-- One turn of the loop of `disassemble_breakdata`. -/
def placeBi (state : Breakpoints Block) (ref : BreakRef Block) (start : Nat) :
    Breakpoints Block :=
  let bi := state.info ref
  let placed := state.setInfo ref { bi with pos := some start, originalByte := state.code start }
  if bi.used then placed.patchBi ref start else placed

/-- `disassemble_breakdata`. -/
def disassembleBreakdata (env : Translations Block) (state : Breakpoints Block)
    (isa : InstructionSet) (owner : BreakOwner Block) : Breakpoints Block :=
  match env.jitStarts isa (state.data owner).addr with
  | none => state
  | some starts =>
      let decoded := min starts.length maxSubinstructions
      let counted := state.setData owner { state.data owner with jitInstructions := decoded }
      let placed := ((List.finRange maxSubinstructions).zip starts).foldl
        (fun state (i, start) => state.placeBi ⟨owner, i⟩ start) counted
      ((List.finRange maxSubinstructions).drop decoded).foldl
        (fun state i => state.setInfo ⟨owner, i⟩ { state.info ⟨owner, i⟩ with pos := none }) placed

/-- With translated code the lines are placed one after another. -/
theorem disassembleBreakdata_some (env : Translations Block) (state : Breakpoints Block)
    (isa : InstructionSet) (owner : BreakOwner Block) {starts : List Nat}
    (found : env.jitStarts isa (state.data owner).addr = some starts) :
    state.disassembleBreakdata env isa owner =
      ((List.finRange maxSubinstructions).drop (min starts.length maxSubinstructions)).foldl
        (fun state i => state.setInfo ⟨owner, i⟩ { state.info ⟨owner, i⟩ with pos := none })
        (((List.finRange maxSubinstructions).zip starts).foldl
          (fun state entry => state.placeBi ⟨owner, entry.1⟩ entry.2)
          (state.setData owner { state.data owner with
            jitInstructions := min starts.length maxSubinstructions })) := by
  rw [disassembleBreakdata, found]

/-- `update_breakdata`. -/
def updateBreakdata (env : Translations Block) (state : Breakpoints Block)
    (isa : InstructionSet) (owner : BreakOwner Block) : Breakpoints Block :=
  let removed := (List.finRange maxSubinstructions).foldl
    (fun state i => state.removeBi ⟨owner, i⟩) state
  removed.disassembleBreakdata env isa owner

/-! ### The calls of the debugger -/

/-- `add_bp`. -/
def addBp (env : Translations Block) (state : Breakpoints Block) (isa : InstructionSet)
    (addr : BitVec 32) (subcode : Fin maxSubinstructions) : Breakpoints Block :=
  let physical := env.physical addr
  let owner := BreakOwner.regular isa physical
  let present := match state.breaks isa physical with
    | some _ => state
    | none => (state.setData owner { addr := addr }).updateBreakdata env isa owner
  present.toggleSub ⟨owner, subcode⟩

/-- `break_data::free` and `breaks.erase`. -/
def eraseBreaks (state : Breakpoints Block) (isa : InstructionSet)
    (physical : Block × BitVec 9) : Breakpoints Block :=
  { state with
    breaks := Function.update state.breaks isa
      (Function.update (state.breaks isa) physical none) }

/-- `toggle`. -/
def toggle (env : Translations Block) (state : Breakpoints Block) (isa : InstructionSet)
    (addr : BitVec 32) (subcode : Nat) : Breakpoints Block :=
  if inRange : subcode < maxSubinstructions then
    let physical := env.physical addr
    let owner := BreakOwner.regular isa physical
    match state.breaks isa physical with
    | none => state.addBp env isa addr ⟨subcode, inRange⟩
    | some _ =>
        let toggled := state.toggleSub ⟨owner, ⟨subcode, inRange⟩⟩
        if (List.finRange maxSubinstructions).any fun i => (toggled.info ⟨owner, i⟩).used then
          toggled
        else toggled.eraseBreaks isa physical
  else state

/-- Switch a one-time break off if it is on. -/
def clearSub (state : Breakpoints Block) (ref : BreakRef Block) : Breakpoints Block :=
  if (state.info ref).used then state.toggleSub ref else state

/-- `unset_onetime`, and the loop with which `set_onetime` starts. -/
def unsetOnetime (state : Breakpoints Block) (isa : InstructionSet) : Breakpoints Block :=
  (List.finRange maxSubinstructions).foldl
    (fun state i => (state.clearSub ⟨.oneTime isa 0, i⟩).clearSub ⟨.oneTime isa 1, i⟩) state

/-- Give a one-time slot the address asked for, reading it unless it has that
address already. -/
def prepareSlot (env : Translations Block) (state : Breakpoints Block) (isa : InstructionSet)
    (slot : Fin 2) (addr : BitVec 32) : Breakpoints Block :=
  let owner := BreakOwner.oneTime isa slot
  if (state.data owner).addr ≠ addr then
    (state.setData owner { state.data owner with addr := addr }).updateBreakdata env isa owner
  else state

/-- `set_onetime`. -/
def setOnetime (env : Translations Block) (state : Breakpoints Block) (isa : InstructionSet)
    (addr1 : BitVec 32) (subcode1 : Nat) (addr2 : BitVec 32) (subcode2 : Nat) (numAddr : Int) :
    Breakpoints Block :=
  if inRange1 : subcode1 < maxSubinstructions then
    if numAddr > 1 then
      if inRange2 : subcode2 < maxSubinstructions then
        let first := ((state.unsetOnetime isa).prepareSlot env isa 0 addr1).toggleSub
          ⟨.oneTime isa 0, ⟨subcode1, inRange1⟩⟩
        if addr2 = addr1 then
          if subcode1 = subcode2 then first
          else first.toggleSub ⟨.oneTime isa 0, ⟨subcode2, inRange2⟩⟩
        else (first.prepareSlot env isa 1 addr2).toggleSub
          ⟨.oneTime isa 1, ⟨subcode2, inRange2⟩⟩
      else state
    else
      ((state.unsetOnetime isa).prepareSlot env isa 0 addr1).toggleSub
        ⟨.oneTime isa 0, ⟨subcode1, inRange1⟩⟩
  else state

end Breakpoints

/-- A call of the debugger on one processor. -/
inductive BreakCall
  | toggle (isa : InstructionSet) (addr : BitVec 32) (subcode : Nat)
  | setOnetime (isa : InstructionSet) (addr1 : BitVec 32) (subcode1 : Nat)
      (addr2 : BitVec 32) (subcode2 : Nat) (numAddr : Int)
  | unsetOnetime (isa : InstructionSet)

namespace Breakpoints

variable {Block : Type*} [DecidableEq Block]

def call (env : Translations Block) (state : Breakpoints Block) : BreakCall → Breakpoints Block
  | .toggle isa addr subcode => state.toggle env isa addr subcode
  | .setOnetime isa addr1 subcode1 addr2 subcode2 numAddr =>
      state.setOnetime env isa addr1 subcode1 addr2 subcode2 numAddr
  | .unsetOnetime isa => state.unsetOnetime isa

end Breakpoints

end Ndse
