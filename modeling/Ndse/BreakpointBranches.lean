import Ndse.Breakpoint
import Ndse.CompilerBranches
import Ndse.MemoryAccess

/-!
# Branch destinations of the debugger

To step over a branch the debugger computes where it goes.  It decodes the
instruction at its address, and for an offset in the THUMB state also the
halfword in front of it; for a register it takes what the register holds.
-/

namespace Ndse

open FlatCode

namespace Disassembler

/-- `decode<U>`. -/
def decodeIn (d : Disassembler) (isa : InstructionSet) (op addr : BitVec 32) : Disassembler :=
  match isa with
  | .arm => d.decode op addr
  | .thumb => d.decodeThumb op addr

end Disassembler

namespace GuestMemory

/-- `*(U::T*)(b->mem + (addr & ADDRESS_MASK))` in the page of the address. -/
def opAt (memory : GuestMemory) (cpu : Cpu) (isa : InstructionSet) (addr : BitVec 32) :
    BitVec 32 :=
  peekWord (memory.blocks (memory.addr2page cpu addr)).mem (addr.setWidth 9)
    (1 <<< isa.instructionSizeLg2)

/-- `branch_pre<T, U>::get`, with a decoder that is not initialized. -/
def branchPre (memory : GuestMemory) (cpu : Cpu) (isa : InstructionSet) (d : Disassembler)
    (addr : BitVec 32) : BitVec 32 :=
  match isa with
  | .arm => 0
  | .thumb =>
      let addr := addr - 2
      let ctx := d.decodeIn .thumb (memory.opAt cpu .thumb addr) addr
      if ctx.instruction = .bpre then ctx.imm else 0

/-- `get_branch_dest`, with the registers of the processor and two decoders that
are not initialized. -/
def getBranchDest (memory : GuestMemory) (cpu : Cpu) (isa : InstructionSet)
    (regs : Fin 16 → BitVec 32) (d previous : Disassembler) (addr : BitVec 32) :
    Option (BitVec 32) :=
  let ctx := d.decodeIn isa (memory.opAt cpu isa addr) addr
  match ctx.instruction with
  | .b | .bl => some (ctx.imm + memory.branchPre cpu isa previous addr)
  | .blx | .bx => some (regs ctx.rm)
  | _ => none

end GuestMemory

/-- The instruction set of a branch. -/
def Branch.isa (branch : Branch) : InstructionSet := if branch.inThumb then .thumb else .arm

namespace Compiler

variable {World : Type}

/-- The instruction index of an address. -/
def instOf (branch : Branch) (addr : BitVec 32) : Nat := (addr.toNat % 512) >>> branch.instBits

/-- The processor executes the branch at an address behind the instruction in
front of it: the page and the state are those of the program counter, and the
accumulator is set by a first halfword and is clear in the ARM state. -/
structure ExecutesAt (memory : GuestMemory) (cpu : Cpu) (branch : Branch) (addr : BitVec 32)
    (context : EmulationContext) : Prop where
  op : memory.opAt cpu branch.isa addr = branch.word
  aligned : addr.toNat % (1 <<< branch.instBits) = 0
  page : context.regs 15 &&& pageMask = addr &&& pageMask
  state : context.regs 15 &&& 1 = if branch.inThumb then 1 else 0
  bpre :
    if branch.inThumb then
      ∀ high, memory.opAt cpu .thumb (addr - 2) = Branch.prefixWord high →
        context.bpre = 4 + Branch.highOffset high
    else context.bpre = 0

/-- The destinations agree without the thumb bit. -/
def SameDestination (one other : BitVec 32) : Prop := one &&& ~~~1#32 = other &&& ~~~1#32

/-- The program counter as the architecture reads it. -/
def prefetched (branch : Branch) (addr : BitVec 32) : BitVec 32 :=
  (addr + 2#32 <<< branch.instBits) &&& ~~~3#32

/-- A branch to a register of which the debugger reads what the code reads. -/
def RegisterAgrees (branch : Branch) (link : Bool) (rm : Fin 16) (addr : BitVec 32)
    (regs : Fin 16 → BitVec 32) : Prop :=
  if rm = 15 then SameDestination (regs 15) (prefetched branch addr)
  else if link ∧ rm = 14 then
    SameDestination (regs 14) (branch.returnAddress addr (regs 15 &&& 1))
  else True

/-- The branches on which both agree.  The debugger adds the high part of an
offset to every THUMB branch, does not know the branch that changes the state,
and takes the program counter and a register that is linked to as they are. -/
def DestinationsAgree (memory : GuestMemory) (cpu : Cpu) (branch : Branch) (addr : BitVec 32)
    (context : EmulationContext) : Prop :=
  let previous := memory.opAt cpu .thumb (addr - 2)
  match branch with
  | .arm .. => True
  | .thumb .. | .thumbConditional .. =>
      ∀ high, previous = Branch.prefixWord high → addr + 2 + Branch.highOffset high = 0
  | .thumbSuffix true _ => False
  | .thumbSuffix false _ =>
      (∃ high, previous = Branch.prefixWord high) ∨ SameDestination (addr - 1 + context.bpre) 0
  | .armRegister link _ rm | .thumbRegister link rm =>
      RegisterAgrees branch link rm.toFin addr context.regs

/-! ### Addresses -/

theorem sameDestination_iff (one other : BitVec 32) :
    SameDestination one other ↔ one.toNat / 2 = other.toNat / 2 := by
  have cleared (word : BitVec 32) : (word &&& ~~~1#32).toNat = word.toNat / 2 * 2 :=
    ByteMemory.toNat_and_not_mask word 1
  rw [SameDestination, ← BitVec.toNat_inj, cleared, cleared]
  omega

/-- The destinations agree wherever both are moved by an even distance. -/
theorem sameDestination_add {distance : BitVec 32} (even : distance.toNat % 2 = 0)
    (one other : BitVec 32) :
    SameDestination (one + distance) (other + distance) ↔ SameDestination one other := by
  have bound := distance.isLt
  have first := one.isLt
  have second := other.isLt
  rw [sameDestination_iff, sameDestination_iff, BitVec.toNat_add, BitVec.toNat_add]
  omega

theorem instBits_eq (branch : Branch) : branch.instBits = 1 ∨ branch.instBits = 2 := by
  rw [Branch.instBits]
  split <;> simp

theorem addressOf_instOf {branch : Branch} {addr counter : BitVec 32}
    (page : counter &&& pageMask = addr &&& pageMask)
    (aligned : addr.toNat % (1 <<< branch.instBits) = 0) :
    addressOf counter (instOf branch addr) branch.instBits = addr := by
  have bits := instBits_eq branch
  have bound := addr.isLt
  apply BitVec.eq_of_toNat_eq
  rw [addressOf, page, BitVec.toNat_add, page_toNat, BitVec.toNat_shiftLeft, BitVec.toNat_ofNat,
    instOf, Nat.shiftRight_eq_div_pow, Nat.shiftLeft_eq]
  obtain bits | bits := bits <;> rw [bits] at aligned ⊢ <;>
    simp only [Nat.reduceShiftLeft, Nat.reducePow] at aligned ⊢ <;> omega

/-- The code reads the program counter as the architecture does. -/
theorem pcOffset_eq {branch : Branch} {addr counter : BitVec 32}
    (page : counter &&& pageMask = addr &&& pageMask)
    (aligned : addr.toNat % (1 <<< branch.instBits) = 0) (lookaheadS : Bool) :
    (counter &&& pageMask) + pcOffset ⟨branch.instBits, instOf branch addr, lookaheadS⟩ =
      prefetched branch addr := by
  have bits := instBits_eq branch
  have bound := addr.isLt
  have cleared (word : BitVec 32) : (word &&& ~~~3#32).toNat = word.toNat / 4 * 4 :=
    ByteMemory.toNat_and_not_mask word 2
  apply BitVec.eq_of_toNat_eq
  rw [pcOffset, prefetched, page, BitVec.toNat_add, page_toNat, cleared, cleared,
    BitVec.toNat_shiftLeft, BitVec.toNat_ofNat, instOf, Nat.shiftRight_eq_div_pow,
    Nat.shiftLeft_eq, BitVec.toNat_add, BitVec.toNat_shiftLeft, Nat.shiftLeft_eq]
  obtain bits | bits := bits <;> rw [bits] at aligned ⊢ <;>
    simp only [Nat.reduceShiftLeft, Nat.reducePow, BitVec.toNat_ofNat] at aligned ⊢ <;> omega

/-! ### What the debugger computes -/

section Debugger

variable {memory : GuestMemory} {cpu : Cpu} {branch : Branch} {addr : BitVec 32}

theorem decodeIn_word (d : Disassembler) (addr : BitVec 32) :
    (d.decodeIn branch.isa branch.word addr).toContext = branch.decoded d addr := by
  cases state : branch.inThumb <;> simp [Branch.isa, Branch.decoded, state, Disassembler.decodeIn]

theorem getBranchDest_eq (op : memory.opAt cpu branch.isa addr = branch.word)
    (valid : branch.Valid) (regs : Fin 16 → BitVec 32) (d previous : Disassembler) :
    memory.getBranchDest cpu branch.isa regs d previous addr =
      match branch with
      | .thumbSuffix true _ => none
      | .armRegister _ _ rm | .thumbRegister _ rm => some (regs rm.toFin)
      | _ => (branch.immediate addr).map (· + memory.branchPre cpu branch.isa previous addr) := by
  have shows := branch.decoded_shows valid d addr
  rw [← decodeIn_word] at shows
  rw [GuestMemory.getBranchDest, op]
  generalize d.decodeIn branch.isa branch.word addr = ctx at shows
  obtain ⟨kind, -, imm, rm⟩ := shows
  cases branch with
  | arm link =>
      have value := imm _ rfl
      cases link <;> simp only [kind, Branch.inst, Branch.immediate, value] <;> rfl
  | armRegister link =>
      have value := rm _ rfl
      cases link <;> simp only [kind, Branch.inst, value] <;> rfl
  | thumb =>
      have value := imm _ rfl
      simp only [kind, Branch.inst, Branch.immediate, value]
      rfl
  | thumbConditional =>
      have value := imm _ rfl
      simp only [kind, Branch.inst, Branch.immediate, value]
      rfl
  | thumbSuffix exchange =>
      have value := imm _ rfl
      cases exchange <;> simp only [kind, Branch.inst, Branch.immediate, value] <;> rfl
  | thumbRegister link =>
      have value := rm _ rfl
      cases link <;> simp only [kind, Branch.inst, value] <;> rfl

/-- What the debugger adds to an offset. -/
theorem branchPre_thumb (previous : Disassembler) (addr : BitVec 32) :
    (∃ high, memory.opAt cpu .thumb (addr - 2) = Branch.prefixWord high ∧
        memory.branchPre cpu .thumb previous addr = addr + 2 + Branch.highOffset high) ∨
      (∀ high, memory.opAt cpu .thumb (addr - 2) ≠ Branch.prefixWord high) ∧
        memory.branchPre cpu .thumb previous addr = 0 := by
  have half : memory.opAt cpu .thumb (addr - 2) =
      ((memory.opAt cpu .thumb (addr - 2)).setWidth 16).setWidth 32 := by
    rw [GuestMemory.opAt, show 1 <<< InstructionSet.thumb.instructionSizeLg2 = 2 from rfl,
      GuestMemory.peekWord_two]
    simp
  by_cases first : ∃ high, memory.opAt cpu .thumb (addr - 2) = Branch.prefixWord high
  · obtain ⟨high, op⟩ := first
    have decodes := Branch.decodeThumb_prefixWord previous (addr - 2) high
    refine .inl ⟨high, op, ?_⟩
    rw [← op] at decodes
    have value : addr - 2 + 4 + Branch.highOffset high = addr + 2 + Branch.highOffset high := by
      grind only
    exact (if_pos decodes.1).trans (decodes.2.2.trans value)
  · refine .inr ⟨not_exists.mp first, ?_⟩
    have decodes := Branch.decodeThumb_bpre_iff previous (addr - 2)
      ((memory.opAt cpu .thumb (addr - 2)).setWidth 16)
    rw [← half] at decodes
    exact if_neg (fun kind => first (decodes.mp kind))

end Debugger

/-! ### Both destinations -/

section Destinations

variable {memory : GuestMemory} {cpu : Cpu} {branch : Branch} {addr : BitVec 32}
  {context : EmulationContext} (executes : ExecutesAt memory cpu branch addr context)
  (ctx : Context) (lookaheadS : Bool)

include executes

theorem registerTarget_eq (regs : Fin 16 → BitVec 32) (same : regs 15 = context.regs 15) :
    registerTarget ctx ⟨branch.instBits, instOf branch addr, lookaheadS⟩ regs =
      if ctx.rm = 15 then prefetched branch addr else regs ctx.rm := by
  rw [registerTarget, same, pcOffset_eq executes.page executes.aligned]

/-- Where the code of a branch to a register goes, against what the register holds. -/
theorem registerAgrees_iff {link : Bool} (kind : ctx.instruction = if link then .blx else .bx)
    (bpre : BitVec 32) :
    SameDestination (context.regs ctx.rm)
        (codeTarget ctx ⟨branch.instBits, instOf branch addr, lookaheadS⟩ context.regs bpre) ↔
      RegisterAgrees branch link ctx.rm addr context.regs := by
  cases link with
  | true =>
      let linked := Function.update context.regs 14
        (branch.returnAddress addr (context.regs 15 &&& 1))
      have value := linkValue_eq branch (instOf branch addr) lookaheadS context.regs
      have target := registerTarget_eq executes ctx lookaheadS linked (by simp [linked])
      rw [addressOf_instOf executes.page executes.aligned] at value
      simp only [if_true] at kind
      simp only [codeTarget, kind, value]
      rw [target, RegisterAgrees]
      by_cases counter : ctx.rm = 15
      · rw [if_pos counter, if_pos counter, counter]
      · rw [if_neg counter, if_neg counter]
        by_cases same : ctx.rm = 14
        · simp [same, linked]
        · simp [same, linked, SameDestination]
  | false =>
      have target := registerTarget_eq executes ctx lookaheadS context.regs rfl
      simp only [Bool.false_eq_true, if_false] at kind
      simp only [codeTarget, kind]
      rw [target, RegisterAgrees]
      by_cases counter : ctx.rm = 15
      · rw [if_pos counter, if_pos counter, counter]
      · rw [if_neg counter, if_neg counter]
        simp [SameDestination]

end Destinations

theorem even_signExtend {len zeros : Nat} (field : BitVec len) (positive : 0 < zeros) :
    ((field ++ (0 : BitVec zeros)).signExtend 32).toNat % 2 = 0 := by
  rw [← lowest_eq_false_iff, BitVec.getLsbD_signExtend, if_pos (by omega),
    BitFields.getLsbD_append_low positive, BitVec.ofNat_eq_ofNat, BitVec.getLsbD_zero,
    Bool.and_false]

theorem even_suffix (offset : BitVec 11) :
    (Branch.thumbSuffix false offset).offset.toNat % 2 = 0 := by
  rw [← lowest_eq_false_iff]
  rw [Branch.offset, BitVec.getLsbD_setWidth, BitFields.getLsbD_append_low (by decide)]
  simp

theorem prefixWord_injective : Function.Injective Branch.prefixWord := by
  intro one other same
  have low : one.setWidth 32 = other.setWidth 32 :=
    (Branch.offsetHalf_low 0b10 one).symm.trans
      ((congrArg (· &&& 0x7FF) same).trans (Branch.offsetHalf_low 0b10 other))
  have narrow := congrArg (BitVec.setWidth 11) low
  simpa using narrow

/-- What the debugger makes of a first halfword in front of an address. -/
theorem even_first {addr : BitVec 32} (aligned : addr.toNat % 2 = 0) (high : BitVec 11) :
    (addr + 2 + Branch.highOffset high).toNat % 2 = 0 := by
  have upper : (Branch.highOffset high).toNat % 2 = 0 := @even_signExtend 11 12 high (by decide)
  rw [BitVec.toNat_add, BitVec.toNat_add, show (2 : BitVec 32).toNat = 2 from rfl]
  omega

/-- A THUMB branch with an offset: only a first halfword in front of it disturbs
the debugger. -/
theorem thumbOffset_iff (memory : GuestMemory) (cpu : Cpu) {addr offset : BitVec 32}
    (aligned : addr.toNat % 2 = 0) (even : offset.toNat % 2 = 0) (previous : Disassembler) :
    SameDestination (addr + 4 + offset + memory.branchPre cpu .thumb previous addr)
        (addr + 4 + offset + 1) ↔
      ∀ high, memory.opAt cpu .thumb (addr - 2) = Branch.prefixWord high →
        addr + 2 + Branch.highOffset high = 0 := by
  have distance : (addr + 4 + offset).toNat % 2 = 0 := by
    rw [BitVec.toNat_add, BitVec.toNat_add, show (4 : BitVec 32).toNat = 4 from rfl]
    omega
  rw [BitVec.add_comm _ (memory.branchPre _ _ _ _), BitVec.add_comm _ 1,
    sameDestination_add distance]
  obtain ⟨high, first, value⟩ | ⟨none, value⟩ :=
    @branchPre_thumb memory cpu previous addr
  · have sum := even_first aligned high
    rw [value, sameDestination_iff, show (1 : BitVec 32).toNat / 2 = 0 from rfl]
    have zero : (addr + 2 + Branch.highOffset high).toNat / 2 = 0 ↔
        addr + 2 + Branch.highOffset high = 0 := by
      rw [← BitVec.toNat_inj, show (0 : BitVec 32).toNat = 0 from rfl]
      omega
    rw [zero]
    constructor
    · intro cancels other same
      rw [← prefixWord_injective (first.symm.trans same)]
      exact cancels
    · intro cancels
      exact cancels high first
  · rw [value]
    refine iff_of_true (by simp [SameDestination]) ?_
    intro high first
    exact absurd first (none high)

/-- The second halfword of a long branch: the debugger finds the first one, or
the accumulator has to cancel the address. -/
theorem thumbSuffix_iff (memory : GuestMemory) (cpu : Cpu) {addr offset bpre : BitVec 32}
    (aligned : addr.toNat % 2 = 0) (even : offset.toNat % 2 = 0) (previous : Disassembler)
    (accumulates : ∀ high, memory.opAt cpu .thumb (addr - 2) = Branch.prefixWord high →
      bpre = 4 + Branch.highOffset high) :
    SameDestination (offset + memory.branchPre cpu .thumb previous addr)
        (addr + 2 + 1 + (offset - 4) + bpre) ↔
      (∃ high, memory.opAt cpu .thumb (addr - 2) = Branch.prefixWord high) ∨
        SameDestination (addr - 1 + bpre) 0 := by
  have target : addr + 2 + 1 + (offset - 4) + bpre = addr - 1 + bpre + offset := by
    grind only
  rw [target, BitVec.add_comm offset, sameDestination_add even]
  obtain ⟨high, first, value⟩ | ⟨none, value⟩ := @branchPre_thumb memory cpu previous addr
  · refine iff_of_true ?_ (.inl ⟨high, first⟩)
    have sum := even_first aligned high
    have next : addr - 1 + (4 + Branch.highOffset high) =
        addr + 2 + Branch.highOffset high + 1 := by
      grind only
    rw [value, accumulates high first, next, sameDestination_iff, BitVec.toNat_add _ 1,
      show (1 : BitVec 32).toNat = 1 from rfl]
    omega
  · rw [value]
    constructor
    · intro same
      exact .inr same.symm
    · rintro (⟨high, first⟩ | same)
      · exact absurd first (none high)
      · exact same.symm

/-- The code of an executed branch leaves to where it computes, so the debugger is
compared with that. -/
theorem leaves_destination_iff (env : HostEnv World) (memory : GuestMemory) (cpu : Cpu)
    (branch : Branch) {prior : Disassembler} (shows : branch.Shows 0 (branch.decoded prior 0))
    (addr : BitVec 32) (d previous : Disassembler) (inst : Nat) (lookaheadS flagsUpdated : Bool)
    (state : HostState World)
    (executed : Executed env (branch.decoded prior 0) ⟨branch.instBits, inst, lookaheadS⟩
      flagsUpdated state) :
    (∃ after dest,
      Leaves (hostIsa env)
          (compileInstruction (branch.decoded prior 0) ⟨branch.instBits, inst, lookaheadS⟩
            flagsUpdated).code state .jmpBranch after ∧
        memory.getBranchDest cpu branch.isa state.context.regs d previous addr = some dest ∧
        SameDestination dest (after.context.regs 15)) ↔
      ∃ dest,
        memory.getBranchDest cpu branch.isa state.context.regs d previous addr = some dest ∧
        SameDestination dest (codeTarget (branch.decoded prior 0)
          ⟨branch.instBits, inst, lookaheadS⟩ state.context.regs state.context.bpre) := by
  obtain ⟨after, leaves, arrived⟩ := leaves_codeTarget env branch shows inst lookaheadS
    flagsUpdated state executed
  have counter : after.context.regs 15 = codeTarget (branch.decoded prior 0)
      ⟨branch.instBits, inst, lookaheadS⟩ state.context.regs state.context.bpre := by
    rw [arrived.context, branchRegs, Function.update_self]
  rw [← counter]
  constructor
  · rintro ⟨other, dest, otherLeaves, found, same⟩
    rw [otherLeaves.unique (hostIsa env) leaves] at same
    exact ⟨dest, found, same⟩
  · rintro ⟨dest, found, same⟩
    exact ⟨after, dest, leaves, found, same⟩

/-- What the debugger computes and what the code computes. -/
theorem codeTarget_destination_iff {memory : GuestMemory} {cpu : Cpu} {branch : Branch}
    (valid : branch.Valid) {addr : BitVec 32} {context : EmulationContext}
    (executes : ExecutesAt memory cpu branch addr context) {prior : Disassembler}
    (shows : branch.Shows 0 (branch.decoded prior 0)) (d previous : Disassembler)
    (lookaheadS : Bool) :
    (∃ dest,
      memory.getBranchDest cpu branch.isa context.regs d previous addr = some dest ∧
        SameDestination dest (codeTarget (branch.decoded prior 0)
          ⟨branch.instBits, instOf branch addr, lookaheadS⟩ context.regs context.bpre)) ↔
      DestinationsAgree memory cpu branch addr context := by
  rw [getBranchDest_eq executes.op valid]
  have place := addressOf_instOf executes.page executes.aligned
  have target (low : ∀ rm ∈ branch.register, rm ≠ 15) (high : BitVec 11)
      (accumulates : Accumulates branch high context.bpre) :=
    codeTarget_iff (instOf branch addr) lookaheadS context.regs valid shows low accumulates
  have found (value target : BitVec 32) :
      (∃ dest, some value = some dest ∧ SameDestination dest target) ↔
        SameDestination value target := by
    simp
  cases branch with
  | arm link cond offset =>
      have value := (target (by simp [Branch.register]) 0 executes.bpre).mpr trivial
      rw [targetOf, place] at value
      refine iff_of_true ⟨_, rfl, ?_⟩ trivial
      rw [value, executes.state]
      simp [SameDestination, Branch.target, Branch.inThumb, GuestMemory.branchPre, Branch.isa]
  | armRegister link cond rm =>
      have same : (Branch.decoded (.armRegister link cond rm) prior 0).rm = rm.toFin :=
        shows.rm _ rfl
      have agrees := @registerAgrees_iff _ _ _ _ _ executes _ lookaheadS link shows.instruction
        context.bpre
      rw [same] at agrees
      exact (found _ _).trans agrees
  | thumb offset =>
      have value := (target (by simp [Branch.register]) 0 trivial).mpr trivial
      have agrees := thumbOffset_iff memory cpu executes.aligned
        (@even_signExtend 11 1 offset (by decide)) previous
      rw [targetOf, place] at value
      rw [value, executes.state]
      exact (found _ _).trans agrees
  | thumbConditional cond offset =>
      have value := (target (by simp [Branch.register]) 0 trivial).mpr trivial
      have agrees := thumbOffset_iff memory cpu executes.aligned
        (@even_signExtend 8 1 offset (by decide)) previous
      rw [targetOf, place] at value
      rw [value, executes.state]
      exact (found _ _).trans agrees
  | thumbSuffix exchange offset =>
      cases exchange with
      | true => exact iff_of_false (by simp) id
      | false =>
          have agrees := thumbSuffix_iff memory cpu executes.aligned (even_suffix offset) previous
            executes.bpre
          have kind : ((Branch.thumbSuffix false offset).decoded prior 0).instruction = .bl :=
            shows.instruction
          have imm := shows.imm _ rfl
          have link := linkValue_eq (.thumbSuffix false offset)
            (instOf (.thumbSuffix false offset) addr) lookaheadS context.regs
          rw [place, executes.state] at link
          simp only [codeTarget, kind, imm, link]
          exact (found _ _).trans agrees
  | thumbRegister link rm =>
      have same : (Branch.decoded (.thumbRegister link rm) prior 0).rm = rm.toFin :=
        shows.rm _ rfl
      have agrees := @registerAgrees_iff _ _ _ _ _ executes _ lookaheadS link shows.instruction
        context.bpre
      rw [same] at agrees
      exact (found _ _).trans agrees

/-- Debugger and code agree on where an executed branch goes exactly on the
branches above. -/
theorem destination_iff (env : HostEnv World) (memory : GuestMemory) (cpu : Cpu)
    (branch : Branch) (valid : branch.Valid) (addr : BitVec 32) (prior d previous : Disassembler)
    (lookaheadS flagsUpdated : Bool) (state : HostState World)
    (executes : ExecutesAt memory cpu branch addr state.context)
    (executed : Executed env
      (prior.decodeIn branch.isa (memory.opAt cpu branch.isa addr) 0).toContext
      ⟨branch.instBits, instOf branch addr, lookaheadS⟩ flagsUpdated state) :
    (∃ after dest,
      Leaves (hostIsa env)
          (compileInstruction
            (prior.decodeIn branch.isa (memory.opAt cpu branch.isa addr) 0).toContext
            ⟨branch.instBits, instOf branch addr, lookaheadS⟩ flagsUpdated).code state
          .jmpBranch after ∧
        memory.getBranchDest cpu branch.isa state.context.regs d previous addr = some dest ∧
        SameDestination dest (after.context.regs 15)) ↔
      DestinationsAgree memory cpu branch addr state.context := by
  have shows := branch.decoded_shows valid prior 0
  rw [executes.op, decodeIn_word] at executed ⊢
  exact (leaves_destination_iff env memory cpu branch shows addr d previous _ lookaheadS
    flagsUpdated state executed).trans
      (codeTarget_destination_iff valid executes shows d previous lookaheadS)

/-- The first halfword `F000h` and another behind it, in every page. -/
def behindPrefix (half : BitVec 16) : GuestMemory where
  map := fun _ _ => ⟨.ram, 0⟩
  blocks := fun _ =>
    { flags := 0
      jit := fun _ _ => none
      recompiles := 0
      mem := BlockState.pokeBytes (fun _ => 0) 0 (wordBytes 4 (half ++ 0xF000#16)) }

/-- The state behind that first halfword. -/
def accumulating : HostState Unit :=
  (uniform 1).setContext ((uniform 1 : HostState Unit).context.set .bpre 4)

theorem accumulating_bpre {word : BitVec 32}
    (imm : (Disassembler.blank.decodeThumb word 0).imm = 4) (high : BitVec 11)
    (same : word = Branch.prefixWord high) :
    accumulating.context.bpre = 4 + Branch.highOffset high := by
  have offset := (Branch.decodeThumb_prefixWord .blank 0 high).2.2
  rw [← same, imm, zero_add] at offset
  exact offset

/-- The second halfword of a call, `F802h`. -/
def callSuffix : Branch := .thumbSuffix false 2

theorem executesAt_callSuffix :
    ExecutesAt (behindPrefix 0xF802) .arm9 callSuffix 2 accumulating.context where
  op := by decide
  aligned := by decide
  page := by decide
  state := by decide
  bpre := accumulating_bpre (by decide)

/-- Both find the destination of the call. -/
theorem destination_iff_call :
    ∃ after dest,
      Leaves (hostIsa .idle)
          (compileInstruction
            (Disassembler.blank.decodeIn callSuffix.isa
              ((behindPrefix 0xF802).opAt .arm9 callSuffix.isa 2) 0).toContext
            ⟨callSuffix.instBits, instOf callSuffix 2, false⟩ false).code
          accumulating .jmpBranch after ∧
        (behindPrefix 0xF802).getBranchDest .arm9 callSuffix.isa
            accumulating.context.regs .blank .blank 2 = some dest ∧
        SameDestination dest (after.context.regs 15) :=
  (destination_iff .idle (behindPrefix 0xF802) .arm9 callSuffix (by decide) 2 .blank .blank
    .blank false false accumulating executesAt_callSuffix
    (executed_always .idle (by decide) _ _ _)).mpr (.inl ⟨0, by decide⟩)

/-- The second halfword of a change of state, `E8E8h`. -/
def changeOfState : Branch := .thumbSuffix true 0x0E8

theorem executesAt_changeOfState :
    ExecutesAt (behindPrefix 0xE8E8) .arm9 changeOfState 2 accumulating.context where
  op := by decide
  aligned := by decide
  page := by decide
  state := by decide
  bpre := accumulating_bpre (by decide)

theorem getBranchDest_changeOfState :
    (behindPrefix 0xE8E8).getBranchDest .arm9 changeOfState.isa
      accumulating.context.regs .blank .blank 2 = none := by
  decide

/-- The debugger does not know the change of state. -/
theorem destination_fail_changeOfState :
    changeOfState.Valid ∧
      ExecutesAt (behindPrefix 0xE8E8) .arm9 changeOfState 2 accumulating.context ∧
      ¬∃ after dest,
        Leaves (hostIsa .idle)
            (compileInstruction
              (Disassembler.blank.decodeIn changeOfState.isa
                ((behindPrefix 0xE8E8).opAt .arm9 changeOfState.isa 2) 0).toContext
              ⟨changeOfState.instBits, instOf changeOfState 2, false⟩ false).code
            accumulating .jmpBranch after ∧
          (behindPrefix 0xE8E8).getBranchDest .arm9 changeOfState.isa
              accumulating.context.regs .blank .blank 2 = some dest ∧
          SameDestination dest (after.context.regs 15) := by
  refine ⟨by decide, executesAt_changeOfState, ?_⟩
  rintro ⟨after, dest, -, found, -⟩
  rw [getBranchDest_changeOfState] at found
  exact absurd found (by simp)

end Compiler

end Ndse
