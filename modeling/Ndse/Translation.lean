import Ndse.GuestMemory
import Ndse.Library.LabelledRun

/-!
# No stale translation is entered

Code is entered in two ways: by the branches of translated code and by the
runner.  A branch recompiles a page that is dirty for its processor, the runner
does not look at the dirty bit.  In a run of writes, flushes and entries every
entry leads into a translation of the page as it is at that moment, exactly when
the runner never enters a dirty page with a translation of other bytes.
-/

namespace Ndse

/-! ### Entering code -/

/-- The destination of an entry: the page, its translation and the number of
the instruction in `remap`. -/
structure CodeEntry where
  page : MemoryBlock PhysRegion
  code : CompiledBlock
  inst : Nat

/-- `get_jit`, after compiling the page if it has no translation yet. -/
def BlockState.ensureJit (block : BlockState) (cpu : Cpu) (isa : InstructionSet) :
    BlockState × CompiledBlock :=
  match block.jit cpu isa with
  | some code => (block, code)
  | none => (block.recompile cpu isa, ⟨isa, block.mem⟩)

namespace GuestMemory

/-- Enter a page at an address. -/
def enter (memory : GuestMemory) (page : MemoryBlock PhysRegion) (cpu : Cpu)
    (isa : InstructionSet) (addr : BitVec 32) : GuestMemory × CodeEntry :=
  let jit := (memory.blocks page).ensureJit cpu isa
  (memory.modify page fun _ => jit.1,
    ⟨page, jit.2, (pageOffset addr 0).toNat >>> isa.instructionSizeLg2⟩)

/-- `HLE::compile_and_link_branch_a_real`, after its interrupt poll.  A page
that must not be executed is reported and entered all the same. -/
def compileAndLinkBranch (memory : GuestMemory) (cpu : Cpu) (addr : BitVec 32) :
    GuestMemory × CodeEntry :=
  let b := memory.addr2page cpu addr
  let memory := memory.modify b (·.recompileDirty cpu)
  memory.enter b cpu (if addr &&& 1 ≠ 0 then .thumb else .arm) addr

/-- `runner::get_entry`. -/
def getEntry (memory : GuestMemory) (cpu : Cpu) (isa : InstructionSet) (addr : BitVec 32) :
    GuestMemory × Option CodeEntry :=
  let b := memory.addr2page cpu addr
  if (memory.blocks b).has (PageFlag.invalid ||| PageFlag.execProt) then (memory, none)
  else
    let (memory, entry) := memory.enter b cpu isa addr
    (memory, some entry)

end GuestMemory

/-! ### Runs -/

/-- What can happen to ordinary memory and its translations. -/
inductive GuestAction
  | store32 (cpu : Cpu) (addr value : BitVec 32)
  | store16 (cpu : Cpu) (addr value : BitVec 32)
  | store8 (cpu : Cpu) (addr value : BitVec 32)
  | store32Array (cpu : Cpu) (addr : BitVec 32) (data : List (BitVec 32))
  | startDma (ioLoad : BitVec 32 → BitVec 32) (src dst ctrl : BitVec 32)
  | load (cpu : Cpu) (addr : BitVec 32) (len : Nat) (file : List (BitVec 8))
  | flush (page : MemoryBlock PhysRegion)
  | remap (map : Cpu → Nat → MemoryBlock PhysRegion)
  | branch (cpu : Cpu) (addr : BitVec 32)
  | getEntry (cpu : Cpu) (isa : InstructionSet) (addr : BitVec 32)

/-- One action, with the entry it returns. -/
def guestRun (memory : GuestMemory) : GuestAction → GuestMemory × Option CodeEntry
  | .store32 cpu addr value => (memory.store32 cpu addr value, none)
  | .store16 cpu addr value => (memory.store16 cpu addr value, none)
  | .store8 cpu addr value => (memory.store8 cpu addr value, none)
  | .store32Array cpu addr data => (memory.store32Array cpu addr data, none)
  | .startDma ioLoad src dst ctrl => (memory.startDma ioLoad src dst ctrl, none)
  | .load cpu addr len file => (memory.processMemory cpu addr len file, none)
  | .flush page => (memory.modify page BlockState.flush, none)
  | .remap map => ({ memory with map := map }, none)
  | .branch cpu addr =>
      let (next, entry) := memory.compileAndLinkBranch cpu addr
      (next, some entry)
  | .getEntry cpu isa addr => memory.getEntry cpu isa addr

def guestStep (memory : GuestMemory) (action : GuestAction) : GuestMemory :=
  (guestRun memory action).1

/-- Static memory: nothing is compiled yet. -/
def GuestMemory.start (map : Cpu → Nat → MemoryBlock PhysRegion)
    (flags : MemoryBlock PhysRegion → BitVec 32) (mem : MemoryBlock PhysRegion → PageBytes) :
    GuestMemory where
  map := map
  blocks := fun page => ⟨flags page, fun _ _ => none, 0, mem page⟩

/-- An entry leads into a translation of its page as it is. -/
def EntersFresh (memory : GuestMemory) (action : GuestAction) : Prop :=
  ∀ entry ∈ (guestRun memory action).2,
    entry.code.source = ((guestRun memory action).1.blocks entry.page).mem

/-- The runner finds a page that must not be executed, that is not dirty for its
processor, that is not translated yet or whose bytes are those of its
translation. -/
def RunnerFindsCurrent (memory : GuestMemory) : GuestAction → Prop
  | .getEntry cpu isa addr =>
      let block := memory.blocks (memory.addr2page cpu addr)
      ¬ block.has (PageFlag.invalid ||| PageFlag.execProt) → block.has (PageFlag.dirtyFor cpu) →
        ∀ code ∈ block.jit cpu isa, code.source = block.mem
  | _ => True

/-! ### Blocks -/

/-- The translations of a page for one processor are current. -/
def BlockState.Fresh (block : BlockState) (cpu : Cpu) : Prop :=
  ∀ isa, ∀ code ∈ block.jit cpu isa, code.source = block.mem

/-- A page is dirty for every processor with a translation of other bytes. -/
def BlockState.Marked (block : BlockState) : Prop :=
  ∀ cpu, ¬ block.has (PageFlag.dirtyFor cpu) → block.Fresh cpu

namespace BlockState

/-- The dirty flag of a processor is one bit of the flags. -/
def dirtyBit : Cpu → Nat
  | .arm9 => 5
  | .arm7 => 4

theorem has_dirtyFor (block : BlockState) (cpu : Cpu) :
    block.has (PageFlag.dirtyFor cpu) ↔ block.flags.getLsbD (dirtyBit cpu) := by
  have single : PageFlag.dirtyFor cpu = BitVec.twoPow 32 (dirtyBit cpu) := by
    cases cpu <;> rfl
  have nonzero : BitVec.twoPow 32 (dirtyBit cpu) ≠ 0 := by cases cpu <;> decide
  unfold has
  rw [single, BitVec.and_twoPow]
  split
  next set => exact iff_of_true nonzero set
  next clear => exact iff_of_false (not_not.mpr rfl) clear

theorem dirty_marked (block : BlockState) : block.dirty.Marked := by
  intro cpu clean
  refine absurd ?_ clean
  rw [has_dirtyFor, dirty, BitVec.getLsbD_or]
  cases cpu <;> simp [PageFlag.dirty, PageFlag.dirtyJ7, PageFlag.dirtyJ9, PageFlag.dirtyReactor,
    PageFlag.dirtyVram, PageFlag.dirtySram, dirtyBit]

/-- What is compiled again is a translation of the page, the other translations
stay. -/
theorem recompile_jit (block : BlockState) (cpu otherCpu : Cpu) (isa otherIsa : InstructionSet) :
    (block.recompile cpu isa).jit otherCpu otherIsa =
      if otherCpu = cpu ∧ otherIsa = isa then some ⟨isa, block.mem⟩
      else block.jit otherCpu otherIsa := by
  simp only [recompile, Function.update_apply]
  by_cases sameCpu : otherCpu = cpu <;> by_cases sameIsa : otherIsa = isa <;>
    simp [sameCpu, sameIsa]

theorem recompile_fresh {block : BlockState} {otherCpu : Cpu} (fresh : block.Fresh otherCpu)
    (cpu : Cpu) (isa : InstructionSet) : (block.recompile cpu isa).Fresh otherCpu := by
  intro otherIsa code compiled
  rw [recompile_jit] at compiled
  split at compiled
  · obtain rfl := Option.some.inj compiled
    rfl
  · exact fresh otherIsa code compiled

theorem recompile_marked {block : BlockState} (marked : block.Marked) (cpu : Cpu)
    (isa : InstructionSet) : (block.recompile cpu isa).Marked :=
  fun otherCpu clean => recompile_fresh (marked otherCpu clean) cpu isa

/-- What was compiled before is a translation of the page, the other
translations stay. -/
theorem recompileExisting_jit (block : BlockState) (cpu otherCpu : Cpu)
    (isa otherIsa : InstructionSet) :
    (block.recompileExisting cpu isa).jit otherCpu otherIsa =
      if otherCpu = cpu ∧ otherIsa = isa then (block.jit cpu isa).map fun _ => ⟨isa, block.mem⟩
      else block.jit otherCpu otherIsa := by
  unfold recompileExisting
  split
  next compiled =>
    obtain ⟨code, held⟩ := Option.isSome_iff_exists.mp compiled
    rw [recompile_jit, held]
    rfl
  next untranslated =>
    rw [Option.not_isSome_iff_eq_none] at untranslated
    split
    next same => rw [same.1, same.2, untranslated]; rfl
    next => rfl

@[simp]
theorem recompileExisting_flags (block : BlockState) (cpu : Cpu) (isa : InstructionSet) :
    (block.recompileExisting cpu isa).flags = block.flags := by
  unfold recompileExisting
  split <;> rfl

@[simp]
theorem recompileExisting_mem (block : BlockState) (cpu : Cpu) (isa : InstructionSet) :
    (block.recompileExisting cpu isa).mem = block.mem := by
  unfold recompileExisting
  split <;> rfl

/-- A page that was looked at for its dirty flag has current translations. -/
theorem recompileDirty_fresh {block : BlockState} (marked : block.Marked) (cpu : Cpu) :
    (block.recompileDirty cpu).Fresh cpu := by
  unfold recompileDirty
  split
  next =>
    intro isa code compiled
    rw [recompileExisting_mem, recompileExisting_mem]
    cases isa <;>
      simp only [recompileExisting_jit, recompileExisting_mem, true_and, if_true, reduceCtorEq,
        if_false, Option.mem_def, Option.map_eq_some_iff] at compiled <;>
      obtain ⟨-, -, rfl⟩ := compiled <;>
      rfl
  next clean => exact marked cpu clean

theorem recompileDirty_marked {block : BlockState} (marked : block.Marked) (cpu : Cpu) :
    (block.recompileDirty cpu).Marked := by
  intro otherCpu clean
  by_cases same : otherCpu = cpu
  · exact same ▸ recompileDirty_fresh marked cpu
  · unfold recompileDirty at clean ⊢
    split
    next dirty =>
      rw [if_pos dirty] at clean
      have before : ¬ block.has (PageFlag.dirtyFor otherCpu) := by
        rw [has_dirtyFor] at clean ⊢
        rw [recompileExisting_flags, recompileExisting_flags, BlockState.clean,
          BitVec.getLsbD_and] at clean
        -- the cleared bit is that of the other processor
        cases otherCpu <;> cases cpu <;>
          first | exact absurd rfl same | exact fun set => clean (by rw [set]; rfl)
      intro isa code compiled
      simp only [recompileExisting_jit, same, false_and, if_false] at compiled
      rw [recompileExisting_mem, recompileExisting_mem]
      exact marked otherCpu before isa code compiled
    next notDirty =>
      rw [if_neg notDirty] at clean
      exact marked otherCpu clean

end BlockState

/-! ### Writers -/

/-- Every page is dirty for every processor with a translation of other bytes. -/
def Translated (memory : GuestMemory) : Prop := ∀ page, (memory.blocks page).Marked

/-- The same, except that one page is about to be marked dirty. -/
def TranslatedExcept (page : MemoryBlock PhysRegion) (memory : GuestMemory) : Prop :=
  ∀ other, other ≠ page → (memory.blocks other).Marked

theorem Translated.modify {memory : GuestMemory} (translated : Translated memory)
    (page : MemoryBlock PhysRegion) {change : BlockState → BlockState}
    (marked : (change (memory.blocks page)).Marked) :
    Translated (memory.modify page change) := by
  intro other
  rw [GuestMemory.modify_blocks]
  split
  · exact marked
  · exact translated other

theorem Translated.except {memory : GuestMemory} (translated : Translated memory)
    (page : MemoryBlock PhysRegion) : TranslatedExcept page memory :=
  fun other _ => translated other

theorem TranslatedExcept.poke {page : MemoryBlock PhysRegion} {memory : GuestMemory}
    (except : TranslatedExcept page memory) (offset : BitVec 9) (bytes : List (BitVec 8)) :
    TranslatedExcept page (memory.modify page (·.poke offset bytes)) := by
  intro other different
  rw [GuestMemory.modify_blocks, if_neg different]
  exact except other different

theorem TranslatedExcept.dirty {page : MemoryBlock PhysRegion} {memory : GuestMemory}
    (except : TranslatedExcept page memory) :
    Translated (memory.modify page BlockState.dirty) := by
  intro other
  rw [GuestMemory.modify_blocks]
  split
  · exact BlockState.dirty_marked _
  next different => exact except other different

theorem Translated.pokeDirty {memory : GuestMemory} (translated : Translated memory)
    (page : MemoryBlock PhysRegion) (offset : BitVec 9) (bytes : List (BitVec 8)) :
    Translated (memory.modify page fun block => (block.poke offset bytes).dirty) :=
  translated.modify page (BlockState.dirty_marked _)

theorem Translated.store {memory : GuestMemory} (translated : Translated memory) (cpu : Cpu)
    (addr value protection align : BitVec 32) (size : Nat) :
    Translated (memory.store cpu addr value protection align size) := by
  unfold GuestMemory.store
  dsimp only
  split
  · exact translated
  · split
    · exact translated
    · exact translated.pokeDirty _ _ _

theorem TranslatedExcept.storeArrayLoop (cpu : Cpu) (data : List (BitVec 32))
    {page : MemoryBlock PhysRegion} {memory : GuestMemory}
    (except : TranslatedExcept page memory) (addr : BitVec 32) (subaddr : Nat) :
    Translated (GuestMemory.storeArrayLoop cpu data memory page addr subaddr) := by
  induction data generalizing page memory addr subaddr with
  | nil => exact except.dirty
  | cons value data ih =>
      rw [GuestMemory.storeArrayLoop]
      dsimp only
      have poked := except.poke (BitVec.ofNat 9 subaddr) (wordBytes 4 value)
      split
      · split
        · exact poked.dirty
        · exact ih (poked.dirty.except _) _ _
      · exact ih poked _ _

theorem Translated.store32Array {memory : GuestMemory} (translated : Translated memory)
    (cpu : Cpu) (addr : BitVec 32) (data : List (BitVec 32)) :
    Translated (memory.store32Array cpu addr data) := by
  unfold GuestMemory.store32Array
  dsimp only
  split
  · exact translated
  · split
    · exact translated
    · exact (translated.except _).storeArrayLoop cpu data addr _

theorem Translated.dmaTransfer {memory : GuestMemory} (translated : Translated memory)
    (ioLoad : BitVec 32 → BitVec 32) (src dst : BitVec 32) (size : Nat) :
    Translated (memory.dmaTransfer ioLoad src dst size) := by
  unfold GuestMemory.dmaTransfer
  dsimp only
  split
  · exact translated
  split
  · exact translated
  split
  · exact translated
  split
  · exact (translated.except _).dirty
  · exact ((translated.except _).poke _ _).dirty

theorem Translated.dmaLoop (ioLoad : BitVec 32 → BitVec 32) {memory : GuestMemory}
    (translated : Translated memory) (src dst ctrl : BitVec 32) (count : Nat) :
    Translated (GuestMemory.dmaLoop ioLoad memory src dst ctrl count) := by
  induction count generalizing memory src dst ctrl with
  | zero => exact translated
  | succ count ih =>
      rw [GuestMemory.dmaLoop]
      split
      · exact ih (translated.dmaTransfer _ _ _ _) _ _ _
      · exact translated

theorem Translated.streamProcess {memory : GuestMemory} (translated : Translated memory)
    (page : MemoryBlock PhysRegion) (offset : BitVec 9) (size : Nat) (file : List (BitVec 8)) :
    Translated (memory.streamProcess page offset size file).1 := by
  unfold GuestMemory.streamProcess
  split
  · exact translated
  · exact translated.pokeDirty _ _ _

theorem Translated.streamPages (cpu : Cpu) {memory : GuestMemory}
    (translated : Translated memory) (addr : BitVec 32) (len : Nat) (file : List (BitVec 8)) :
    Translated (GuestMemory.streamPages cpu memory addr len file) := by
  induction len using Nat.strong_induction_on generalizing memory addr file with
  | _ len ih =>
      rw [GuestMemory.streamPages]
      split
      · exact translated
      · exact ih _ (by omega) (translated.streamProcess _ _ _ _) _ _

theorem Translated.processMemory {memory : GuestMemory} (translated : Translated memory)
    (cpu : Cpu) (addr : BitVec 32) (len : Nat) (file : List (BitVec 8)) :
    Translated (memory.processMemory cpu addr len file) :=
  (translated.streamProcess _ _ _ _).streamPages cpu _ _ _

/-! ### Entries -/

theorem Translated.recompileDirty {memory : GuestMemory} (translated : Translated memory)
    (page : MemoryBlock PhysRegion) (cpu : Cpu) :
    Translated (memory.modify page (·.recompileDirty cpu)) :=
  translated.modify page (BlockState.recompileDirty_marked (translated page) cpu)

theorem Translated.flush {memory : GuestMemory} (translated : Translated memory)
    (page : MemoryBlock PhysRegion) : Translated (memory.modify page BlockState.flush) :=
  translated.modify page
    (BlockState.recompileDirty_marked
      (BlockState.recompileDirty_marked (translated page) .arm7) .arm9)

theorem BlockState.ensureJit_marked {block : BlockState} (marked : block.Marked) (cpu : Cpu)
    (isa : InstructionSet) : (block.ensureJit cpu isa).1.Marked := by
  unfold ensureJit
  split
  · exact marked
  · exact recompile_marked marked cpu isa

/-- The translation that is entered is current exactly when the page had no
other. -/
theorem BlockState.ensureJit_source_iff (block : BlockState) (cpu : Cpu) (isa : InstructionSet) :
    (block.ensureJit cpu isa).2.source = (block.ensureJit cpu isa).1.mem ↔
      ∀ code ∈ block.jit cpu isa, code.source = block.mem := by
  unfold ensureJit
  split
  next code compiled => simp [compiled]
  next untranslated => simp [untranslated, recompile]

theorem Translated.enter {memory : GuestMemory} (translated : Translated memory)
    (page : MemoryBlock PhysRegion) (cpu : Cpu) (isa : InstructionSet) (addr : BitVec 32) :
    Translated (memory.enter page cpu isa addr).1 := by
  unfold GuestMemory.enter
  dsimp only
  apply translated.modify page
  exact BlockState.ensureJit_marked (translated page) cpu isa

theorem GuestMemory.enter_source_iff (memory : GuestMemory) (page : MemoryBlock PhysRegion)
    (cpu : Cpu) (isa : InstructionSet) (addr : BitVec 32) :
    (memory.enter page cpu isa addr).2.code.source =
        ((memory.enter page cpu isa addr).1.blocks page).mem ↔
      ∀ code ∈ (memory.blocks page).jit cpu isa, code.source = (memory.blocks page).mem := by
  rw [← BlockState.ensureJit_source_iff]
  unfold enter
  dsimp only
  rw [modify_blocks, if_pos rfl]

/-- Every action keeps the translations accounted for. -/
theorem Translated.step {memory : GuestMemory} (translated : Translated memory)
    (action : GuestAction) : Translated (guestStep memory action) := by
  cases action with
  | store32 cpu addr value => exact translated.store cpu addr value _ _ _
  | store16 cpu addr value => exact translated.store cpu addr value _ _ _
  | store8 cpu addr value => exact translated.store cpu addr value _ _ _
  | store32Array cpu addr data => exact translated.store32Array cpu addr data
  | startDma ioLoad src dst ctrl => exact translated.dmaLoop ioLoad src dst ctrl _
  | load cpu addr len file => exact translated.processMemory cpu addr len file
  | flush page => exact translated.flush page
  | remap map => exact translated
  | branch cpu addr => exact (translated.recompileDirty _ cpu).enter _ cpu _ addr
  | getEntry cpu isa addr =>
      unfold guestStep guestRun GuestMemory.getEntry
      dsimp only
      split
      · exact translated
      · exact translated.enter _ cpu isa addr

/-- A branch always enters a current translation, and the runner does so exactly
under its condition. -/
theorem Translated.entersFresh_step_iff {memory : GuestMemory} (translated : Translated memory)
    (action : GuestAction) : EntersFresh memory action ↔ RunnerFindsCurrent memory action := by
  cases action with
  | store32 | store16 | store8 | store32Array | startDma | load | flush | remap =>
      simp [EntersFresh, RunnerFindsCurrent, guestRun]
  | branch cpu addr =>
      refine iff_of_true (fun entry entered => ?_) trivial
      obtain rfl := Option.some.inj entered
      refine (GuestMemory.enter_source_iff _ _ _ _ _).mpr ?_
      rw [GuestMemory.modify_blocks, if_pos rfl]
      exact BlockState.recompileDirty_fresh (translated _) cpu _
  | getEntry cpu isa addr =>
      unfold EntersFresh RunnerFindsCurrent guestRun GuestMemory.getEntry
      dsimp only
      split
      next prohibited => simp [prohibited]
      next permitted =>
        simp only [Option.mem_some_iff, forall_eq', permitted, not_false_eq_true, true_imp_iff]
        refine (GuestMemory.enter_source_iff _ _ _ _ _).trans ⟨fun current _ => current, ?_⟩
        intro current
        by_cases dirty : (memory.blocks (memory.addr2page cpu addr)).has (PageFlag.dirtyFor cpu)
        · exact current dirty
        · exact translated _ cpu dirty isa

theorem translated_start (map : Cpu → Nat → MemoryBlock PhysRegion)
    (flags : MemoryBlock PhysRegion → BitVec 32) (mem : MemoryBlock PhysRegion → PageBytes) :
    Translated (GuestMemory.start map flags mem) := by
  intro page cpu clean isa code compiled
  cases compiled

/-- In a run from untranslated memory every entry leads into a translation of
its page as it is, exactly when the runner finds every page it enters current. -/
theorem entersFresh_iff (map : Cpu → Nat → MemoryBlock PhysRegion)
    (flags : MemoryBlock PhysRegion → BitVec 32) (mem : MemoryBlock PhysRegion → PageBytes)
    (actions : List GuestAction) :
    LabelledRun.EveryStep guestStep EntersFresh (GuestMemory.start map flags mem) actions ↔
      LabelledRun.EveryStep guestStep RunnerFindsCurrent (GuestMemory.start map flags mem)
        actions :=
  LabelledRun.everyStep_iff_of_invariant
    (fun (memory : GuestMemory) action (inv : Translated memory) => inv.step action)
    (fun _ action inv => inv.entersFresh_step_iff action) (translated_start map flags mem) actions

/-- Both address spaces of a machine with main memory only. -/
def mainMemory : GuestMemory :=
  GuestMemory.start (fun _ page => (.ram, page % PhysRegion.ram.pages)) (fun _ => 0)
    (fun _ _ => 0)

/-- The runner starts a program that changes itself, branches and stores the
same again. -/
theorem entersFresh_selfModifying :
    LabelledRun.EveryStep guestStep EntersFresh mainMemory
      [.getEntry .arm9 .arm 0x02000000, .store32 .arm9 0x02000000 1,
        .branch .arm9 0x02000000, .store32 .arm9 0x02000000 1,
        .getEntry .arm9 .arm 0x02000000] := by
  refine (entersFresh_iff _ _ _ _).mpr ⟨?_, trivial, trivial, trivial, ?_, trivial⟩
  · intro _ dirty
    exact absurd dirty (by decide)
  · rintro _ _ code compiled
    obtain rfl := Option.some.inj compiled
    have same : BlockState.pokeBytes (BlockState.pokeBytes (fun _ => 0) 0 (wordBytes 4 1)) 0
        (wordBytes 4 1) = BlockState.pokeBytes (fun _ => 0) 0 (wordBytes 4 1) := by
      funext offset
      simp only [BlockState.pokeBytes, wordBytes, List.range, List.range.loop, List.map_cons,
        List.map_nil, Function.update_apply]
      split_ifs <;> rfl
    exact same.symm

/-- The runner enters the same page again after a store to it. -/
theorem entersFresh_fails_runner :
    ¬ LabelledRun.EveryStep guestStep EntersFresh mainMemory
      [.getEntry .arm9 .arm 0x02000000, .store32 .arm9 0x02000000 1,
        .getEntry .arm9 .arm 0x02000000] := by
  rintro ⟨-, -, fresh, -⟩
  have same := congrFun (fresh _ rfl) 0
  revert same
  decide

end Ndse
