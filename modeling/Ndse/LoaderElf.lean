import Ndse.LoaderImages
import Mathlib.Data.List.Pairwise

/-!
# The loader of ELF files

The segments of a file are read into the memory of one processor.  The loader
decides by a permission bit which program headers are segments to be loaded, not
by their type.
-/

namespace Ndse

/-- What `loader_elf::load` uses of an `Elf32_Phdr`, and its type. -/
structure ProgramHeader where
  type : BitVec 32
  offset : BitVec 32
  paddr : BitVec 32
  filesz : BitVec 32
  flags : BitVec 32
deriving DecidableEq, Repr

/-- What `libelf` returns for a file. -/
structure Elf where
  entry : BitVec 32
  phdr : List ProgramHeader
deriving DecidableEq, Repr

/-- `PT_LOAD`. -/
def ptLoad : BitVec 32 := 1

/-- The processor of a hint in `loader_elf::load`. -/
def LoadHint.elfCpu : LoadHint → Cpu
  | .arm7 => .arm7
  | _ => .arm9

/-- What the loader notes for a segment. -/
def LoadResult.entered (res : LoadResult) (entry : BitVec 32) : Cpu → LoadResult
  | .arm7 => { res with flags := res.flags ||| loadArm7, arm7Entry := entry }
  | .arm9 => { res with flags := res.flags ||| loadArm9, arm9Entry := entry }

/-- The body of the loop in `loader_elf::load`. -/
def loadSegment (file : List (BitVec 8)) (entry : BitVec 32) (cpu : Cpu)
    (state : GuestMemory × LoadResult) (phdr : ProgramHeader) : GuestMemory × LoadResult :=
  if phdr.flags &&& ptLoad = 0 then state
  else
    (state.1.processMemory cpu phdr.paddr (intSize phdr.filesz) (file.drop phdr.offset.toNat),
      state.2.entered entry cpu)

/-- `loader_elf::load`; `libelf` returns nothing for what is no ELF file. -/
def loaderElfLoad (memory : GuestMemory) (res : LoadResult) (file : List (BitVec 8))
    (libelf : Option Elf) (lh : LoadHint) : Option (GuestMemory × LoadResult) :=
  libelf.map fun elf => elf.phdr.foldl (loadSegment file elf.entry lh.elfCpu) (memory, res)

namespace ProgramHeader

/-- A segment to be loaded. -/
def Loadable (phdr : ProgramHeader) : Prop := phdr.type = ptLoad

/-- What the loader takes for one. -/
def Taken (phdr : ProgramHeader) : Prop := phdr.flags &&& ptLoad ≠ 0

instance (phdr : ProgramHeader) : Decidable phdr.Loadable := inferInstanceAs (Decidable (_ = _))

instance (phdr : ProgramHeader) : Decidable phdr.Taken := inferInstanceAs (Decidable (_ ≠ _))

/-- The bytes of a segment and where they go. -/
def image (phdr : ProgramHeader) (cpu : Cpu) : Image :=
  ⟨cpu, phdr.paddr, phdr.filesz.toNat, phdr.offset.toNat⟩

end ProgramHeader

namespace Elf

/-- The headers that are loaded or should be. -/
def segments (elf : Elf) : List ProgramHeader :=
  elf.phdr.filter fun phdr => phdr.Loadable ∨ phdr.Taken

/-- The file can be opened, the bytes of its segments are there, and so are
different bytes of memory for all of them. -/
structure Fits (elf : Elf) (memory : GuestMemory) (file : List (BitVec 8)) (cpu : Cpu) :
    Prop where
  openable : file.length < 2 ^ 31
  contained : ∀ phdr ∈ elf.segments, phdr.offset.toNat + phdr.filesz.toNat ≤ file.length
  valid : ∀ phdr ∈ elf.segments, ∀ k < phdr.filesz.toNat,
    memory.PageValid cpu (phdr.paddr + BitVec.ofNat 32 k)
  separate : memory.Separate (elf.segments.map (·.image cpu))

end Elf

namespace GuestMemory

/-- The bytes of a segment are in memory. -/
def Holds (memory : GuestMemory) (file : List (BitVec 8)) (cpu : Cpu) (phdr : ProgramHeader) :
    Prop :=
  ∀ k < phdr.filesz.toNat,
    file[phdr.offset.toNat + k]? = some (memory.byteAt cpu (phdr.paddr + BitVec.ofNat 32 k))

instance (memory : GuestMemory) (file : List (BitVec 8)) (cpu : Cpu) (phdr : ProgramHeader) :
    Decidable (memory.Holds file cpu phdr) :=
  inferInstanceAs (Decidable (∀ k < phdr.filesz.toNat, _ = _))

/-- The bytes of the segments to be loaded have become those of the file, and no
others have changed. -/
structure LoadsSegments (memory after : GuestMemory) (file : List (BitVec 8)) (elf : Elf)
    (cpu : Cpu) : Prop where
  placed : ∀ phdr ∈ elf.phdr, phdr.Loadable → after.Holds file cpu phdr
  kept : ∀ block offset,
    (∀ phdr ∈ elf.phdr, phdr.Loadable → ∀ k < phdr.filesz.toNat,
      memory.place cpu (phdr.paddr + BitVec.ofNat 32 k) ≠ (block, offset)) →
    (after.blocks block).mem offset = (memory.blocks block).mem offset

end GuestMemory

namespace Elf

variable {elf : Elf} {memory after : GuestMemory} {file : List (BitVec 8)} {cpu : Cpu}

theorem mem_segments {phdr : ProgramHeader} :
    phdr ∈ elf.segments ↔ phdr ∈ elf.phdr ∧ (phdr.Loadable ∨ phdr.Taken) := by
  rw [segments, List.mem_filter, decide_eq_true_iff]

/-- The headers that are taken are loaded as images. -/
theorem foldl_loadSegment (cpu : Cpu) (entry : BitVec 32) (phdrs : List ProgramHeader)
    (small : ∀ phdr ∈ phdrs, phdr.Taken → phdr.filesz.toNat < 2 ^ 31)
    (state : GuestMemory × LoadResult) :
    (phdrs.foldl (loadSegment file entry cpu) state).1 =
      state.1.loadImages file ((phdrs.filter (·.Taken)).map (·.image cpu)) := by
  induction phdrs generalizing state with
  | nil => rfl
  | cons phdr phdrs ih =>
      have rest := ih (fun other later => small other (List.mem_cons_of_mem _ later))
      rw [List.foldl_cons, rest]
      by_cases taken : phdr.Taken
      · have size := small phdr List.mem_cons_self taken
        rw [loadSegment, if_neg taken, List.filter_cons_of_pos (by simpa using taken),
          ImageFile.intSize_of_small size]
        rfl
      · rw [loadSegment, if_pos (not_not.mp taken),
          List.filter_cons_of_neg (by simpa using taken)]

theorem taken_sublist (elf : Elf) :
    List.Sublist (elf.phdr.filter (·.Taken)) elf.segments := by
  have both : elf.segments.filter (·.Taken) = elf.phdr.filter (·.Taken) := by
    rw [segments, List.filter_filter]
    congr 1
    funext phdr
    by_cases taken : phdr.Taken <;> simp [taken]
  rw [← both]
  exact List.filter_sublist

theorem Fits.taken_separate (fits : elf.Fits memory file cpu) :
    memory.Separate ((elf.phdr.filter (·.Taken)).map (·.image cpu)) where
  distinct := by
    intro image member
    exact fits.separate.distinct image ((elf.taken_sublist.map _).subset member)
  apart := fits.separate.apart.sublist (elf.taken_sublist.map _)

/-- Two segments have no byte of memory in common. -/
theorem Fits.apart (fits : elf.Fits memory file cpu) {one other : ProgramHeader}
    (oneMember : one ∈ elf.segments) (otherMember : other ∈ elf.segments)
    (different : one ≠ other) {j k : Nat} (jInside : j < one.filesz.toNat)
    (kInside : k < other.filesz.toNat) :
    memory.place cpu (one.paddr + BitVec.ofNat 32 j) ≠
      memory.place cpu (other.paddr + BitVec.ofNat 32 k) := by
  have symmetric : Std.Symm fun first second : ProgramHeader =>
      ∀ j < first.filesz.toNat, ∀ k < second.filesz.toNat,
        memory.PageValid cpu (first.paddr + BitVec.ofNat 32 j) →
        memory.PageValid cpu (second.paddr + BitVec.ofNat 32 k) →
          memory.place cpu (first.paddr + BitVec.ofNat 32 j) ≠
            memory.place cpu (second.paddr + BitVec.ofNat 32 k) :=
    ⟨fun _ _ apart j first k second valid there => (apart k second j first there valid).symm⟩
  have apart := @List.Pairwise.forall _ _ _ symmetric (List.pairwise_map.mp fits.separate.apart)
  exact apart oneMember otherMember different j jInside k kInside
    (fits.valid one oneMember j jInside) (fits.valid other otherMember k kInside)

/-- What is taken is loaded. -/
theorem Fits.loaded (fits : elf.Fits memory file cpu) (entry : BitVec 32) (res : LoadResult) :
    memory.Loaded (elf.phdr.foldl (loadSegment file entry cpu) (memory, res)).1 file
      ((elf.phdr.filter (·.Taken)).map (·.image cpu)) := by
  have contained {phdr : ProgramHeader} (member : phdr ∈ elf.phdr.filter (·.Taken)) :=
    fits.contained phdr (elf.taken_sublist.subset member)
  rw [foldl_loadSegment cpu entry elf.phdr]
  · apply GuestMemory.loadImages_loaded
    · intro image member
      obtain ⟨phdr, among, rfl⟩ := List.mem_map.mp member
      exact contained among
    · exact fits.taken_separate
  · intro phdr member taken
    have inside := contained (List.mem_filter.mpr ⟨member, decide_eq_true taken⟩)
    have bound := fits.openable
    omega

section

variable (fits : elf.Fits memory file cpu)
variable (loaded : memory.Loaded after file ((elf.phdr.filter (·.Taken)).map (·.image cpu)))

include fits loaded

theorem Fits.holds_taken {phdr : ProgramHeader} (member : phdr ∈ elf.phdr) (taken : phdr.Taken) :
    after.Holds file cpu phdr := by
  have among : phdr ∈ elf.phdr.filter (·.Taken) :=
    List.mem_filter.mpr ⟨member, decide_eq_true taken⟩
  have valid := fits.valid phdr (elf.taken_sublist.subset among)
  intro k inside
  have none : memory.skipped cpu phdr.paddr k = 0 := by
    rw [GuestMemory.skipped, Nat.count_iff_forall_not]
    exact fun j before => not_not.mpr (valid j (before.trans inside))
  have stored := loaded.stored _ (List.mem_map_of_mem among) k inside (valid k inside)
  change file[phdr.offset.toNat + (k - memory.skipped cpu phdr.paddr k)]? = _ at stored
  rwa [none, Nat.sub_zero] at stored

/-- A segment that is not taken stays as it was. -/
theorem Fits.holds_left {phdr : ProgramHeader} (member : phdr ∈ elf.segments)
    (left : ¬phdr.Taken) : after.Holds file cpu phdr ↔ memory.Holds file cpu phdr := by
  have same (k : Nat) (inside : k < phdr.filesz.toNat) :
      after.byteAt cpu (phdr.paddr + BitVec.ofNat 32 k) =
        memory.byteAt cpu (phdr.paddr + BitVec.ofNat 32 k) := by
    rw [GuestMemory.byteAt, GuestMemory.byteAt, loaded.same.place]
    apply loaded.kept
    intro image among j bound _
    obtain ⟨other, taken, rfl⟩ := List.mem_map.mp among
    refine fits.apart (elf.taken_sublist.subset taken) member ?_ bound inside
    rintro rfl
    exact left (of_decide_eq_true (List.mem_filter.mp taken).2)
  constructor
  · intro holds k inside
    rw [holds k inside, same k inside]
  · intro holds k inside
    rw [holds k inside, same k inside]

/-- The segments are loaded, and nothing else, exactly if the loader takes the
loadable ones or the bytes are in memory already. -/
theorem Fits.loadsSegments_iff :
    memory.LoadsSegments after file elf cpu ↔
      ∀ phdr ∈ elf.phdr, (phdr.Loadable ↔ phdr.Taken) ∨ memory.Holds file cpu phdr := by
  constructor
  · intro loads phdr member
    by_cases loadable : phdr.Loadable <;> by_cases taken : phdr.Taken
    · exact Or.inl (iff_of_true loadable taken)
    · have among := mem_segments.mpr ⟨member, Or.inl loadable⟩
      exact Or.inr ((fits.holds_left loaded among taken).mp (loads.placed phdr member loadable))
    · right
      intro k inside
      rw [fits.holds_taken loaded member taken k inside, GuestMemory.byteAt, loaded.same.place]
      apply congrArg some
      apply loads.kept
      intro other among isLoadable j bound
      refine fits.apart (mem_segments.mpr ⟨among, Or.inl isLoadable⟩)
        (mem_segments.mpr ⟨member, Or.inr taken⟩) ?_ bound inside
      rintro rfl
      exact loadable isLoadable
    · exact Or.inl (iff_of_false loadable taken)
  · intro condition
    constructor
    · intro phdr member loadable
      by_cases taken : phdr.Taken
      · exact fits.holds_taken loaded member taken
      · rw [fits.holds_left loaded (mem_segments.mpr ⟨member, Or.inl loadable⟩) taken]
        exact (condition phdr member).resolve_left fun agree => taken (agree.mp loadable)
    · intro block offset apart
      by_cases written : ∃ phdr ∈ elf.phdr, phdr.Taken ∧ ∃ k < phdr.filesz.toNat,
          memory.place cpu (phdr.paddr + BitVec.ofNat 32 k) = (block, offset)
      · obtain ⟨phdr, member, taken, k, inside, here⟩ := written
        have notLoadable : ¬phdr.Loadable :=
          fun loadable => apart phdr member loadable k inside here
        have before := (condition phdr member).resolve_left
          (fun agree => notLoadable (agree.mpr taken)) k inside
        have now := fits.holds_taken loaded member taken k inside
        rw [before, Option.some.injEq, GuestMemory.byteAt, GuestMemory.byteAt, loaded.same.place,
          here] at now
        exact now.symm
      · apply loaded.kept
        intro image among k inside _ here
        obtain ⟨phdr, taken, rfl⟩ := List.mem_map.mp among
        obtain ⟨member, taken⟩ := List.mem_filter.mp taken
        exact written ⟨phdr, member, of_decide_eq_true taken, k, inside, here⟩

end

end Elf

/-- A file is loaded as its program headers say exactly if the executable ones are
those to be loaded, apart from segments whose bytes are in memory already. -/
theorem loaderElfLoad_iff {elf : Elf} {memory : GuestMemory} {file : List (BitVec 8)}
    {lh : LoadHint} (fits : elf.Fits memory file lh.elfCpu) (res : LoadResult) :
    ∃ after result, loaderElfLoad memory res file (some elf) lh = some (after, result) ∧
      (memory.LoadsSegments after file elf lh.elfCpu ↔
        ∀ phdr ∈ elf.phdr,
          (phdr.Loadable ↔ phdr.Taken) ∨ memory.Holds file lh.elfCpu phdr) :=
  ⟨_, _, rfl, fits.loadsSegments_iff (fits.loaded elf.entry res)⟩

/-- A segment of three bytes for main memory, readable and executable. -/
theorem loaderElfLoad_iff_code :
    let elf : Elf := ⟨0x02000000, [⟨1, 0, 0x02000000, 3, 5⟩]⟩
    ∃ after result, loaderElfLoad (ImageFile.loneRam 0x10000) ⟨0, 0, 0⟩ [1, 2, 3] (some elf) .arm9 =
        some (after, result) ∧
      ((ImageFile.loneRam 0x10000).LoadsSegments after [1, 2, 3] elf .arm9 ↔
        ∀ phdr ∈ elf.phdr,
          (phdr.Loadable ↔ phdr.Taken) ∨ (ImageFile.loneRam 0x10000).Holds [1, 2, 3] .arm9 phdr) :=
  loaderElfLoad_iff ⟨by decide, by decide, by decide, by decide, List.pairwise_singleton _ _⟩ _

/-- A segment of three bytes for main memory, readable only. -/
def readOnlyElf : Elf := ⟨0x02000000, [⟨1, 0, 0x02000000, 3, 4⟩]⟩

theorem load_omits_readOnly :
    readOnlyElf.Fits (ImageFile.loneRam 0x10000) [1, 2, 3] .arm9 ∧
      ∀ after result, loaderElfLoad (ImageFile.loneRam 0x10000) ⟨0, 0, 0⟩ [1, 2, 3]
          (some readOnlyElf) .arm9 = some (after, result) →
        ¬(ImageFile.loneRam 0x10000).LoadsSegments after [1, 2, 3] readOnlyElf .arm9 := by
  have fits : readOnlyElf.Fits (ImageFile.loneRam 0x10000) [1, 2, 3] .arm9 :=
    ⟨by decide, by decide, by decide, by decide, List.pairwise_singleton _ _⟩
  refine ⟨fits, fun after result run loads => ?_⟩
  rw [loaderElfLoad, Option.map_some, Option.some.injEq, Prod.mk.injEq] at run
  have holds := loads.placed _ List.mem_cons_self rfl
  rw [← run.1] at holds
  have before :=
    (fits.holds_left (fits.loaded readOnlyElf.entry _) List.mem_cons_self (by decide)).mp holds
  exact absurd before (by decide)

end Ndse
