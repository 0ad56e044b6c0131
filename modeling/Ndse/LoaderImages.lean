import Ndse.LoaderPlacing

/-!
# Images in memory

Every byte of an image on a page that is there comes from the file, but from as
many places earlier as bytes of the image were skipped before it.
-/

namespace Ndse

/-- A piece of a file for the memory of a processor. -/
structure Image where
  cpu : Cpu
  ramAddress : BitVec 32
  size : Nat
  romOffset : Nat
deriving DecidableEq, Repr

/-- A kind of file, by the loader for it. -/
inductive ImageFile
  | nds
  | raw (hint : LoadHint)

namespace ImageFile

/-- `loader_nds::load` or `loader_raw::load`. -/
def load (memory : GuestMemory) (res : LoadResult) (file : List (BitVec 8)) :
    ImageFile → Option (GuestMemory × LoadResult)
  | nds => loaderNdsLoad memory file
  | raw hint => loaderRawLoad memory res file hint

/-- What such a file has to offer. -/
def images (file : List (BitVec 8)) : ImageFile → List Image
  | nds =>
      let hdr := readHeader file
      [⟨.arm9, hdr.mainRamAddress, hdr.mainSize.toNat, hdr.mainRomOffset.toNat⟩,
        ⟨.arm7, hdr.subRamAddress, hdr.subSize.toNat, hdr.subRomOffset.toNat⟩]
  | raw .arm9 | raw .raw9 => [⟨.arm9, 0x02000000, file.length, 0⟩]
  | raw .arm7 | raw .raw7 => [⟨.arm7, 0x03800000, file.length, 0⟩]
  | raw .unknown => []

/-- The file has a header, or the processor is known, and all bytes of the
images are there. -/
structure Complete (file : List (BitVec 8)) (kind : ImageFile) : Prop where
  header : kind = nds → 512 ≤ file.length
  known : kind ≠ raw .unknown
  contained : ∀ image ∈ kind.images file, image.romOffset + image.size ≤ file.length
  small : ∀ image ∈ kind.images file, image.size < 2 ^ 31

end ImageFile

namespace GuestMemory

/-- No two bytes of the images are the same byte of a page that is there. -/
structure Separate (memory : GuestMemory) (images : List Image) : Prop where
  distinct : ∀ image ∈ images, memory.Distinct image.cpu image.ramAddress image.size
  apart : images.Pairwise fun first second =>
    ∀ j < first.size, ∀ k < second.size,
      memory.PageValid first.cpu (first.ramAddress + BitVec.ofNat 32 j) →
        memory.PageValid second.cpu (second.ramAddress + BitVec.ofNat 32 k) →
          memory.place first.cpu (first.ramAddress + BitVec.ofNat 32 j) ≠
            memory.place second.cpu (second.ramAddress + BitVec.ofNat 32 k)

/-- Every byte of the images whose page is there has become the byte of the
file, and what was written to is dirty. -/
structure LoadsExactly (memory after : GuestMemory) (file : List (BitVec 8))
    (images : List Image) : Prop where
  placed : ∀ image ∈ images, ∀ k < image.size,
    memory.PageValid image.cpu (image.ramAddress + BitVec.ofNat 32 k) →
      file[image.romOffset + k]? =
        some (after.byteAt image.cpu (image.ramAddress + BitVec.ofNat 32 k))
  dirty : ∀ image ∈ images, ∀ k < image.size,
    memory.PageValid image.cpu (image.ramAddress + BitVec.ofNat 32 k) →
      after.PageDirty (memory.addr2page image.cpu (image.ramAddress + BitVec.ofNat 32 k))
  marked : ∀ block, after.blocks block = memory.blocks block ∨ after.PageDirty block

/-- The byte of the file as many places earlier as bytes were skipped is the same
one. -/
def Unshifted (memory : GuestMemory) (file : List (BitVec 8)) (image : Image) : Prop :=
  ∀ k < image.size, memory.PageValid image.cpu (image.ramAddress + BitVec.ofNat 32 k) →
    file[image.romOffset + (k - memory.skipped image.cpu image.ramAddress k)]? =
      file[image.romOffset + k]?

instance (memory : GuestMemory) (file : List (BitVec 8)) (image : Image) :
    Decidable (memory.Unshifted file image) :=
  inferInstanceAs (Decidable (∀ k < image.size, _))

/-- In particular when the pages that are there come before those that are not. -/
theorem unshifted_of_contiguous {memory : GuestMemory} {image : Image} (file : List (BitVec 8))
    (contiguous : ∀ k < image.size, ∀ j < k,
      memory.PageValid image.cpu (image.ramAddress + BitVec.ofNat 32 k) →
        memory.PageValid image.cpu (image.ramAddress + BitVec.ofNat 32 j)) :
    memory.Unshifted file image := by
  intro k inside valid
  have none : memory.skipped image.cpu image.ramAddress k = 0 := by
    rw [skipped, Nat.count_iff_forall_not]
    intro j before
    exact not_not.mpr (contiguous k inside j before valid)
  rw [none, Nat.sub_zero]

/-! ### Image after image -/

/-- The images one after another. -/
def loadImages (memory : GuestMemory) (file : List (BitVec 8)) (images : List Image) :
    GuestMemory :=
  images.foldl (fun memory image =>
    memory.processMemory image.cpu image.ramAddress image.size (file.drop image.romOffset)) memory

/-- What loading does to the images. -/
structure Loaded (memory after : GuestMemory) (file : List (BitVec 8)) (images : List Image) :
    Prop where
  same : SameProtection memory after
  stored : ∀ image ∈ images, ∀ k < image.size,
    memory.PageValid image.cpu (image.ramAddress + BitVec.ofNat 32 k) →
      file[image.romOffset + (k - memory.skipped image.cpu image.ramAddress k)]? =
        some (after.byteAt image.cpu (image.ramAddress + BitVec.ofNat 32 k))
  kept : ∀ block offset,
    (∀ image ∈ images, ∀ k < image.size,
      memory.PageValid image.cpu (image.ramAddress + BitVec.ofNat 32 k) →
        memory.place image.cpu (image.ramAddress + BitVec.ofNat 32 k) ≠ (block, offset)) →
    (after.blocks block).mem offset = (memory.blocks block).mem offset
  dirty : ∀ image ∈ images, ∀ k < image.size,
    memory.PageValid image.cpu (image.ramAddress + BitVec.ofNat 32 k) →
      after.PageDirty (memory.addr2page image.cpu (image.ramAddress + BitVec.ofNat 32 k))
  marked : ∀ block, after.blocks block = memory.blocks block ∨ after.PageDirty block

variable {memory middle after : GuestMemory} {file : List (BitVec 8)}
variable {image : Image} {images : List Image}

theorem SameProtection.separate (same : SameProtection memory after)
    (separate : memory.Separate images) : after.Separate images where
  distinct := fun image member => same.distinct (separate.distinct image member)
  apart := by
    refine separate.apart.imp fun apart j first k second => ?_
    rw [same.pageValid_iff, same.pageValid_iff, same.place, same.place]
    exact apart j first k second

theorem loaded_nil (memory : GuestMemory) (file : List (BitVec 8)) :
    Loaded memory memory file [] where
  same := ⟨rfl, fun _ => rfl⟩
  stored := fun _ member => nomatch member
  kept := fun _ _ _ => rfl
  dirty := fun _ member => nomatch member
  marked := fun _ => Or.inl rfl

theorem Loaded.keepsDirty (loaded : Loaded memory after file images)
    {block : MemoryBlock PhysRegion} (dirty : memory.PageDirty block) : after.PageDirty block := by
  cases loaded.marked block with
  | inl unchanged =>
      rw [PageDirty, unchanged]
      exact dirty
  | inr marked => exact marked

/-- The images that follow leave the bytes of the first one. -/
theorem Loaded.keeps (others : Loaded middle after file images)
    (same : SameProtection memory middle) (separate : memory.Separate (image :: images))
    {k : Nat} (inside : k < image.size)
    (valid : memory.PageValid image.cpu (image.ramAddress + BitVec.ofNat 32 k)) :
    after.byteAt image.cpu (image.ramAddress + BitVec.ofNat 32 k) =
      middle.byteAt image.cpu (image.ramAddress + BitVec.ofNat 32 k) := by
  rw [byteAt, byteAt, others.same.place]
  apply others.kept
  intro other member j bound
  rw [same.pageValid_iff, same.place, same.place]
  intro there equal
  have apart := List.rel_of_pairwise_cons separate.apart member
  exact apart k inside j bound valid there equal.symm

theorem Loaded.cons {rest : List (BitVec 8)}
    (one : Stores memory middle image.cpu image.ramAddress image.size
      (file.drop image.romOffset) rest)
    (others : Loaded middle after file images) (separate : memory.Separate (image :: images)) :
    Loaded memory after file (image :: images) where
  same := one.same.trans others.same
  stored := by
    intro other member k inside valid
    cases List.mem_cons.mp member with
    | inl first =>
        rw [first] at inside valid ⊢
        rw [others.keeps one.same separate inside valid, ← one.stored k inside valid,
          List.getElem?_drop]
    | inr later =>
        have found := others.stored other later k inside ((one.same.pageValid_iff _ _).mpr valid)
        rwa [one.same.skipped] at found
  kept := by
    intro block offset apart
    rw [others.kept, one.kept]
    · exact apart image List.mem_cons_self
    · intro other later k inside
      rw [one.same.pageValid_iff, one.same.place]
      exact apart other (List.mem_cons_of_mem _ later) k inside
  dirty := by
    intro other member k inside valid
    cases List.mem_cons.mp member with
    | inl first =>
        rw [first] at inside valid ⊢
        exact others.keepsDirty (one.dirty k inside valid)
    | inr later =>
        have page := others.dirty other later k inside ((one.same.pageValid_iff _ _).mpr valid)
        rw [addr2page, one.same.map] at page
        exact page
  marked := by
    intro block
    cases one.marked block with
    | inl unchanged =>
        rw [← unchanged]
        exact others.marked block
    | inr marked => exact Or.inr (others.keepsDirty marked)

theorem loadImages_loaded (memory : GuestMemory) (file : List (BitVec 8)) (images : List Image)
    (contained : ∀ image ∈ images, image.romOffset + image.size ≤ file.length)
    (separate : memory.Separate images) :
    Loaded memory (memory.loadImages file images) file images := by
  induction images generalizing memory with
  | nil => exact loaded_nil memory file
  | cons image images ih =>
      have bound := contained image List.mem_cons_self
      obtain ⟨rest, one⟩ := processMemory_stores memory image.cpu image.ramAddress image.size
        (file.drop image.romOffset) (by rw [List.length_drop]; omega)
        (separate.distinct image List.mem_cons_self)
      have after := ih (memory.processMemory image.cpu image.ramAddress image.size
        (file.drop image.romOffset))
        (fun other later => contained other (List.mem_cons_of_mem _ later))
        (one.same.separate
          ⟨fun other later => separate.distinct other (List.mem_cons_of_mem _ later),
            separate.apart.of_cons⟩)
      exact Loaded.cons one after separate

/-- What has been loaded is right where the file repeats itself or nothing was
skipped. -/
theorem Loaded.loadsExactly_iff (loaded : Loaded memory after file images) :
    LoadsExactly memory after file images ↔ ∀ image ∈ images, memory.Unshifted file image := by
  constructor
  · intro exact image member k inside valid
    rw [loaded.stored image member k inside valid, exact.placed image member k inside valid]
  · intro unshifted
    refine ⟨fun image member k inside valid => ?_, loaded.dirty, loaded.marked⟩
    rw [← unshifted image member k inside valid, loaded.stored image member k inside valid]

end GuestMemory

namespace ImageFile

theorem intSize_of_small {size : BitVec 32} (small : size.toNat < 2 ^ 31) :
    intSize size = size.toNat := by
  rw [intSize, BitVec.toInt_eq_toNat_of_lt (by omega), Int.toNat_natCast]

/-- The loaders load one image after another. -/
theorem Complete.load_eq {file : List (BitVec 8)} {kind : ImageFile} (complete : kind.Complete file)
    (memory : GuestMemory) (res : LoadResult) :
    ∃ result, kind.load memory res file =
      some (memory.loadImages file (kind.images file), result) := by
  cases kind with
  | nds =>
      have header : ¬ file.length < 512 := not_lt.mpr (complete.header rfl)
      have main := complete.small _ List.mem_cons_self
      have sub := complete.small _ (List.mem_cons_of_mem _ List.mem_cons_self)
      rw [load, loaderNdsLoad, if_neg header]
      dsimp only
      rw [intSize_of_small main, intSize_of_small sub]
      exact ⟨_, rfl⟩
  | raw hint =>
      have length (small : file.length < 2 ^ 31) :
          intSize (BitVec.ofNat 32 file.length) = file.length := by
        have word : (BitVec.ofNat 32 file.length).toNat = file.length := by
          rw [BitVec.toNat_ofNat]
          omega
        rw [intSize_of_small (by omega), word]
      cases hint with
      | unknown => exact absurd rfl complete.known
      | arm7 | raw7 | arm9 | raw9 =>
          have small := complete.small _ List.mem_cons_self
          rw [load, loaderRawLoad, length small]
          exact ⟨_, rfl⟩

theorem load_loaded {file : List (BitVec 8)} {kind : ImageFile} {memory : GuestMemory}
    (complete : kind.Complete file) (separate : memory.Separate (kind.images file))
    (res : LoadResult) :
    ∃ after result, kind.load memory res file = some (after, result) ∧
      memory.Loaded after file (kind.images file) := by
  obtain ⟨result, run⟩ := complete.load_eq memory res
  exact ⟨_, result, run,
    memory.loadImages_loaded file (kind.images file) complete.contained separate⟩

/-- A load puts the bytes where they belong exactly if no byte of an image comes
to lie behind skipped ones, or the file does not tell the difference. -/
theorem load_exact_iff {file : List (BitVec 8)} {kind : ImageFile} {memory : GuestMemory}
    (complete : kind.Complete file) (separate : memory.Separate (kind.images file))
    (res : LoadResult) :
    ∃ after result, kind.load memory res file = some (after, result) ∧
      (memory.LoadsExactly after file (kind.images file) ↔
        ∀ image ∈ kind.images file, memory.Unshifted file image) := by
  obtain ⟨after, result, run, loaded⟩ := load_loaded complete separate res
  exact ⟨after, result, run, loaded.loadsExactly_iff⟩

/-- Nothing but one page of main memory, from an address on. -/
def loneRam (page : Nat) : GuestMemory where
  map := fun _ index => if index = page then ⟨.ram, 0⟩ else ⟨.nullRegion, 0⟩
  blocks := fun b =>
    { flags := if b.1 = .ram then 0 else PageFlag.invalid
      jit := fun _ _ => none
      recompiles := 0
      mem := fun _ => 0 }

/-- A raw image of three bytes. -/
theorem load_exact_iff_raw :
    ∃ after result, (raw .arm9).load (loneRam 0x10000) ⟨0, 0, 0⟩ [1, 2, 3] =
        some (after, result) ∧
      ((loneRam 0x10000).LoadsExactly after [1, 2, 3] [⟨.arm9, 0x02000000, 3, 0⟩] ↔
        ∀ image ∈ [Image.mk .arm9 0x02000000 3 0],
          (loneRam 0x10000).Unshifted [1, 2, 3] image) := by
  have complete : (raw .arm9).Complete [1, 2, 3] := ⟨nofun, nofun, by decide, by decide⟩
  have separate : (loneRam 0x10000).Separate ((raw .arm9).images [1, 2, 3]) :=
    ⟨by decide, List.pairwise_singleton _ _⟩
  exact load_exact_iff complete separate ⟨0, 0, 0⟩

/-- A cartridge with two bytes for the addresses `1FFh` and `200h`. -/
def smallCartridge : List (BitVec 8) :=
  (List.range 514).map fun i =>
    if i = 0x21 then 0x02
    else if i = 0x28 then 0xFF
    else if i = 0x29 then 0x01
    else if i = 0x2C then 2
    else if i = 512 then 0xAA
    else if i = 513 then 0xBB
    else 0

/-- The first of the two bytes has no page; it ends up where the second one
belongs. -/
theorem load_shifts_behind_hole :
    nds.Complete smallCartridge ∧ (loneRam 1).Separate (nds.images smallCartridge) ∧
      ∀ after result, nds.load (loneRam 1) ⟨0, 0, 0⟩ smallCartridge = some (after, result) →
        ¬(loneRam 1).LoadsExactly after smallCartridge (nds.images smallCartridge) := by
  have images : nds.images smallCartridge = [⟨.arm9, 0x1FF, 2, 512⟩, ⟨.arm7, 0, 0, 0⟩] := by
    decide +kernel
  have complete : nds.Complete smallCartridge := by
    refine ⟨fun _ => by decide +kernel, nofun, ?_, ?_⟩ <;> rw [images] <;> decide +kernel
  have separate : (loneRam 1).Separate (nds.images smallCartridge) := by
    rw [images]
    exact ⟨by decide, List.pairwise_pair.mpr fun j _ k none => absurd none (Nat.not_lt_zero k)⟩
  have shifted : ¬(loneRam 1).Unshifted smallCartridge ⟨.arm9, 0x1FF, 2, 512⟩ := by
    decide +kernel
  refine ⟨complete, separate, fun after result run exact => ?_⟩
  obtain ⟨_, _, found, loaded⟩ := load_loaded complete separate ⟨0, 0, 0⟩
  rw [run, Option.some.injEq, Prod.mk.injEq] at found
  rw [← found.1] at loaded
  apply shifted
  apply loaded.loadsExactly_iff.mp exact
  rw [images]
  exact List.mem_cons_self

end ImageFile

end Ndse
