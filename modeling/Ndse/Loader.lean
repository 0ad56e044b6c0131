import Ndse.GuestMemory

/-!
# The loaders of cartridge and raw images

Both read a file page by page into the memory of a processor: a cartridge image
has a header that names an image for each processor, a raw image goes to a fixed
address.
-/

namespace Ndse

/-- `util::load_hint`. -/
inductive LoadHint
  | unknown | arm7 | arm9 | raw7 | raw9
deriving DecidableEq, Repr

def loadArm7 : BitVec 32 := 0x1
def loadArm9 : BitVec 32 := 0x2

/-- `util::load_result`. -/
structure LoadResult where
  flags : BitVec 32
  arm9Entry : BitVec 32
  arm7Entry : BitVec 32
deriving DecidableEq, Repr

/-- What `loader_nds::load` uses of `ndsheader_main`. -/
structure NdsHeader where
  mainRomOffset : BitVec 32
  mainEntryAddress : BitVec 32
  mainRamAddress : BitVec 32
  mainSize : BitVec 32
  subRomOffset : BitVec 32
  subEntryAddress : BitVec 32
  subRamAddress : BitVec 32
  subSize : BitVec 32
deriving DecidableEq, Repr

/-- A word of a packed structure at the start of a file. -/
def fileWord (file : List (BitVec 8)) (offset : Nat) : BitVec 32 :=
  file.getD (offset + 3) 0 ++ file.getD (offset + 2) 0 ++ file.getD (offset + 1) 0 ++
    file.getD offset 0

/-- The header at the start of a file. -/
def readHeader (file : List (BitVec 8)) : NdsHeader where
  mainRomOffset := fileWord file 0x20
  mainEntryAddress := fileWord file 0x24
  mainRamAddress := fileWord file 0x28
  mainSize := fileWord file 0x2C
  subRomOffset := fileWord file 0x30
  subEntryAddress := fileWord file 0x34
  subRamAddress := fileWord file 0x38
  subSize := fileWord file 0x3C

/-- A size as the `int` that `process_memory` takes; the sizes that are negative
then are not modelled. -/
def intSize (size : BitVec 32) : Nat := size.toInt.toNat

/-- `loader_nds::load`; without a whole header it returns false. -/
def loaderNdsLoad (memory : GuestMemory) (file : List (BitVec 8)) :
    Option (GuestMemory × LoadResult) :=
  if file.length < 512 then none
  else
    let hdr := readHeader file
    let memory := memory.processMemory .arm9 hdr.mainRamAddress (intSize hdr.mainSize)
      (file.drop hdr.mainRomOffset.toNat)
    let memory := memory.processMemory .arm7 hdr.subRamAddress (intSize hdr.subSize)
      (file.drop hdr.subRomOffset.toNat)
    some (memory, {
      flags := loadArm7 ||| loadArm9
      arm9Entry := hdr.mainEntryAddress
      arm7Entry := hdr.subEntryAddress })

/-- `loader_raw::load`. -/
def loaderRawLoad (memory : GuestMemory) (res : LoadResult) (file : List (BitVec 8)) :
    LoadHint → Option (GuestMemory × LoadResult)
  | .arm9 | .raw9 =>
      some (memory.processMemory .arm9 0x02000000 (intSize (BitVec.ofNat 32 file.length)) file,
        { res with arm9Entry := 0x02000000, flags := loadArm9 })
  | .arm7 | .raw7 =>
      some (memory.processMemory .arm7 0x03800000 (intSize (BitVec.ofNat 32 file.length)) file,
        { res with arm7Entry := 0x03800000, flags := loadArm7 })
  | .unknown => none

end Ndse
