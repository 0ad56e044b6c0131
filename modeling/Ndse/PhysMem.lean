import Ndse.MemoryMap
import Ndse.Processor

/-!
# Physical memory

The physical regions of the machine with their sizes and priorities, and the
mapping each processor starts with.
-/

namespace Ndse

/-- The static members of `memory`, in the order of their definition. -/
inductive PhysRegion
  | nullRegion | hleBios | accessoryRam | accessoryRom | oamAb | objVramB | objVramA
  | bgVramB | bgVramA | palettes | arm7Shared | dataTcm | ram | instTcm | expWram
  | arm7Wram | systemRom | registers91 | transfer9 | registers71 | transfer7
  | vramA | vramB | vramC | vramD | vramE | vramF | vramG | vramH | vramI
deriving DecidableEq, Repr

namespace PhysRegion

/-- The size of each region in bytes. -/
def bytes : PhysRegion → Nat
  | nullRegion | hleBios | transfer9 | transfer7 => 512
  | accessoryRam | arm7Wram | vramE => 64 * 1024
  | accessoryRom | arm7Shared | instTcm | vramH => 32 * 1024
  | oamAb | palettes => 2048
  | objVramB | bgVramB | vramA | vramB | vramC | vramD => 128 * 1024
  | objVramA | expWram => 256 * 1024
  | bgVramA => 512 * 1024
  | dataTcm | vramF | vramG | vramI => 16 * 1024
  | ram => 4 * 1048576
  | systemRom => 0x10400
  | registers91 | registers71 => 8 * 1024

def pages (region : PhysRegion) : Nat := region.bytes / 512

def priority : PhysRegion → Nat
  | nullRegion => 0
  | dataTcm => 1000
  | instTcm => 1001
  | vramA => 2
  | vramB => 3
  | vramC => 4
  | vramD => 5
  | vramE => 6
  | vramF => 7
  | vramG => 8
  | vramH => 9
  | vramI => 10
  | _ => 1

/-- Regions compare by their addresses; the linker is taken to keep the order
of the definitions. -/
instance : LinearOrder PhysRegion where
  __ := LinearOrder.lift' PhysRegion.ctorIdx fun first second equal => by
    rw [← PhysRegion.ofNat_ctorIdx first, ← PhysRegion.ofNat_ctorIdx second, equal]
  toDecidableEq := inferInstanceAs (DecidableEq PhysRegion)

end PhysRegion

/-- What the memory map reads of the regions. -/
def physTable : RegionTable PhysRegion where
  pages := PhysRegion.pages
  priority := PhysRegion.priority
  null := .nullRegion
  pages_pos := by intro region; cases region <;> decide
  null_pages := rfl

/-- `PAGING::REGION`: the pages of an address range. -/
def pagingRegion (low high : Nat) : Nat × Nat := (low / 512, high / 512)

namespace MemoryMap

/-- `map_region` over an address range. -/
def mapRange (memory : MemoryMap PhysRegion) (region : PhysRegion) (low high : Nat) :
    MemoryMap PhysRegion :=
  memory.mapRegion physTable region (pagingRegion low high).1 (pagingRegion low high).2

/-- `map_region` at a page, for the length of the region. -/
def mapAt (memory : MemoryMap PhysRegion) (region : PhysRegion) (page : Nat) :
    MemoryMap PhysRegion :=
  memory.mapRegion physTable region page (page + region.pages)

end MemoryMap

/-- `memory::initializer<T>::initialize_mapping`. -/
def initializeMapping : Cpu → MemoryMap PhysRegion
  | .arm7 =>
      (MemoryMap.initNull physTable)
        |>.mapAt .hleBios (0xEFEF0000 / 512)
        |>.mapRange .accessoryRam 0x0A000000 0x0A100000
        |>.mapRange .accessoryRom 0x08000000 0x0A000000
        |>.mapRange .expWram 0x06000000 0x07000000
        |>.mapAt .registers71 (0x04000000 / 512)
        |>.mapAt .transfer7 (0x04100000 / 512)
        |>.mapRange .arm7Wram 0x03800000 0x04000000
        |>.mapRange .arm7Shared 0x03000000 0x03800000
        |>.mapRange .ram 0x02000000 0x03000000
        |>.mapRange .systemRom 0x00000000 0x00010400
  | .arm9 =>
      (MemoryMap.initNull physTable)
        |>.mapAt .hleBios (0xEFEF0000 / 512)
        |>.mapAt .oamAb (0x07000000 / 512)
        |>.mapAt .palettes (0x05000000 / 512)
        |>.mapAt .registers91 (0x04000000 / 512)
        |>.mapAt .transfer9 (0x04100000 / 512)
        |>.mapRange .ram 0x02000000 0x03000000

end Ndse
