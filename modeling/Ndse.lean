import Ndse.Library.LabelledRun
import Ndse.Library.SplitIntervalMap
import Ndse.Library.ByteMemory
import Ndse.Library.CarryArithmetic
import Ndse.Library.FlatCode
import Ndse.Library.FlatAssertions
import Ndse.Library.BitFields
import Ndse.Library.RingWindow
import Ndse.Processor
import Ndse.ProcessorCpsr
import Ndse.ProcessorBanking
import Ndse.Interrupt
import Ndse.InterruptDelivery
import Ndse.InterruptTransparency
import Ndse.MemoryMap
import Ndse.MemoryMapExact
import Ndse.PhysMem
import Ndse.Vram
import Ndse.VramMapping
import Ndse.MappingClash
import Ndse.MappingClashRuns
import Ndse.GuestMemory
import Ndse.BlockTransfer
import Ndse.GuestPlaces
import Ndse.MemoryAccess
import Ndse.StoreRuns
import Ndse.Dma
import Ndse.Library.ReflectedCrc
import Ndse.PageWalk
import Ndse.PageVisits
import Ndse.Crc16
import Ndse.DebugString
import Ndse.SoftwareDivision
import Ndse.Translation
import Ndse.Breakpoint
import Ndse.BreakpointPatching
import Ndse.BreakpointRuns
import Ndse.IoRegisters
import Ndse.IoRegistersNarrow
import Ndse.IpcFifo
import Ndse.IpcFifoStatus
import Ndse.IpcSync
import Ndse.Disassembler
import Ndse.DisassemblerArm
import Ndse.ArmEncoding
import Ndse.DisassemblerDecodes
import Ndse.ArmDataProcessing
import Ndse.Host
import Ndse.Compiler
import Ndse.HostStraight
import Ndse.CompilerResults
import Ndse.CompilerConditions
import Ndse.CompilerFlags
import Ndse.Lz77
import Ndse.Lz77Format
import Ndse.Lz77Decodes
import Ndse.Lz77Output
import Ndse.Lz77Leftovers
import Ndse.Decomp
import Ndse.Loader
import Ndse.LoaderPlacing
import Ndse.LoaderImages
import Ndse.LoaderElf
import Ndse.Library.BitShifts
import Ndse.CompilerShifts
import Ndse.CompilerLogic
import Ndse.CompilerAddressing
import Ndse.DisassemblerThumb
import Ndse.DisassemblerPaths
import Ndse.Branches
import Ndse.CompilerBranches
import Ndse.BreakpointBranches
import Ndse.CompilerLeftovers
import Ndse.GuestWords
import Ndse.HostStack
import Ndse.CompilerTransfers
import Ndse.CompilerStatus
import Ndse.CompilerClz
import Ndse.CompilerLongMultiply
import Ndse.CompilerSizes
import Ndse.CompilerStack
import Ndse.CompilerPages
import Ndse.Callstack
import Ndse.HlCore
import Ndse.SourceDebug
import Ndse.LoaderDebug
import Ndse.CrashResolution
import Ndse.SubInstructions
import Ndse.DisassemblerText
import Ndse.Library.FinitePatterns
import Ndse.DisassemblerConditions
import Ndse.DisassemblerUnique
