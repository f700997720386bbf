import HobbyOS.Library.ByteMemory
import HobbyOS.Library.TransitionSystem
import HobbyOS.Library.Ownership
import HobbyOS.Stddef.Memmove
import HobbyOS.Stddef.Memcmp
import HobbyOS.PhysicalMemory.UsableMemory
import HobbyOS.PhysicalMemory.Completeness
import HobbyOS.PhysicalMemory.RunAddresses
import HobbyOS.PhysicalMemory.RegionOrder
import HobbyOS.PhysicalMemory.FirstFree
import HobbyOS.Boot.MapRuns
import HobbyOS.Boot.BootChain
import HobbyOS.Boot.ModeSelection
import HobbyOS.Drive.RoundTrip
import HobbyOS.Drive.BootParameters
import HobbyOS.FileSystem.MalformedTables
import HobbyOS.FileSystem.DirectoryBounds
import HobbyOS.FileSystem.FileService
import HobbyOS.VirtualMemory.AddressSpace
import HobbyOS.VirtualMemory.FrameOwnership
import HobbyOS.VirtualMemory.TableAccess
import HobbyOS.VirtualMemory.InitialSpace
import HobbyOS.VirtualMemory.FailedInitialization
import HobbyOS.Heap.PageMapping
import HobbyOS.Heap.Exhaustion
import HobbyOS.Heap.Safety
import HobbyOS.Heap.Tiling
import HobbyOS.Heap.SplitBounds
import HobbyOS.Heap.Placement
import HobbyOS.Heap.Defragmentation
import HobbyOS.Heap.Freeing
import HobbyOS.Heap.Termination
import HobbyOS.Heap.EntryLookups
import HobbyOS.Heap.LazyInitialization
import HobbyOS.Interrupts.VectorStore
import HobbyOS.Keyboard.Progress
import HobbyOS.Keyboard.Unended
import HobbyOS.Entry.KernelEntry
import HobbyOS.Timer.CounterStart
import HobbyOS.Keyboard.KeyState
import HobbyOS.ImageBuild.ChainLoading
import HobbyOS.ImageBuild.AllOrNothing
import HobbyOS.Video.BoxFrame
import HobbyOS.Video.Blending
import HobbyOS.Video.LineAccuracy
import HobbyOS.Video.HexDump
import HobbyOS.Video.TextBounds
import HobbyOS.Video.MaskRoundTrip
