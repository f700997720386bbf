import HobbyOS.Drive.DiskAccess

namespace HobbyOS

open Library

/-!
# The file system

`find_entry` and `read_all_to` of `FAT16.c`.  The root directory lies in the
memory, with entries of 32 bytes.  `ClusterTable` is a variable of its own,
which is read inside its 0xC00 entries only.  The loops that depend on the
contents of both take fuel.
-/

/-- The size of a `DirectoryEntry_t`. -/
def directoryEntrySize : Nat := 32

/-- The offset of `starting_cluster` in a `DirectoryEntry_t`. -/
def startingClusterOffset : Nat := 26

/-- `ClusterTable`, by cluster. -/
abbrev ClusterTable := BitVec 16 → BitVec 16

/-- The loop of `find_entry`, from an entry on. -/
def findEntryLoop
    (memory : Memory)
    (nameExt : PtrT) :
    Nat → PtrT → Option PtrT
  | 0, _ => none
  | fuel + 1, entry =>
      if memory entry ≠ 0 then
        if memcmp memory entry nameExt 11 = 0 then
          some entry
        else
          findEntryLoop memory nameExt fuel
            (entry + BitVec.ofNat 32 directoryEntrySize)
      else
        some 0

/-- `find_entry`, which returns 0 if there is no such entry. -/
def findEntry
    (fuel : Nat)
    (memory : Memory)
    (rootDirectory nameExt : PtrT) :
    Option PtrT :=
  findEntryLoop memory nameExt fuel rootDirectory

/--
The inner loop of `read_all_to`, with `current` and `run`.  It goes on while
`run` is below `256 / SectorsPerCluster`, which is `remaining` steps away.
-/
def extendRun
    (clusterTable : ClusterTable) :
    Nat → BitVec 16 → Nat → BitVec 16 × Nat
  | 0, current, run => (current, run)
  | remaining + 1, current, run =>
      if current.toNat < 0xFFF0 ∧
          (clusterTable current).toNat = current.toNat + 1 then
        extendRun clusterTable remaining (clusterTable current) (run + 1)
      else
        (current, run)

/--
The body of the outer loop of `read_all_to`, where `first` and `current` are
the same.  It yields the memory, the drive, and the next `to`, which is called
`destination` here, and `first`.
-/
def readRun
    (fuel : Nat)
    (info : DiskFSInfo)
    (clusterTable : ClusterTable)
    (memory : Memory)
    (drive : Drive)
    (destination : PtrT)
    (first : BitVec 16) :
    Option (Memory × Drive × PtrT × BitVec 16) := do
  let sectorsPerCluster := info.sectorsPerCluster.toNat
  let (current, run) :=
    extendRun clusterTable (256 / sectorsPerCluster - 1) first 1
  let (memory, drive) ←
    diskReadFrom fuel memory drive destination (first.setWidth 32)
      (BitVec.ofNat 8 (run * sectorsPerCluster))
  let destination :=
    destination +
      BitVec.ofNat 32
        (run * sectorsPerCluster * info.bytesPerSector.toNat)
  return (memory, drive, destination, clusterTable current)

/-- The outer loop of `read_all_to`, with the loops of the drive fuelled. -/
def readRuns
    (waitFuel : Nat)
    (info : DiskFSInfo)
    (clusterTable : ClusterTable) :
    Nat → Memory → Drive → PtrT → BitVec 16 → Option (Memory × Drive)
  | 0, _, _, _, _ => none
  | fuel + 1, memory, drive, destination, first =>
      if first.toNat < 0xFFF0 then do
        let (memory, drive, destination, first) ←
          readRun waitFuel info clusterTable memory drive destination first
        readRuns waitFuel info clusterTable fuel memory drive destination first
      else
        some (memory, drive)

/-- `read_all_to`. -/
def readAllTo
    (fuel : Nat)
    (info : DiskFSInfo)
    (clusterTable : ClusterTable)
    (memory : Memory)
    (drive : Drive)
    (destination entry : PtrT) :
    Option (Memory × Drive) :=
  readRuns fuel info clusterTable fuel memory drive destination
    (readHalf memory (entry + BitVec.ofNat 32 startingClusterOffset))

end HobbyOS
