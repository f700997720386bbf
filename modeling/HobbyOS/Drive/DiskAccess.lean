import HobbyOS.Drive.AtaDrive

namespace HobbyOS

open Library

/-!
# Reading and writing sectors

`disk_read_from` and `disk_write_to` of `drive.c`.  The loops that wait for
the drive take fuel.  `disk_write_to` never advances the `counter` that is to
limit its second loop, so the loops of both functions are the same, and the
interrupt behind the limit is not reached.
-/

/-- The fields of `DiskFSInfo_t` that are read after the start. -/
structure DiskFSInfo where
  bytesPerSector : BitVec 16
  sectorsPerCluster : Byte
  driveNumber : Byte

/-- The loop that waits for the drive to accept a command. -/
def waitReady : Nat → Drive → Option Drive
  | 0, _ => none
  | fuel + 1, drive =>
      let (status, drive) := drive.getStatus
      if status &&& 0b10000000 ≠ 0 then
        waitReady fuel drive
      else
        some drive

/-- The loop that waits for the drive to request data. -/
def waitRequest : Nat → Drive → Option Drive
  | 0, _ => none
  | fuel + 1, drive =>
      let (status, drive) := drive.getStatus
      if status &&& 0b10000000 ≠ 0 ∨ status &&& 0b1000 = 0 then
        waitRequest fuel drive
      else
        some drive

/-- The body of the loop in `disk_read_from`, for sector `i`. -/
def readSector
    (fuel : Nat)
    (location : PtrT)
    (i : Nat)
    (memory : Memory)
    (drive : Drive) :
    Option (Memory × Drive) := do
  let drive ← waitRequest fuel drive
  return insw drive memory (location + BitVec.ofNat 32 (i * 512)) 256

/--
The loop of `disk_read_from` over the sectors, from sector `i` on.  The
counter is a `uint8_t` below `number_of_sectors`, so it does not wrap.
-/
def readSectors (fuel : Nat) (location : PtrT) :
    Nat → Nat → Memory → Drive → Option (Memory × Drive)
  | 0, _, memory, drive => some (memory, drive)
  | sectors + 1, i, memory, drive => do
      let (memory, drive) ← readSector fuel location i memory drive
      readSectors fuel location sectors (i + 1) memory drive

/-- The body of the loop in `disk_write_to`, for sector `i`. -/
def writeSector
    (fuel : Nat)
    (memory : Memory)
    (location : PtrT)
    (i : Nat)
    (drive : Drive) :
    Option Drive := do
  let drive ← waitRequest fuel drive
  return outsl drive memory (location + BitVec.ofNat 32 (i * 512)) 128

/-- The loop of `disk_write_to` over the sectors, from sector `i` on. -/
def writeSectors (fuel : Nat) (memory : Memory) (location : PtrT) :
    Nat → Nat → Drive → Option Drive
  | 0, _, drive => some drive
  | sectors + 1, i, drive => do
      let drive ← writeSector fuel memory location i drive
      writeSectors fuel memory location sectors (i + 1) drive

/-- The writes to the registers that both functions make alike. -/
def selectSectors
    (drive : Drive)
    (register : Byte)
    (linearBlockAddress : AddrT)
    (numberOfSectors : Byte) :
    Drive :=
  let drive := drive.outb diskDriveRegister register
  let drive := drive.outb diskSectorCountPort numberOfSectors
  let drive :=
    drive.outb diskSectorNumberPort
      (((linearBlockAddress >>> 0) &&& 0xFF).setWidth 8)
  let drive :=
    drive.outb diskCylinderLowPort
      (((linearBlockAddress >>> 8) &&& 0xFF).setWidth 8)
  drive.outb diskCylinderHighPort
    (((linearBlockAddress >>> 16) &&& 0xFF).setWidth 8)

/-- `0b11100000 | ((linear_block_address >> 24) & 0xF)`, as a byte. -/
def readRegister (linearBlockAddress : AddrT) : Byte :=
  ((0b11100000 : AddrT) |||
    ((linearBlockAddress >>> 24) &&& 0xF)).setWidth 8

/-- `0xE0 | (FS_info.DriveNumber & 0xF)`. -/
def writeRegister (info : DiskFSInfo) : Byte :=
  0xE0 ||| (info.driveNumber &&& 0xF)

/-- `disk_read_from`. -/
def diskReadFrom
    (fuel : Nat)
    (memory : Memory)
    (drive : Drive)
    (location : PtrT)
    (linearBlockAddress : AddrT)
    (numberOfSectors : Byte) :
    Option (Memory × Drive) :=
  if numberOfSectors = 0 then
    some (memory, drive)
  else do
    let drive ← waitReady fuel drive
    let drive :=
      selectSectors drive (readRegister linearBlockAddress)
        linearBlockAddress numberOfSectors
    let drive := drive.outb diskCommandPort readSectorsWithRetry
    readSectors fuel location numberOfSectors.toNat 0 memory drive

/-- `disk_write_to`. -/
def diskWriteTo
    (fuel : Nat)
    (info : DiskFSInfo)
    (memory : Memory)
    (drive : Drive)
    (location : PtrT)
    (linearBlockAddress : AddrT)
    (numberOfSectors : Byte) :
    Option Drive :=
  if numberOfSectors = 0 then
    some drive
  else do
    let drive ← waitReady fuel drive
    let drive :=
      selectSectors drive (writeRegister info) linearBlockAddress
        numberOfSectors
    let drive := drive.outb diskCommandPort writeSectorsWithRetry
    writeSectors fuel memory location numberOfSectors.toNat 0 drive

end HobbyOS
