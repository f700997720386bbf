import HobbyOS.Library.BlockTransfer
import HobbyOS.Stddef

namespace HobbyOS

open Library

/-!
# The drive

The part of an ATA drive that `drive.c` relies on: the registers that are
written through the ports of `drive.h`, 28-bit block addresses with bits 27 to
24 in the low nibble of the drive register, and sectors of 512 bytes that are
moved through the data port.  The drive is busy for some status reads after a
command and between sectors, and always becomes ready again.
-/

/-- The bytes of the sectors, by block address and offset. -/
abbrev Disk := BitVec 28 → Nat → Byte

/-- The transfer a command started, with the sectors and bytes to come. -/
inductive Transfer where
  | idle : Transfer
  | reading (sector : BitVec 28) (sectors offset : Nat) : Transfer
  | writing (sector : BitVec 28) (sectors offset : Nat) : Transfer

/--
The registers and the disk.  The drive reports to be busy `delay` times more,
and `delays` are the delays it will take after that.
-/
structure Drive where
  disk : Disk
  driveRegister : Byte
  sectorCount : Byte
  sectorNumber : Byte
  cylinderLow : Byte
  cylinderHigh : Byte
  transfer : Transfer
  delay : Nat
  delays : Nat → Nat

/-- `DISK_SECTOR_COUNT_PORT`. -/
def diskSectorCountPort : BitVec 16 := 0x1F2

/-- `DISK_SECTOR_NUMBER_PORT`. -/
def diskSectorNumberPort : BitVec 16 := 0x1F3

/-- `DISK_CYLINDER_LOW_PORT`. -/
def diskCylinderLowPort : BitVec 16 := 0x1F4

/-- `DISK_CYLINDER_HIGH_PORT`. -/
def diskCylinderHighPort : BitVec 16 := 0x1F5

/-- `DISK_DRIVE_REGISTER`. -/
def diskDriveRegister : BitVec 16 := 0x1F6

/-- `DISK_COMMAND_PORT`. -/
def diskCommandPort : BitVec 16 := 0x1F7

/-- `READ_SECTORS_WITH_RETRY`. -/
def readSectorsWithRetry : Byte := 0x20

/-- `WRITE_SECTORS_WITH_RETRY`. -/
def writeSectorsWithRetry : Byte := 0x30

namespace Drive

/-- The block address in the registers. -/
def linearAddress (drive : Drive) : BitVec 28 :=
  BitVec.ofNat 28
    (drive.driveRegister.toNat % 16 * 2 ^ 24 +
      drive.cylinderHigh.toNat * 2 ^ 16 +
      drive.cylinderLow.toNat * 2 ^ 8 +
      drive.sectorNumber.toNat)

/-- The number of sectors in the register, where 0 stands for 256. -/
def sectors (drive : Drive) : Nat :=
  if drive.sectorCount = 0 then 256 else drive.sectorCount.toNat

/-- The drive takes up its next phase of work. -/
def busyAgain (drive : Drive) (transfer : Transfer) : Drive :=
  { drive with
    transfer := transfer
    delay := drive.delays 0
    delays := fun phase => drive.delays (phase + 1) }

/-- A command starts a transfer. -/
def command (drive : Drive) (value : Byte) : Drive :=
  if value = readSectorsWithRetry then
    drive.busyAgain (.reading drive.linearAddress drive.sectors 0)
  else if value = writeSectorsWithRetry then
    drive.busyAgain (.writing drive.linearAddress drive.sectors 0)
  else
    drive

/-- `outb`, to the ports of the drive. -/
def outb (drive : Drive) (port : BitVec 16) (value : Byte) : Drive :=
  if port = diskDriveRegister then
    { drive with driveRegister := value }
  else if port = diskSectorCountPort then
    { drive with sectorCount := value }
  else if port = diskSectorNumberPort then
    { drive with sectorNumber := value }
  else if port = diskCylinderLowPort then
    { drive with cylinderLow := value }
  else if port = diskCylinderHighPort then
    { drive with cylinderHigh := value }
  else if port = diskCommandPort then
    drive.command value
  else
    drive

/-- The status byte: busy, or ready, with a data request in a transfer. -/
def status (drive : Drive) : Byte :=
  if drive.delay ≠ 0 then
    0x80
  else
    match drive.transfer with
    | .idle => 0x40
    | _ => 0x48

/-- `disk_get_status`, which the drive gets ready over. -/
def getStatus (drive : Drive) : Byte × Drive :=
  (drive.status, { drive with delay := drive.delay - 1 })

/-- One word from the data port. -/
def inw (drive : Drive) : BitVec 16 × Drive :=
  match drive.transfer with
  | .reading sector sectors offset =>
      (drive.disk sector (offset + 1) ++ drive.disk sector offset,
        if offset + 2 < 512 then
          { drive with transfer := .reading sector sectors (offset + 2) }
        else if sectors ≤ 1 then
          { drive with transfer := .idle }
        else
          drive.busyAgain (.reading (sector + 1) (sectors - 1) 0))
  | _ => (0xFFFF, drive)

/-- One double word to the data port. -/
def outl (drive : Drive) (value : BitVec 32) : Drive :=
  match drive.transfer with
  | .writing sector sectors offset =>
      let written :=
        { drive with
          disk :=
            Function.update drive.disk sector
              fun position =>
                if offset ≤ position ∧ position < offset + 4 then
                  value.extractLsb' (8 * (position - offset)) 8
                else
                  drive.disk sector position }
      if offset + 4 < 512 then
        { written with transfer := .writing sector sectors (offset + 4) }
      else if sectors ≤ 1 then
        written.busyAgain .idle
      else
        written.busyAgain (.writing (sector + 1) (sectors - 1) 0)
  | _ => drive

end Drive

/-- `insw`, from the data port. -/
def insw (drive : Drive) (memory : Memory) (buf : PtrT) :
    Nat → Memory × Drive
  | 0 => (memory, drive)
  | n + 1 =>
      let (word, drive) := drive.inw
      insw drive (writeHalf memory buf word) (buf + 2) n

/-- `outsl`, to the data port. -/
def outsl (drive : Drive) (memory : Memory) (buf : PtrT) :
    Nat → Drive
  | 0 => drive
  | n + 1 => outsl (drive.outl (readWord memory buf)) memory (buf + 4) n

end HobbyOS
