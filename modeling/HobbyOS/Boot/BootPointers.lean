import HobbyOS.Boot.BootCode

namespace HobbyOS

open Library

/-!
# The pointers at the end of the boot sector

`bootloader.asm` fills the sector up to offset 498, and puts the addresses of
`vbe_info_block`, `mode_info_block` and `SMAP_entries` there, in front of the
boot signature.  In `BOOTCODE_t` one of the parameters is two bytes shorter
than its label, but with the 438 bytes of code behind them the fields for the
pointers are where the labels are.
-/

/-- The labels behind `DD vbe_info_block`, and their addresses. -/
structure BootPointers where
  vbeInfoBlock : PtrT
  modeInfoBlock : PtrT
  smapEntries : PtrT
  deriving DecidableEq

/-- The signature of a boot sector. -/
def bootSignature : BitVec 16 := 0xAA55

/-- What `bootloader.asm` puts at the end of the boot sector. -/
structure HoldsPointers
    (memory : Memory)
    (pointers : BootPointers) :
    Prop where
  vbeInfoBlock :
    readWord memory (bootcodeAddress 498) = pointers.vbeInfoBlock
  modeInfoBlock :
    readWord memory (bootcodeAddress (498 + 4)) = pointers.modeInfoBlock
  smapEntries :
    readWord memory (bootcodeAddress (498 + 8)) = pointers.smapEntries
  signature : readHalf memory (bootcodeAddress (498 + 12)) = bootSignature

/-- The fields of `BOOTCODE_t`. -/
inductive BootcodeField where
  | jmpBoot
  | oemName
  | bytesPerSector
  | sectorsPerCluster
  | reservedSectors
  | fatCopies
  | numberOfRootEntries
  | totalSectors
  | mediaDescriptor
  | sectorsPerFAT
  | sectorsPerTrack
  | numberOfHeads
  | numberOfHiddenSectors
  | totalSectors2
  | driveNumber
  | reserved
  | extensionSigniture
  | serialNumber
  | volumeLabel
  | filesystemType
  | code
  | vbeInfoBlock
  | modeInfoBlock
  | smapEntries
  | bootMagic
  deriving DecidableEq

/-- The fields in order. -/
def bootcodeFields : List BootcodeField :=
  [.jmpBoot, .oemName, .bytesPerSector, .sectorsPerCluster, .reservedSectors,
    .fatCopies, .numberOfRootEntries, .totalSectors, .mediaDescriptor,
    .sectorsPerFAT, .sectorsPerTrack, .numberOfHeads, .numberOfHiddenSectors,
    .totalSectors2, .driveNumber, .reserved, .extensionSigniture,
    .serialNumber, .volumeLabel, .filesystemType, .code, .vbeInfoBlock,
    .modeInfoBlock, .smapEntries, .bootMagic]

/-- The size of a field. -/
def BootcodeField.width : BootcodeField → Nat
  | jmpBoot => 3
  | oemName => 8
  | bytesPerSector => 2
  | sectorsPerCluster => 1
  | reservedSectors => 2
  | fatCopies => 1
  | numberOfRootEntries => 2
  | totalSectors => 2
  | mediaDescriptor => 1
  | sectorsPerFAT => 2
  | sectorsPerTrack => 2
  | numberOfHeads => 2
  | numberOfHiddenSectors => 4
  | totalSectors2 => 2
  | driveNumber => 1
  | reserved => 1
  | extensionSigniture => 1
  | serialNumber => 4
  | volumeLabel => 11
  | filesystemType => 8
  | code => 438
  | vbeInfoBlock => 4
  | modeInfoBlock => 4
  | smapEntries => 4
  | bootMagic => 2

/-- `&bootcode->field`. -/
def bootcodeFieldAddress (field : BootcodeField) : PtrT :=
  bootcodeAddress (offsetOf BootcodeField.width field bootcodeFields)

/-- The pointers as the kernel reads them from `*bootcode`. -/
def bootcodePointers (memory : Memory) : BootPointers where
  vbeInfoBlock := readWord memory (bootcodeFieldAddress .vbeInfoBlock)
  modeInfoBlock := readWord memory (bootcodeFieldAddress .modeInfoBlock)
  smapEntries := readWord memory (bootcodeFieldAddress .smapEntries)

/-- `sizeof(BOOTCODE_t)`. -/
def sizeofBootcode : Nat :=
  (bootcodeFields.map BootcodeField.width).sum

/-- A word has two halves. -/
theorem readWord_eq_halves (memory : Memory) (address : PtrT) :
    readWord memory address =
      readHalf memory (address + 2) ++ readHalf memory address := by
  have three : address + 2 + 1 = address + 3 := BitVec.add_assoc _ _ _
  rw [readWord, readHalf, readHalf, three]
  exact BitVec.append_assoc

/-- The kernel reads the pointers of the boot sector. -/
theorem HoldsPointers.bootcodePointers_eq
    {memory : Memory}
    {pointers : BootPointers}
    (holds : HoldsPointers memory pointers) :
    bootcodePointers memory = pointers := by
  have vbe :
      bootcodeFieldAddress .vbeInfoBlock = bootcodeAddress 498 := rfl
  have mode :
      bootcodeFieldAddress .modeInfoBlock = bootcodeAddress (498 + 4) := rfl
  have smap :
      bootcodeFieldAddress .smapEntries = bootcodeAddress (498 + 8) := rfl
  rw [bootcodePointers, vbe, mode, smap, holds.vbeInfoBlock,
    holds.modeInfoBlock, holds.smapEntries]

/-- A word of a `BOOTCODE_t` stays while the kernel is written. -/
theorem readWord_bootcodeField
    {memory after : Memory}
    {regions : List MemoryRegion}
    (unchanged : UnchangedOutside regions memory after)
    (inKernel : ∀ region ∈ regions, 0x10000 ≤ region.start.toNat)
    {field : BootcodeField}
    (inside :
      offsetOf BootcodeField.width field bootcodeFields + 4 ≤
        sizeofBootcode) :
    readWord after (bootcodeFieldAddress field) =
      readWord memory (bootcodeFieldAddress field) := by
  have total : sizeofBootcode = 512 := rfl
  have address :
      (bootcodeFieldAddress field).toNat =
        0x7C00 + offsetOf BootcodeField.width field bootcodeFields :=
    toNat_bootcodeAddress (by omega)
  refine readWord_congr (by omega) fun target _ below => ?_
  refine unchanged target fun region member => ?_
  have start := inKernel region member
  rw [MemoryRegion.Contains]
  omega

/-- The pointers in the boot sector stay while the kernel is written. -/
theorem bootcodePointers_of_unchangedOutside
    {memory after : Memory}
    {regions : List MemoryRegion}
    (unchanged : UnchangedOutside regions memory after)
    (inKernel : ∀ region ∈ regions, 0x10000 ≤ region.start.toNat) :
    bootcodePointers after = bootcodePointers memory := by
  have word {field : BootcodeField} :=
    @readWord_bootcodeField memory after regions unchanged inKernel field
  rw [bootcodePointers, bootcodePointers, word (by decide),
    word (by decide), word (by decide)]

end HobbyOS
