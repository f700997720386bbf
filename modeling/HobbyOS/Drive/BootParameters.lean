import HobbyOS.Drive.DiskAccess
import HobbyOS.Library.PackedRecord
import HobbyOS.Stddef.Memmove

namespace HobbyOS

open Library

/-!
# The parameters in the boot sector

`bootloader.asm` lays out the parameters of the file system one behind the
other, each with the width of its directive.  `initialize_disk` copies them
into a packed `DiskFSInfo_t`, which `disk_get_info` returns.  A field is its
bytes, least significant byte first.
-/

/-- The labels of the parameters in `bootloader.asm`. -/
inductive ParameterLabel where
  | oemName
  | bytesPerSec
  | secPerClst
  | reservedSec
  | fatCopies
  | numRootEnt
  | totalSec
  | mediaDesc
  | numSecPerFAT
  | secPerTrk
  | numHeads
  | numHiddenSec
  | totalSec2
  | driveNum
  | reserved
  | extSig
  | serialNum
  | volLabel
  | fsType
  deriving DecidableEq

open ParameterLabel in
/-- The labels in order. -/
def parameterLabels : List ParameterLabel :=
  [oemName, bytesPerSec, secPerClst, reservedSec, fatCopies, numRootEnt,
    totalSec, mediaDesc, numSecPerFAT, secPerTrk, numHeads, numHiddenSec,
    totalSec2, driveNum, reserved, extSig, serialNum, volLabel, fsType]

/-- The bytes that the directive of a label lays out. -/
def ParameterLabel.width : ParameterLabel → Nat
  | oemName => 8
  | bytesPerSec => 2
  | secPerClst => 1
  | reservedSec => 2
  | fatCopies => 1
  | numRootEnt => 2
  | totalSec => 2
  | mediaDesc => 1
  | numSecPerFAT => 2
  | secPerTrk => 2
  | numHeads => 2
  | numHiddenSec => 4
  | totalSec2 => 4
  | driveNum => 1
  | reserved => 1
  | extSig => 1
  | serialNum => 4
  | volLabel => 11
  | fsType => 8

/-- The values of the parameters, as they are laid out. -/
structure BootParameters where
  bytes : ParameterLabel → List Byte
  sized : ∀ label, (bytes label).length = label.width

/-- `jmp start`, a near jump: the assembler is run with `-O0`. -/
def jmpBoot : List Byte := [0xE9, 59, 0]

/-- The boot sector up to the end of the parameters. -/
def BootParameters.bootSector (parameters : BootParameters) : List Byte :=
  jmpBoot ++ parameterLabels.flatMap parameters.bytes

/-- The fields of `DiskFSInfo_t`. -/
inductive DiskFSInfoField where
  | oemName
  | bytesPerSector
  | sectorsPerCluster
  | reservedSectors
  | fatCopies
  | numberOfRootEntries
  | totalSectors
  | mediaDescriptor
  | sectorsPerFAT
  | sectorsPerTrack
  | numberOfHeads
  | numberOfHiddenSectors
  | totalSectors2
  | driveNumber
  | reserved
  | extensionSigniture
  | serialNumber
  | volumeLabel
  | filesystemType
  deriving DecidableEq

/-- The fields in front of `TotalSectors2`. -/
def fieldsInFront : List DiskFSInfoField :=
  [.oemName, .bytesPerSector, .sectorsPerCluster, .reservedSectors, .fatCopies,
    .numberOfRootEntries, .totalSectors, .mediaDescriptor, .sectorsPerFAT,
    .sectorsPerTrack, .numberOfHeads, .numberOfHiddenSectors]

/-- The fields behind `TotalSectors2`. -/
def fieldsBehind : List DiskFSInfoField :=
  [.driveNumber, .reserved, .extensionSigniture, .serialNumber, .volumeLabel,
    .filesystemType]

/-- The fields in order. -/
def diskFSInfoFields : List DiskFSInfoField :=
  fieldsInFront ++ .totalSectors2 :: fieldsBehind

/-- The size of a field. -/
def DiskFSInfoField.width : DiskFSInfoField → Nat
  | oemName => 8
  | bytesPerSector => 2
  | sectorsPerCluster => 1
  | reservedSectors => 2
  | fatCopies => 1
  | numberOfRootEntries => 2
  | totalSectors => 2
  | mediaDescriptor => 1
  | sectorsPerFAT => 2
  | sectorsPerTrack => 2
  | numberOfHeads => 2
  | numberOfHiddenSectors => 4
  | totalSectors2 => 2
  | driveNumber => 1
  | reserved => 1
  | extensionSigniture => 1
  | serialNumber => 4
  | volumeLabel => 11
  | filesystemType => 8

/-- `sizeof(DiskFSInfo_t)`. -/
def sizeofDiskFSInfo : Nat :=
  (diskFSInfoFields.map DiskFSInfoField.width).sum

/-- `&bootcode->OEMName[0]`, behind the three bytes of `JmpBoot`. -/
def bootcodeOEMName : PtrT := 0x7C00 + 3

/-- `initialize_disk`, with the address of `FS_info`. -/
def initializeDisk (fsInfo : PtrT) (memory : Memory) : Memory :=
  memcpy memory fsInfo bootcodeOEMName (BitVec.ofNat 32 sizeofDiskFSInfo)

/-- `disk_get_info`: the fields of `FS_info` with their bytes. -/
def diskGetInfo (fsInfo : PtrT) (memory : Memory) :
    List (DiskFSInfoField × List Byte) :=
  unpack DiskFSInfoField.width diskFSInfoFields
    (loadBytes memory fsInfo sizeofDiskFSInfo)

/-! ## What is decoded -/

/-- The parameter that a field stands for. -/
def DiskFSInfoField.label : DiskFSInfoField → ParameterLabel
  | oemName => .oemName
  | bytesPerSector => .bytesPerSec
  | sectorsPerCluster => .secPerClst
  | reservedSectors => .reservedSec
  | fatCopies => .fatCopies
  | numberOfRootEntries => .numRootEnt
  | totalSectors => .totalSec
  | mediaDescriptor => .mediaDesc
  | sectorsPerFAT => .numSecPerFAT
  | sectorsPerTrack => .secPerTrk
  | numberOfHeads => .numHeads
  | numberOfHiddenSectors => .numHiddenSec
  | totalSectors2 => .totalSec2
  | driveNumber => .driveNum
  | reserved => .reserved
  | extensionSigniture => .extSig
  | serialNumber => .serialNum
  | volumeLabel => .volLabel
  | filesystemType => .fsType

/-- Every field has the value of its parameter. -/
structure DecodesParameters
    (parameters : BootParameters)
    (info : List (DiskFSInfoField × List Byte)) :
    Prop where
  fields : info.map Prod.fst = diskFSInfoFields
  values :
    ∀ field ∈ info,
      littleEndian field.2 = littleEndian (parameters.bytes field.1.label)

/-- The boot sector is where the BIOS has loaded it. -/
def HoldsBootSector (memory : Memory) (parameters : BootParameters) : Prop :=
  loadBytes memory 0x7C00 parameters.bootSector.length = parameters.bootSector

/-- `FS_info` is a variable of the kernel, which is linked to 0x10000. -/
structure FSInfoPlaced (fsInfo : PtrT) : Prop where
  inKernel : 0x10000 ≤ fsInfo.toNat
  fits : fsInfo.toNat + sizeofDiskFSInfo ≤ 2 ^ 32

namespace BootParameters

variable (parameters : BootParameters)

/-- The bytes of the parameter of a field. -/
def fieldBytes (field : DiskFSInfoField) : List Byte :=
  parameters.bytes field.label

/-- The widths differ at `TotalSectors2` only. -/
theorem length_fieldBytes (field : DiskFSInfoField) :
    (parameters.fieldBytes field).length =
      if field = .totalSectors2 then 4 else field.width := by
  rw [fieldBytes, parameters.sized]
  cases field <;> rfl

/-- The parameters are laid out in the order of the fields. -/
theorem bootSector_eq :
    parameters.bootSector =
      jmpBoot ++
        (fieldsInFront.flatMap parameters.fieldBytes ++
          (parameters.fieldBytes .totalSectors2 ++
            fieldsBehind.flatMap parameters.fieldBytes)) := by
  have order : parameterLabels = diskFSInfoFields.map DiskFSInfoField.label :=
    rfl
  rw [bootSector, order, List.flatMap_map, diskFSInfoFields,
    List.flatMap_append, List.flatMap_cons]
  rfl

/-- The parameters behind `BS_TotalSec2` have 26 bytes. -/
theorem length_behind :
    (fieldsBehind.flatMap parameters.fieldBytes).length = 26 := by
  simp only [fieldsBehind, List.flatMap_cons, List.flatMap_nil,
    List.length_append, length_fieldBytes]
  rfl

/-- The parameters in front of `BS_TotalSec2` have 29 bytes. -/
theorem length_inFront :
    (fieldsInFront.flatMap parameters.fieldBytes).length = 29 := by
  simp only [fieldsInFront, List.flatMap_cons, List.flatMap_nil,
    List.length_append, length_fieldBytes]
  rfl

end BootParameters

section Decoding

variable
  {fsInfo : PtrT}
  {memory : Memory}
  {parameters : BootParameters}

/-- `FS_info` gets the bytes behind the jump. -/
theorem loadBytes_initializeDisk
    (placed : FSInfoPlaced fsInfo)
    (holds : HoldsBootSector memory parameters) :
    loadBytes (initializeDisk fsInfo memory) fsInfo sizeofDiskFSInfo =
      (fieldsInFront.flatMap parameters.fieldBytes ++
        (parameters.fieldBytes .totalSectors2 ++
          fieldsBehind.flatMap parameters.fieldBytes)).take 57 := by
  have inKernel := placed.inKernel
  have fits := placed.fits
  have size : sizeofDiskFSInfo = 57 := rfl
  have length : (BitVec.ofNat 32 sizeofDiskFSInfo).toNat = 57 := rfl
  have source : bootcodeOEMName.toNat = 0x7C03 := rfl
  have total : parameters.bootSector.length = 3 + 59 := by
    rw [parameters.bootSector_eq, List.length_append, List.length_append,
      List.length_append, parameters.length_inFront,
      parameters.length_behind, parameters.length_fieldBytes]
    rfl
  rw [HoldsBootSector, total] at holds
  have behindJump := congrArg (List.drop 3) holds
  rw [drop_loadBytes, parameters.bootSector_eq] at behindJump
  have rest := congrArg (List.take 57) behindJump
  rw [take_loadBytes (by decide)] at rest
  rw [initializeDisk,
    memcpy_eq_storeBytes (by omega) (by omega) (.inl (by omega)), length,
    size, loadBytes_storeBytes (by decide)]
  exact rest

/-- The fields in front are right, and the others are shifted by two bytes. -/
theorem diskGetInfo_initializeDisk
    (placed : FSInfoPlaced fsInfo)
    (holds : HoldsBootSector memory parameters) :
    diskGetInfo fsInfo (initializeDisk fsInfo memory) =
      fieldsInFront.map (fun field => (field, parameters.fieldBytes field)) ++
        (.totalSectors2, (parameters.fieldBytes .totalSectors2).take 2) ::
          unpack DiskFSInfoField.width fieldsBehind
            ((parameters.fieldBytes .totalSectors2).drop 2 ++
              (fieldsBehind.flatMap parameters.fieldBytes).take 24) := by
  have four : (parameters.fieldBytes .totalSectors2).length = 4 :=
    parameters.length_fieldBytes _
  have cut :
      (fieldsInFront.flatMap parameters.fieldBytes ++
          (parameters.fieldBytes .totalSectors2 ++
            fieldsBehind.flatMap parameters.fieldBytes)).take 57 =
        fieldsInFront.flatMap parameters.fieldBytes ++
          (parameters.fieldBytes .totalSectors2 ++
            (fieldsBehind.flatMap parameters.fieldBytes).take 24) := by
    have front := parameters.length_inFront
    rw [List.take_append, List.take_of_length_le (by omega), List.take_append,
      List.take_of_length_le (by omega), front, four]
  rw [diskGetInfo, loadBytes_initializeDisk placed holds, cut,
    diskFSInfoFields, unpack_append (fun field member => ?_)]
  · have two : DiskFSInfoField.width .totalSectors2 = 2 := rfl
    rw [unpack, two, List.take_append_of_le_length (by omega),
      List.drop_append_of_le_length (by omega)]
  · rw [parameters.length_fieldBytes, if_neg]
    rintro rfl
    revert member
    decide

/-- The number in a field. -/
def fieldValue
    (info : List (DiskFSInfoField × List Byte))
    (field : DiskFSInfoField) :
    Nat :=
  littleEndian ((info.lookup field).getD [])

/-- The fields that the disk functions read. -/
def usedInfo (info : List (DiskFSInfoField × List Byte)) : DiskFSInfo where
  bytesPerSector := BitVec.ofNat 16 (fieldValue info .bytesPerSector)
  sectorsPerCluster := BitVec.ofNat 8 (fieldValue info .sectorsPerCluster)
  driveNumber := BitVec.ofNat 8 (fieldValue info .driveNumber)

/--
The disk functions get the right sizes, and as the drive number the third byte
of `BS_TotalSec2`.
-/
theorem usedInfo_initializeDisk
    (placed : FSInfoPlaced fsInfo)
    (holds : HoldsBootSector memory parameters) :
    usedInfo (diskGetInfo fsInfo (initializeDisk fsInfo memory)) =
      { bytesPerSector :=
          BitVec.ofNat 16 (littleEndian (parameters.bytes .bytesPerSec))
        sectorsPerCluster :=
          BitVec.ofNat 8 (littleEndian (parameters.bytes .secPerClst))
        driveNumber := (parameters.bytes .totalSec2).getD 2 0 } := by
  have four : (parameters.fieldBytes .totalSectors2).length = 4 :=
    parameters.length_fieldBytes _
  obtain ⟨first, second, third, fourth, bytes⟩ :=
    List.length_eq_four.mp four
  have total : parameters.bytes .totalSec2 = [first, second, third, fourth] :=
    bytes
  have number : BitVec.ofNat 8 (littleEndian [third]) = third := by
    rw [littleEndian, List.map_singleton, Nat.ofDigits_singleton,
      BitVec.ofNat_toNat, BitVec.setWidth_eq]
  rw [diskGetInfo_initializeDisk placed holds, bytes, total]
  exact congrArg (DiskFSInfo.mk _ _) number

/-- The two bytes of the field are the whole number if it is small. -/
theorem totalSectors2_iff (parameters : BootParameters) :
    littleEndian ((parameters.fieldBytes .totalSectors2).take 2) =
        littleEndian (parameters.fieldBytes .totalSectors2) ↔
      littleEndian (parameters.fieldBytes .totalSectors2) < 2 ^ 16 := by
  have four : (parameters.fieldBytes .totalSectors2).length = 4 :=
    parameters.length_fieldBytes _
  rw [littleEndian_take_eq_iff]
  have parts :
      littleEndian (parameters.fieldBytes .totalSectors2) = _ :=
    congrArg littleEndian
      (List.take_append_drop 2 (parameters.fieldBytes .totalSectors2)).symm
  have low :=
    @littleEndian_lt ((parameters.fieldBytes .totalSectors2).take 2)
  have two : ((parameters.fieldBytes .totalSectors2).take 2).length = 2 := by
    rw [List.length_take]
    omega
  rw [littleEndian_append, two] at parts
  rw [two] at low
  omega

/-- The fields behind are right if their bytes are the same without a shift. -/
theorem forall_unpack_behind_iff
    (parameters : BootParameters)
    {bytes : List Byte}
    (length : bytes.length = 26) :
    (∀ field ∈ unpack DiskFSInfoField.width fieldsBehind bytes,
        littleEndian field.2 =
          littleEndian (parameters.bytes field.1.label)) ↔
      bytes = fieldsBehind.flatMap parameters.fieldBytes := by
  have sized :
      ∀ field ∈ fieldsBehind,
        (parameters.fieldBytes field).length = field.width := by
    intro field member
    rw [parameters.length_fieldBytes, if_neg]
    rintro rfl
    revert member
    decide
  have equal :
      (∀ field ∈ unpack DiskFSInfoField.width fieldsBehind bytes,
          littleEndian field.2 =
            littleEndian (parameters.bytes field.1.label)) ↔
        ∀ field ∈ unpack DiskFSInfoField.width fieldsBehind bytes,
          field.2 = parameters.fieldBytes field.1 := by
    refine forall_congr' fun field => imp_congr_right fun member => ?_
    have widths : (fieldsBehind.map DiskFSInfoField.width).sum = 26 := rfl
    obtain ⟨listed, width⟩ :=
      length_of_mem_unpack (by rw [widths, length]) member
    exact littleEndian_inj (width.trans (sized field.1 listed).symm)
  rw [equal, forall_unpack_iff sized, parameters.length_behind,
    List.take_of_length_le (Nat.le_of_eq length)]

/-- Shifted by two zeros, the parameters behind are the same only as zeros. -/
theorem shifted_eq_iff
    (parameters : BootParameters)
    (high : littleEndian ((parameters.fieldBytes .totalSectors2).drop 2) = 0) :
    (parameters.fieldBytes .totalSectors2).drop 2 ++
          (fieldsBehind.flatMap parameters.fieldBytes).take 24 =
        fieldsBehind.flatMap parameters.fieldBytes ↔
      ∀ field ∈ fieldsBehind,
        littleEndian (parameters.fieldBytes field) = 0 := by
  have four : (parameters.fieldBytes .totalSectors2).length = 4 :=
    parameters.length_fieldBytes _
  have behind := parameters.length_behind
  have zeros :
      (parameters.fieldBytes .totalSectors2).drop 2 = List.replicate 2 0 :=
    List.eq_replicate_iff.mpr
      ⟨by rw [List.length_drop, four], littleEndian_eq_zero_iff.mp high⟩
  simp only [littleEndian_eq_zero_iff]
  rw [zeros]
  generalize fieldsBehindIs : fieldsBehind.flatMap parameters.fieldBytes = rest
    at behind ⊢
  have member (byte : Byte) :
      byte ∈ rest ↔
        ∃ field ∈ fieldsBehind, byte ∈ parameters.fieldBytes field := by
    rw [← fieldsBehindIs, List.mem_flatMap]
  constructor
  · intro same field listed byte inField
    have shifted : (List.replicate 2 0 ++ rest).take rest.length = rest := by
      rw [List.take_append, List.length_replicate, behind,
        List.take_of_length_le (by decide)]
      exact same
    exact
      eq_of_mem_of_shifted (by decide) shifted byte
        ((member byte).mpr ⟨field, listed, inField⟩)
  · intro zero
    have allZero : rest = List.replicate 26 0 := by
      refine List.eq_replicate_iff.mpr ⟨behind, fun byte inRest => ?_⟩
      obtain ⟨field, listed, inField⟩ := (member byte).mp inRest
      exact zero field listed byte inField
    rw [allZero]
    rfl

end Decoding

/--
The kernel decodes the parameters exactly if `BS_TotalSec2` fits two bytes and
all parameters behind it are zero.
-/
theorem diskGetInfo_decodesParameters_iff
    {fsInfo : PtrT}
    {memory : Memory}
    {parameters : BootParameters}
    (placed : FSInfoPlaced fsInfo)
    (holds : HoldsBootSector memory parameters) :
    DecodesParameters parameters
        (diskGetInfo fsInfo (initializeDisk fsInfo memory)) ↔
      littleEndian (parameters.bytes .totalSec2) < 2 ^ 16 ∧
        ∀ field ∈ fieldsBehind,
          littleEndian (parameters.bytes field.label) = 0 := by
  have four : (parameters.fieldBytes .totalSectors2).length = 4 :=
    parameters.length_fieldBytes _
  have read := diskGetInfo_initializeDisk placed holds
  have length :
      ((parameters.fieldBytes .totalSectors2).drop 2 ++
        (fieldsBehind.flatMap parameters.fieldBytes).take 24).length = 26 := by
    have behind := parameters.length_behind
    rw [List.length_append, List.length_drop, List.length_take]
    omega
  have values :
      (∀ field ∈ diskGetInfo fsInfo (initializeDisk fsInfo memory),
          littleEndian field.2 =
            littleEndian (parameters.bytes field.1.label)) ↔
        littleEndian (parameters.fieldBytes .totalSectors2) < 2 ^ 16 ∧
          (parameters.fieldBytes .totalSectors2).drop 2 ++
              (fieldsBehind.flatMap parameters.fieldBytes).take 24 =
            fieldsBehind.flatMap parameters.fieldBytes := by
    rw [read, List.forall_mem_append, List.forall_mem_map]
    refine (and_iff_right fun _ _ => rfl).trans ?_
    rw [List.forall_mem_cons, forall_unpack_behind_iff parameters length]
    exact and_congr_left' (totalSectors2_iff parameters)
  have zero
      (small : littleEndian (parameters.fieldBytes .totalSectors2) < 2 ^ 16) :=
    shifted_eq_iff parameters
      ((littleEndian_take_eq_iff 2).mp
        ((totalSectors2_iff parameters).mpr small))
  constructor
  · intro decodes
    obtain ⟨small, same⟩ := values.mp decodes.values
    exact ⟨small, (zero small).mp same⟩
  · rintro ⟨small, behind⟩
    exact
      ⟨map_fst_unpack _, values.mpr ⟨small, (zero small).mpr behind⟩⟩

/-- A memory with a boot sector at its place. -/
def sectorMemory (parameters : BootParameters) : Memory :=
  fun address => parameters.bootSector.getD (address - 0x7C00).toNat 0

theorem holdsBootSector_sectorMemory
    {parameters : BootParameters}
    (small : parameters.bootSector.length < 2 ^ 32) :
    HoldsBootSector (sectorMemory parameters) parameters := by
  refine List.ext_getElem ?_ fun offset inside inSector => ?_
  · rw [loadBytes, List.length_map, List.length_range]
  · simp only [loadBytes, List.getElem_map, List.getElem_range]
    rw [bytesAt, sectorMemory, toNat_distance _ (by omega),
      List.getD_eq_getElem?_getD, List.getElem?_eq_getElem inSector,
      Option.getD_some]

/-- The parameters of a volume without a drive number, serial or names. -/
def anonymousParameters : BootParameters where
  bytes
    | .bytesPerSec => [0x00, 0x02]
    | .totalSec2 => [0x40, 0x0B, 0x00, 0x00]
    | label => List.replicate label.width 0
  sized label := by
    cases label <;> rfl

/-- The parameters are decoded if there are only zeros to be shifted. -/
theorem diskGetInfo_decodesParameters_iff_anonymous :
    DecodesParameters anonymousParameters
      (diskGetInfo 0x12000
        (initializeDisk 0x12000 (sectorMemory anonymousParameters))) :=
  (diskGetInfo_decodesParameters_iff ⟨by decide, by decide⟩
    (holdsBootSector_sectorMemory (by decide))).mpr
    ⟨by decide, by decide⟩

/-- The parameters of `bootloader.asm`, with seven sectors of boot code. -/
def bootloaderParameters : BootParameters where
  bytes
    | .oemName => List.replicate 8 0x3F
    | .bytesPerSec => [0x00, 0x02]
    | .secPerClst => [1]
    | .reservedSec => [7, 0]
    | .fatCopies => [1]
    | .numRootEnt => [0x00, 0x02]
    | .totalSec => [0x40, 0x0B]
    | .mediaDesc => [0xF8]
    | .numSecPerFAT => [12, 0]
    | .secPerTrk => [0, 0]
    | .numHeads => [0, 0]
    | .numHiddenSec => [0, 0, 0, 0]
    | .totalSec2 => [0x40, 0x0B, 0x00, 0x00]
    | .driveNum => [0]
    | .reserved => [0]
    | .extSig => [0x29]
    | .serialNum => [0x69, 0x69, 0x69, 0x69]
    | .volLabel =>
        [0x4E, 0x4F, 0x20, 0x4E, 0x41, 0x4D, 0x45, 0x20, 0x20, 0x20, 0x20]
    | .fsType => [0x46, 0x41, 0x54, 0x31, 0x36, 0x20, 0x20, 0x20]
  sized label := by
    cases label <;> rfl

/-- The extension signature of the boot loader is decoded as 0. -/
theorem diskGetInfo_decodesParameters_fails :
    ¬∀ (fsInfo : PtrT) (memory : Memory) (parameters : BootParameters),
      FSInfoPlaced fsInfo →
      HoldsBootSector memory parameters →
      DecodesParameters parameters
        (diskGetInfo fsInfo (initializeDisk fsInfo memory)) := by
  intro decodes
  have placed : FSInfoPlaced 0x12000 := ⟨by decide, by decide⟩
  have holds := @holdsBootSector_sectorMemory bootloaderParameters (by decide)
  have values := (decodes _ _ _ placed holds).values
  rw [diskGetInfo_initializeDisk placed holds] at values
  revert values
  decide

end HobbyOS
