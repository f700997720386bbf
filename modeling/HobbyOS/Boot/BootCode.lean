import HobbyOS.Boot.SectorLoading
import HobbyOS.FileSystem.Initialization

namespace HobbyOS

open Library

/-!
# The boot code and what it loads

The linker puts `bootloader.asm` to 0x7C00 and the second stage behind it.  The
BIOS loads the first sector; `start` loads the rest of the boot code, the
cluster table and the root directory behind it, in one piece.
-/

/-- `kernel_name` of `load_kernel.asm`. -/
def kernelNameExt : List Byte :=
  [0x6B, 0x65, 0x72, 0x6E, 0x65, 0x6C, 0x5F, 0x6C, 0x62, 0x69, 0x6E]

/--
The boot code as it is linked, with the offsets of its labels.  The variables
of the second stage lie behind its text, from the label `width` on.
-/
structure BootCode where
  bytes : List Byte
  parameters : BootParameters
  dkPacketSize : Nat
  kernelName : Nat
  width : Nat
  aligned : 512 ∣ bytes.length
  sector : parameters.bootSector <+: bytes
  bytesPerSec : parameters.bytes .bytesPerSec = [0x00, 0x02]
  secPerClst : parameters.bytes .secPerClst = [1]
  numRootEnt : parameters.bytes .numRootEnt = [0x00, 0x02]
  numSecPerFAT : parameters.bytes .numSecPerFAT = [12, 0]
  reservedSec :
    littleEndian (parameters.bytes .reservedSec) = bytes.length / 512
  packet :
    (bytes.drop dkPacketSize).take 16 = 16 :: List.replicate 15 0
  packetBehind : 62 ≤ dkPacketSize
  packetInSector : dkPacketSize + 16 ≤ 498
  name : (bytes.drop kernelName).take 11 = kernelNameExt
  nameBehind : 512 ≤ kernelName
  nameInText : kernelName + 11 ≤ width
  variablesInside : width ≤ bytes.length
  below : 0x7C00 + bytes.length + (12 + 32) * 512 ≤ 0x10000

/-- A range of the memory from 0x7C00 to the kernel. -/
def bootcodeRegion
    (offset size : Nat)
    (below : 0x7C00 + offset + size ≤ 0x10000) :
    MemoryRegion where
  start := bootcodeAddress offset
  size := size
  fits := by
    rw [bootcodeAddress, BitVec.toNat_ofNat]
    omega

/-- The number of an address. -/
theorem toNat_bootcodeAddress
    {offset : Nat}
    (below : 0x7C00 + offset ≤ 0x10000) :
    (bootcodeAddress offset).toNat = 0x7C00 + offset := by
  rw [bootcodeAddress, BitVec.toNat_ofNat]
  omega

/-- An address behind another one. -/
theorem bootcodeAddress_add (first second : Nat) :
    bootcodeAddress first + BitVec.ofNat 32 second =
      bootcodeAddress (first + second) := by
  rw [bootcodeAddress, bootcodeAddress, ← BitVec.ofNat_add, Nat.add_assoc]

/-- What a range holds, by the offsets in the boot code. -/
theorem holds_bootcodeRegion_iff
    {memory : Memory}
    {offset size : Nat}
    {below : 0x7C00 + offset + size ≤ 0x10000}
    {bytes : Nat → Byte} :
    Holds memory (bootcodeRegion offset size below) bytes ↔
      ∀ index < size,
        memory (bootcodeAddress (offset + index)) = bytes index := by
  refine forall_congr' fun index => forall_congr' fun _ => ?_
  rw [← bootcodeAddress_add]
  rfl

/-- Ranges are apart if their offsets are. -/
theorem bootcodeRegion_apart
    {offset size other count : Nat}
    (below : 0x7C00 + offset + size ≤ 0x10000)
    (otherBelow : 0x7C00 + other + count ≤ 0x10000)
    (apart : offset + size ≤ other ∨ other + count ≤ offset) :
    (bootcodeRegion offset size below).Apart
      (bootcodeRegion other count otherBelow) := by
  rw [MemoryRegion.Apart]
  simp only [bootcodeRegion]
  rw [toNat_bootcodeAddress (by omega), toNat_bootcodeAddress (by omega)]
  omega

namespace BootCode

variable (code : BootCode)

/-- `DK_packet_size`. -/
def dk : PtrT :=
  bootcodeAddress code.dkPacketSize

/-- The packet in the first sector. -/
def packetRegion : MemoryRegion :=
  bootcodeRegion code.dkPacketSize 16
    (by have inSector := code.packetInSector; omega)

/-- What `start` loads. -/
def loadedRegion : MemoryRegion :=
  bootcodeRegion 512 (code.bytes.length + (12 + 32) * 512 - 512) (by
    have below := code.below
    have behind := code.nameBehind
    have inText := code.nameInText
    have inside := code.variablesInside
    omega)

/-- The table and the directory behind the boot code. -/
def tablesRegion : MemoryRegion :=
  bootcodeRegion code.bytes.length ((12 + 32) * 512) (by
    have below := code.below
    omega)

/-- The name of the kernel in the text of the second stage. -/
def nameRegion : MemoryRegion :=
  bootcodeRegion code.kernelName 11 (by
    have below := code.below
    have inText := code.nameInText
    have inside := code.variablesInside
    omega)

/-- The variables of the second stage, with the blocks that the BIOS fills. -/
def variablesRegion : MemoryRegion :=
  bootcodeRegion code.width (code.bytes.length - code.width) (by
    have below := code.below
    have inside := code.variablesInside
    omega)

end BootCode

/-! ## Parameters in the memory -/

/-- The range of a parameter. -/
def parameterRegion (label : ParameterLabel) : MemoryRegion :=
  bootcodeRegion
    (3 + offsetOf ParameterLabel.width label parameterLabels) label.width
    (by cases label <;> decide)

/-- The first sector up to the end of the parameters. -/
def parametersRegion : MemoryRegion :=
  bootcodeRegion 0 62 (by decide)

/-- The parameters as they are in the memory. -/
def parametersAt (memory : Memory) : BootParameters where
  bytes label := loadBytes memory (parameterAddress label) label.width
  sized label := by
    rw [loadBytes, List.length_map, List.length_range]

/-- Every label is listed. -/
theorem mem_parameterLabels (label : ParameterLabel) :
    label ∈ parameterLabels := by
  cases label <;> decide

/-- The address of a parameter is the start of its range. -/
theorem parameterAddress_eq (label : ParameterLabel) :
    parameterAddress label = (parameterRegion label).start :=
  bootcodeAddress_add 3 _

/-- Different parameters lie apart. -/
theorem parameterRegion_apart
    {label other : ParameterLabel}
    (different : label ≠ other) :
    (parameterRegion label).Apart (parameterRegion other) := by
  have apart :=
    @offsetOf_apart _ _ ParameterLabel.width _ _ _ different
      (mem_parameterLabels label) (mem_parameterLabels other)
  exact bootcodeRegion_apart _ _ (by omega)

/-- The packet lies behind the parameters. -/
theorem BootCode.packet_apart_parameter
    (code : BootCode)
    (label : ParameterLabel) :
    code.packetRegion.Apart (parameterRegion label) := by
  have ends :=
    @offsetOf_add_width_le _ _ ParameterLabel.width _ _
      (mem_parameterLabels label)
  have total : (parameterLabels.map ParameterLabel.width).sum = 59 := by
    decide
  have behind := code.packetBehind
  exact bootcodeRegion_apart _ _ (by omega)

/-- All parameters lie in front of the packet. -/
theorem BootCode.parameters_apart_packet (code : BootCode) :
    parametersRegion.Apart code.packetRegion := by
  have behind := code.packetBehind
  exact bootcodeRegion_apart _ _ (by omega)

/-- A boot sector is the one of the parameters in the memory. -/
theorem holdsBootSector_iff
    {memory : Memory}
    {parameters : BootParameters} :
    HoldsBootSector memory parameters ↔
      loadBytes memory 0x7C00 3 = jmpBoot ∧
        (parametersAt memory).bytes = parameters.bytes := by
  have behind : (0x7C00 : PtrT) + BitVec.ofNat 32 3 = 0x7C03 := rfl
  have lengths :
      (loadBytes memory 0x7C00 jmpBoot.length).length = jmpBoot.length := by
    rw [loadBytes, List.length_map, List.length_range]
  rw [HoldsBootSector, BootParameters.bootSector, List.length_append,
    loadBytes_append, List.append_eq_append_iff_of_size_eq_left lengths,
    show jmpBoot.length = 3 from rfl, behind,
    loadBytes_record_iff (fun label _ => parameters.sized label)
      (by decide), funext_iff]
  refine and_congr_right fun _ => ?_
  exact ⟨fun held label => held label (mem_parameterLabels label),
    fun held label _ => held label⟩

/-- A parameter stays while other ranges are written. -/
theorem parametersAt_of_unchangedOutside
    {regions : List MemoryRegion}
    {memory after : Memory}
    (unchanged : UnchangedOutside regions memory after)
    (label : ParameterLabel)
    (apart : ∀ other ∈ regions, (parameterRegion label).Apart other) :
    (parametersAt after).bytes label = (parametersAt memory).bytes label := by
  have same := unchanged.loadBytes (parameterRegion label) apart
  rwa [← parameterAddress_eq] at same

/-- A parameter of two bytes, as it is read. -/
theorem readHalf_parameter
    {memory : Memory}
    {label : ParameterLabel}
    (two : label.width = 2) :
    (readHalf memory (parameterAddress label)).toNat =
      littleEndian ((parametersAt memory).bytes label) := by
  have bytes :
      (parametersAt memory).bytes label =
        [memory (parameterAddress label),
          memory (parameterAddress label + 1)] := by
    simp [parametersAt, loadBytes, two, List.range_succ, bytesAt]
  have low := (memory (parameterAddress label)).isLt
  rw [bytes, readHalf, BitVec.toNat_append,
    ← Nat.shiftLeft_add_eq_or_of_lt low, Nat.shiftLeft_eq, littleEndian]
  simp [Nat.ofDigits]
  omega

/-! ## The first sector -/

section FirstSector

variable
  {code : BootCode}
  {memory : Memory}

/-- A piece of a list, byte by byte. -/
theorem bytesOf_of_take_drop
    {bytes piece : List Byte}
    {first count offset : Nat}
    (same : (bytes.drop first).take count = piece)
    (inside : offset < count) :
    bytesOf bytes (first + offset) = bytesOf piece offset := by
  rw [← same, bytesOf, bytesOf, List.getD_eq_getElem?_getD,
    List.getD_eq_getElem?_getD, List.getElem?_take_of_lt inside,
    List.getElem?_drop]

/-- The parameters end at their 62nd byte. -/
theorem length_bootSector (parameters : BootParameters) :
    parameters.bootSector.length = 62 := by
  rw [parameters.bootSector_eq, List.length_append, List.length_append,
    List.length_append, parameters.length_inFront, parameters.length_behind,
    parameters.length_fieldBytes]
  rfl

/-- The first sector has the parameters. -/
theorem BootCode.holdsBootSector
    (held :
      Holds memory (bootcodeRegion 0 512 (by decide))
        (bytesOf code.bytes)) :
    HoldsBootSector memory code.parameters := by
  obtain ⟨rest, whole⟩ := code.sector
  rw [holds_bootcodeRegion_iff] at held
  have length := length_bootSector code.parameters
  refine List.ext_getElem ?_ fun offset inside inSector => ?_
  · rw [loadBytes, List.length_map, List.length_range]
  · have here := held offset (by omega)
    rw [← bootcodeAddress_add, ← whole, bytesOf,
      List.getD_append _ _ _ _ inSector, List.getD_eq_getElem _ _ inSector]
      at here
    simp only [loadBytes, List.getElem_map, List.getElem_range]
    exact here

/-- The first sector has the packet. -/
theorem BootCode.packetIntact
    (held :
      Holds memory (bootcodeRegion 0 512 (by decide))
        (bytesOf code.bytes)) :
    PacketIntact memory code.dk ∧ memory (code.dk + 3) = 0 := by
  have inSector := code.packetInSector
  rw [holds_bootcodeRegion_iff] at held
  have byte (offset : Nat) (inside : offset < 16) :
      memory (code.dk + BitVec.ofNat 32 offset) =
        bytesOf (16 :: List.replicate 15 0) offset := by
    have here := held (code.dkPacketSize + offset) (by omega)
    rwa [Nat.zero_add, bytesOf_of_take_drop code.packet inside,
      ← bootcodeAddress_add] at here
  refine ⟨⟨?_, fun offset listed => ?_⟩, byte 3 (by decide)⟩
  · have first := byte 0 (by decide)
    rwa [BitVec.add_zero] at first
  · revert offset
    simp only [List.forall_mem_cons]
    refine ⟨byte 1 (by decide), byte 10 (by decide), byte 11 (by decide),
      byte 14 (by decide), byte 15 (by decide), ?_⟩
    exact List.forall_mem_nil _

end FirstSector

/-! ## What the second stage finds -/

/--
The image is loaded behind the boot code, and the variables of the boot loader
are as the second stage needs them.
-/
structure BootCode.Ready
    (code : BootCode)
    (image : List Byte)
    (dl : Byte)
    (memory : Memory) :
    Prop where
  loaded : LoadedImage memory code.bytes image (parametersAt memory)
  drive : memory (parameterAddress .driveNum) = dl
  packet : PacketIntact memory code.dk
  sectorsHigh : memory (code.dk + 3) = 0
  name : Holds memory code.nameRegion (bytesOf kernelNameExt)

section Packets

variable
  {code : BootCode}
  {memory after : Memory}
  {regions : List MemoryRegion}

/-- A byte of the packet stays while other ranges are written. -/
theorem BootCode.packetByte_of_unchangedOutside
    (unchanged : UnchangedOutside regions memory after)
    (apart : ∀ other ∈ regions, code.packetRegion.Apart other)
    {offset : Nat}
    (inside : offset < 16) :
    after (code.dk + BitVec.ofNat 32 offset) =
      memory (code.dk + BitVec.ofNat 32 offset) := by
  refine unchanged _ fun other member => ?_
  exact
    (apart other member).not_contains
      (code.packetRegion.contains_offset inside)

/-- The packet stays while other ranges are written. -/
theorem BootCode.packetIntact_of_unchangedOutside
    (intact : PacketIntact memory code.dk)
    (unchanged : UnchangedOutside regions memory after)
    (apart : ∀ other ∈ regions, code.packetRegion.Apart other) :
    PacketIntact after code.dk := by
  refine ⟨?_, fun offset listed => ?_⟩
  · have first :=
      code.packetByte_of_unchangedOutside unchanged apart
        (show 0 < 16 by decide)
    rw [BitVec.add_zero] at first
    exact first.trans intact.packetSize
  · have inside : offset < 16 := by
      revert offset
      decide
    rw [code.packetByte_of_unchangedOutside unchanged apart inside]
    exact intact.zero offset listed

/-- The packet of `ext` is written to the packet only. -/
theorem Bootloader.setPacket_unchangedOutside
    (code : BootCode)
    (ax : BitVec 16)
    (memory : Memory) :
    UnchangedOutside [code.packetRegion] memory
      (setPacket code.dk ax memory) := by
  have write (memory : Memory) (offset : Nat) (inside : offset + 2 ≤ 16) :=
    UnchangedOutside.writeHalf code.packetRegion memory inside
  exact
    (write _ 2 (by decide) ax).trans
      ((write _ 8 (by decide) 1).trans
        ((write _ 12 (by decide) 0).trans
          ((write _ 6 (by decide) 0x7E0).trans (write _ 4 (by decide) 0))))

/-- The packet of `ext` is intact. -/
theorem Bootloader.setPacket_intact
    {dk : PtrT}
    (intact : PacketIntact memory dk)
    {ax : BitVec 16}
    (small : ax.toNat < 256) :
    PacketIntact (setPacket dk ax memory) dk ∧
      setPacket dk ax memory (dk + 3) = 0 := by
  obtain ⟨packetSize, zero⟩ := intact
  simp only [List.forall_mem_cons] at zero
  have high : ax.extractLsb' 8 8 = 0 := by
    apply BitVec.eq_of_toNat_eq
    rw [BitVec.extractLsb'_toNat, Nat.shiftRight_eq_div_pow,
      Nat.div_eq_of_lt small]
    rfl
  refine ⟨⟨?_, ?_⟩, ?_⟩
  · simp [setPacket, writeHalf, writeByte, BitVec.add_assoc, packetSize]
  · simp only [List.forall_mem_cons]
    simp [setPacket, writeHalf, writeByte, BitVec.add_assoc, zero]
  · simp [setPacket, writeHalf, writeByte, BitVec.add_assoc, high]

end Packets

/-! ## The first stage -/

/-- The number of sectors behind the first one. -/
theorem Bootloader.ext_eq
    {int13 : ExtendedRead}
    {memory : Memory}
    {reserved : BitVec 16}
    (numRootEnt : readHalf memory (parameterAddress .numRootEnt) = 512)
    (bytesPerSec : readHalf memory (parameterAddress .bytesPerSec) = 512)
    (numSecPerFAT : readHalf memory (parameterAddress .numSecPerFAT) = 12)
    (reservedSec :
      readHalf memory (parameterAddress .reservedSec) = reserved)
    (dk : PtrT)
    (cpu : Cpu) :
    ext int13 dk cpu memory =
      loadLbaSector int13 dk (setPacket dk (reserved + 43) memory) := by
  have product :
      (({ cpu with ax := 512, cx := 32 } : Cpu).mulWord 32) =
        { cpu with ax := 0x4000, cx := 32, dx := 0 } := by
    have low :
        ((512 : BitVec 16).setWidth 32 *
            (32 : BitVec 16).setWidth 32).extractLsb' 0 16 =
          0x4000 := by
      decide
    have high :
        ((512 : BitVec 16).setWidth 32 *
            (32 : BitVec 16).setWidth 32).extractLsb' 16 16 =
          0 := by
      decide
    simp only [Cpu.mulWord, low, high]
  have sectors : (32 : BitVec 16) + 12 + reserved - 1 = reserved + 43 := by
    rw [BitVec.add_comm _ reserved, BitVec.sub_eq_add_neg, BitVec.add_assoc]
    rfl
  rw [ext, numRootEnt, bytesPerSec, numSecPerFAT, reservedSec]
  simp only
  rw [product, Cpu.divWord_of_dx_zero rfl (by decide), Option.bind_eq_bind,
    Option.bind_some]
  simp only
  rw [if_pos (by decide), show (0x4000 : BitVec 16) / 512 = 32 from rfl,
    sectors]

section FirstStage

variable
  {code : BootCode}
  {image : List Byte}
  {int13 : ExtendedRead}
  {dl : Byte}
  {memory after : Memory}
  {regions : List MemoryRegion}

/-- The ranges that the lines in front of `ext` write to. -/
def probedRegions : List MemoryRegion :=
  [parameterRegion .driveNum, parameterRegion .numHeads,
    parameterRegion .secPerTrk]

/-- The packet is not probed. -/
theorem BootCode.packet_apart_probed (code : BootCode) :
    ∀ region ∈ probedRegions, code.packetRegion.Apart region := by
  rw [probedRegions, List.forall_mem_cons, List.forall_mem_cons,
    List.forall_mem_singleton]
  exact
    ⟨code.packet_apart_parameter _, code.packet_apart_parameter _,
      code.packet_apart_parameter _⟩

/-- A byte of a parameter is written. -/
theorem writeParameter_unchangedOutside
    (memory : Memory)
    (label : ParameterLabel)
    (value : Byte) :
    UnchangedOutside [parameterRegion label] memory
      (writeByte memory (parameterAddress label) value) := by
  have first : 0 < label.width := by
    cases label <;> decide
  have written :=
    UnchangedOutside.writeByte (parameterRegion label) memory first value
  rwa [BitVec.add_zero, ← parameterAddress_eq] at written

/-- The lines in front of `ext` write to three parameters. -/
theorem Bootloader.probe_unchangedOutside
    (answer : ProbeAnswer)
    (dl : Byte)
    (memory : Memory) :
    UnchangedOutside probedRegions memory (probe answer dl memory) := by
  refine
    ((writeParameter_unchangedOutside _ .driveNum dl).mono ?_).trans
      (((writeParameter_unchangedOutside _ .numHeads answer.dh).mono
            ?_).trans
        ((writeParameter_unchangedOutside _ .secPerTrk answer.cl).mono ?_))
  · simp [probedRegions]
  · simp [probedRegions]
  · simp [probedRegions]

/-- The number of the drive is kept. -/
theorem Bootloader.probe_driveNum
    (answer : ProbeAnswer)
    (dl : Byte)
    (memory : Memory) :
    probe answer dl memory (parameterAddress .driveNum) = dl := by
  have apart :
      parameterAddress .driveNum ≠ parameterAddress .numHeads ∧
        parameterAddress .driveNum ≠ parameterAddress .secPerTrk := by
    decide
  rw [probe, writeByte, Function.update_of_ne apart.2, writeByte,
    Function.update_of_ne apart.1, writeByte_self]

/-- The drive is not changed by what lies behind the parameters. -/
theorem driveNum_of_unchangedOutside
    (unchanged : UnchangedOutside regions memory after)
    (apart : ∀ other ∈ regions, parametersRegion.Apart other) :
    after (parameterAddress .driveNum) =
      memory (parameterAddress .driveNum) := by
  refine unchanged _ fun other member => ?_
  refine (apart other member).not_contains ?_
  rw [MemoryRegion.Contains]
  decide

/-- What `ext` finds: the boot sector, but for the parameters of the drive. -/
structure BootCode.Probed
    (code : BootCode)
    (dl : Byte)
    (memory : Memory) :
    Prop where
  jump : loadBytes memory 0x7C00 3 = jmpBoot
  parameter :
    ∀ label ∉ [ParameterLabel.driveNum, .numHeads, .secPerTrk],
      (parametersAt memory).bytes label = code.parameters.bytes label
  drive : memory (parameterAddress .driveNum) = dl
  packet : PacketIntact memory code.dk
  sectorsHigh : memory (code.dk + 3) = 0

/-- The jump in front of the parameters. -/
def jumpRegion : MemoryRegion :=
  bootcodeRegion 0 3 (by decide)

/-- The first sector is probed. -/
theorem BootCode.probed_probe
    (held :
      Holds memory (bootcodeRegion 0 512 (by decide)) (bytesOf code.bytes))
    (answer : ProbeAnswer)
    (dl : Byte) :
    code.Probed dl (Bootloader.probe answer dl memory) := by
  obtain ⟨jump, sector⟩ :=
    holdsBootSector_iff.mp (code.holdsBootSector held)
  have intact := code.packetIntact held
  have probed := Bootloader.probe_unchangedOutside answer dl memory
  refine
    ⟨?_, fun label kept => ?_, Bootloader.probe_driveNum answer dl memory,
      code.packetIntact_of_unchangedOutside intact.1 probed
        code.packet_apart_probed,
      (code.packetByte_of_unchangedOutside probed code.packet_apart_probed
        (by decide)).trans intact.2⟩
  · rw [← jump]
    refine probed.loadBytes jumpRegion ?_
    rw [probedRegions, List.forall_mem_cons, List.forall_mem_cons,
      List.forall_mem_singleton]
    exact
      ⟨bootcodeRegion_apart _ _ (.inl (Nat.le_add_right 3 _)),
        bootcodeRegion_apart _ _ (.inl (Nat.le_add_right 3 _)),
        bootcodeRegion_apart _ _ (.inl (Nat.le_add_right 3 _))⟩
  · simp only [List.mem_cons, List.not_mem_nil, or_false, not_or] at kept
    rw [← sector]
    refine parametersAt_of_unchangedOutside probed label ?_
    rw [probedRegions, List.forall_mem_cons, List.forall_mem_cons,
      List.forall_mem_singleton]
    exact
      ⟨parameterRegion_apart kept.1, parameterRegion_apart kept.2.1,
        parameterRegion_apart kept.2.2⟩

/-- A range apart from the parameters is apart from each of them. -/
theorem parameterRegion_apart_of_parametersRegion
    {region : MemoryRegion}
    (apart : parametersRegion.Apart region)
    (label : ParameterLabel) :
    (parameterRegion label).Apart region := by
  have ends :=
    @offsetOf_add_width_le _ _ ParameterLabel.width _ _
      (mem_parameterLabels label)
  have total : (parameterLabels.map ParameterLabel.width).sum = 59 := by
    decide
  have first : parametersRegion.start.toNat = 0x7C00 := rfl
  have size : parametersRegion.size = 62 := rfl
  have start :
      (parameterRegion label).start.toNat =
        0x7C00 + (3 + offsetOf ParameterLabel.width label parameterLabels) :=
    toNat_bootcodeAddress (by omega)
  have width : (parameterRegion label).size = label.width := rfl
  rw [MemoryRegion.Apart] at apart ⊢
  omega

/-- The parameters stay while what lies behind them is written. -/
theorem BootCode.Probed.of_unchangedOutside
    (probed : code.Probed dl memory)
    (unchanged : UnchangedOutside regions memory after)
    (apart : ∀ other ∈ regions, parametersRegion.Apart other)
    (packet : PacketIntact after code.dk)
    (sectorsHigh : after (code.dk + 3) = 0) :
    code.Probed dl after := by
  refine
    ⟨?_, fun label kept => ?_,
      (driveNum_of_unchangedOutside unchanged apart).trans probed.drive,
      packet, sectorsHigh⟩
  · rw [← probed.jump]
    refine unchanged.loadBytes jumpRegion fun other member => ?_
    have first : parametersRegion.start = jumpRegion.start := rfl
    have sizes : parametersRegion.size = 62 ∧ jumpRegion.size = 3 :=
      ⟨rfl, rfl⟩
    have here := apart other member
    rw [MemoryRegion.Apart, first, sizes.1] at here
    rw [MemoryRegion.Apart, sizes.2]
    omega
  · rw [← probed.parameter label kept]
    exact
      parametersAt_of_unchangedOutside unchanged label
        fun other member =>
          parameterRegion_apart_of_parametersRegion (apart other member)
            label

/-- A parameter of two bytes that is known. -/
theorem readHalf_eq_ofNat
    {label : ParameterLabel}
    (two : label.width = 2)
    {bytes : List Byte}
    (same : (parametersAt memory).bytes label = bytes) :
    readHalf memory (parameterAddress label) =
      BitVec.ofNat 16 (littleEndian bytes) := by
  apply BitVec.eq_of_toNat_eq
  have small := (readHalf memory (parameterAddress label)).isLt
  rw [readHalf_parameter two, same] at small ⊢
  rw [BitVec.toNat_ofNat, Nat.mod_eq_of_lt small]

/-- The sectors behind the first one, up to the end of the directory. -/
theorem BootCode.toNat_sectors (code : BootCode) :
    (BitVec.ofNat 16 (code.bytes.length / 512) + 43).toNat =
      code.bytes.length / 512 + 43 := by
  have below := code.below
  have more : (43 : BitVec 16).toNat = 43 := rfl
  rw [BitVec.toNat_add, BitVec.toNat_ofNat, more]
  omega

/-- `ext` loads what lies behind the first sector. -/
theorem Bootloader.ext_loads
    (probed : code.Probed dl memory)
    (tables : code.bytes.length + (12 + 32) * 512 ≤ image.length)
    (reads : ReadsImage int13 dl image)
    (cpu : Cpu) :
    ∃ packed,
      code.Probed dl packed ∧
        ext int13 code.dk cpu memory =
          some
            (storeBytes packed code.loadedRegion.start
              (fun offset => bytesOf image (512 + offset))
              code.loadedRegion.size) := by
  have below := code.below
  have nonempty : 512 ≤ code.bytes.length :=
    Nat.le_trans code.nameBehind
      (Nat.le_trans (Nat.le_add_right _ 11)
        (Nat.le_trans code.nameInText code.variablesInside))
  obtain ⟨sectors, whole⟩ := code.aligned
  have count := code.toNat_sectors
  have size :
      code.loadedRegion.size = (code.bytes.length / 512 + 43) * 512 := by
    show
      code.bytes.length + (12 + 32) * 512 - 512 =
        (code.bytes.length / 512 + 43) * 512
    omega
  have within :
      ((1 : BitVec 32).toNat +
            (BitVec.ofNat 16 (code.bytes.length / 512) + 43).toNat) * 512 ≤
        image.length := by
    rw [count, show (1 : BitVec 32).toNat = 1 from rfl]
    omega
  have value {label : ParameterLabel} {bytes : List Byte}
      (two : label.width = 2)
      (kept : label ∉ [ParameterLabel.driveNum, .numHeads, .secPerTrk])
      (known : code.parameters.bytes label = bytes) :
      readHalf memory (parameterAddress label) =
        BitVec.ofNat 16 (littleEndian bytes) :=
    readHalf_eq_ofNat two ((probed.parameter label kept).trans known)
  obtain ⟨intact, sectorsHigh⟩ :=
    setPacket_intact probed.packet
      (show
        (BitVec.ofNat 16 (code.bytes.length / 512) + 43).toNat < 256 by
        omega)
  have packed :=
    probed.of_unchangedOutside (setPacket_unchangedOutside code _ memory)
      (List.forall_mem_singleton.mpr code.parameters_apart_packet) intact
      sectorsHigh
  refine ⟨_, packed, ?_⟩
  rw [ext_eq (value rfl (by decide) code.numRootEnt)
      (value rfl (by decide) code.bytesPerSec)
      (value rfl (by decide) code.numSecPerFAT)
      (value rfl (by decide) rfl),
    code.reservedSec, loadLbaSector, packed.drive,
    reads (packetAt_setPacket probed.packet _) (by omega) within, count,
    size]
  rfl

/-- With the image behind the first sector the second stage can go on. -/
theorem BootCode.Probed.ready
    (probed : code.Probed dl memory)
    (loaded :
      Holds memory code.loadedRegion
        (fun offset => bytesOf image (512 + offset)))
    (isPrefix : code.bytes <+: image) :
    code.Ready image dl memory := by
  have below := code.below
  have behind := code.nameBehind
  have inText := code.nameInText
  have inside := code.variablesInside
  rw [loadedRegion, holds_bootcodeRegion_iff] at loaded
  have value {label : ParameterLabel}
      (kept : label ∉ [ParameterLabel.driveNum, .numHeads, .secPerTrk])
      {bytes : List Byte}
      (known : code.parameters.bytes label = bytes) :
      (parametersAt memory).bytes label = bytes :=
    (probed.parameter label kept).trans known
  have image_ {offset : Nat} (low : 512 ≤ offset)
      (high : offset < code.bytes.length + (12 + 32) * 512) :
      memory (bootcodeAddress offset) = bytesOf image offset := by
    have here := loaded (offset - 512) (by omega)
    rwa [Nat.add_sub_cancel' low] at here
  refine
    ⟨⟨holdsBootSector_iff.mpr ⟨probed.jump, rfl⟩, ?_, ?_, ?_, ?_, below,
        fun offset small => ?_⟩,
      probed.drive, probed.packet, probed.sectorsHigh, ?_⟩
  · rw [value (by decide) code.bytesPerSec]
    rfl
  · rw [value (by decide) code.secPerClst]
    rfl
  · rw [value (by decide) rfl, code.reservedSec]
  · rw [value (by decide) code.numSecPerFAT]
    rfl
  · rw [Nat.add_assoc]
    exact image_ (by omega) (by omega)
  · rw [nameRegion, holds_bootcodeRegion_iff]
    intro offset small
    obtain ⟨rest, rfl⟩ := isPrefix
    rw [image_ (by omega) (by omega), ← code.name,
      ← bytesOf_of_take_drop rfl small, bytesOf, bytesOf,
      List.getD_append _ _ _ _ (by omega)]

/--
Behind `start` the rest of the boot code is in the memory, with the table and
the directory of the image behind it.
-/
theorem Bootloader.start_ready
    (held :
      Holds memory (bootcodeRegion 0 512 (by decide)) (bytesOf code.bytes))
    (isPrefix : code.bytes <+: image)
    (tables : code.bytes.length + (12 + 32) * 512 ≤ image.length)
    (reads : ReadsImage int13 dl image)
    {answer : ProbeAnswer}
    (extensions : answer.extensions = true)
    (cpu : Cpu) :
    ∃ after,
      start int13 code.dk answer dl cpu memory = some after ∧
        code.Ready image dl after ∧
        Holds after code.loadedRegion
          (fun offset => bytesOf image (512 + offset)) := by
  obtain ⟨packed, probed, loads⟩ :=
    ext_loads (code.probed_probe held answer dl) tables reads cpu
  have loaded :=
    Holds.storeBytes code.loadedRegion packed
      (fun offset => bytesOf image (512 + offset))
  have frame :=
    UnchangedOutside.storeBytes code.loadedRegion packed
      (fun offset => bytesOf image (512 + offset))
  have packetApart :
      ∀ region ∈ [code.loadedRegion], code.packetRegion.Apart region := by
    rw [List.forall_mem_singleton]
    have inSector := code.packetInSector
    exact bootcodeRegion_apart _ _ (.inl (by omega))
  have parametersApart :
      ∀ region ∈ [code.loadedRegion], parametersRegion.Apart region := by
    rw [List.forall_mem_singleton]
    exact bootcodeRegion_apart _ _ (.inl (by decide))
  refine ⟨_, ?_, ?_, loaded⟩
  · rw [start, if_pos extensions, loads]
  · refine BootCode.Probed.ready ?_ loaded isPrefix
    exact
      probed.of_unchangedOutside frame parametersApart
        (code.packetIntact_of_unchangedOutside probed.packet frame
          packetApart)
        ((code.packetByte_of_unchangedOutside frame packetApart
          (by decide)).trans probed.sectorsHigh)

end FirstStage

end HobbyOS
