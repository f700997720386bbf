import HobbyOS.Boot.BootCode
import HobbyOS.FileSystem.BuiltFiles

namespace HobbyOS

open Library

/-!
# Loading clusters

The loop of `find_entry` in `_FAT16.asm` that loads the clusters of a file.  It
reads the table in the memory behind the boot code, while the sectors are
stored above it.
-/

/-- A segment of the memory. -/
def segmentAt (memory : Memory) (segment : BitVec 16) : SegmentMemory :=
  fun offset => memory (realAddress segment offset)

namespace Bootloader

/-- The packet for one cluster. -/
def setCluster (dk : PtrT) (si : BitVec 16) (memory : Memory) : Memory :=
  let memory := writeByte memory (dk + 2) 1
  let memory := writeHalf memory (dk + 8) si
  writeHalf memory (dk + 12) 0

/-- The loop of `find_entry` from `more` on. -/
def more (int13 : ExtendedRead) (dk : PtrT) (es : BitVec 16) :
    Nat → BitVec 16 → Memory → Option Memory
  | 0, _, _ => none
  | fuel + 1, di, memory => do
      let si := readHalf (segmentAt memory es) di
      let memory ← loadLbaSector int13 dk (setCluster dk si memory)
      let di := si <<< 1
      let ax := readHalf (segmentAt memory es) di &&& 0xFFF0
      if ax = 0xFFF0 then
        return memory
      else
        let transferBufferEs := readHalf memory (dk + 6)
        more int13 dk es fuel di
          (writeHalf memory (dk + 6) (transferBufferEs + 0x20))

end Bootloader

/-- `END_OF_BOOTCODE`. -/
def BootCode.endOfBootcode (code : BootCode) : BitVec 16 :=
  BitVec.ofNat 16 (0x7C00 + code.bytes.length)

/-! ## What stays as the second stage needs it -/

/-- Clusters from an address on. -/
def clustersRegion
    (first count : Nat)
    (below : first + count * 512 ≤ 0x100000) :
    MemoryRegion where
  start := BitVec.ofNat 32 first
  size := count * 512
  fits := by
    rw [BitVec.toNat_ofNat]
    omega

section Ready

variable
  {code : BootCode}
  {image : List Byte}
  {dl : Byte}
  {memory after : Memory}
  {regions : List MemoryRegion}

/-- The ranges that hold what the second stage needs, but for the packet. -/
def BootCode.neededRegions (code : BootCode) : List MemoryRegion :=
  [parametersRegion, code.nameRegion, code.tablesRegion]

/-- The parameters stay while other ranges are written. -/
theorem parametersAt_eq_of_unchangedOutside
    (unchanged : UnchangedOutside regions memory after)
    (apart : ∀ other ∈ regions, parametersRegion.Apart other) :
    parametersAt after = parametersAt memory := by
  rw [parametersAt, parametersAt, BootParameters.mk.injEq]
  funext label
  exact
    parametersAt_of_unchangedOutside unchanged label fun other member =>
      parameterRegion_apart_of_parametersRegion (apart other member) label

/-- The second stage can go on while other ranges are written. -/
theorem BootCode.Ready.of_unchangedOutside
    (ready : code.Ready image dl memory)
    (unchanged : UnchangedOutside regions memory after)
    (apart :
      ∀ needed ∈ code.neededRegions,
        ∀ other ∈ regions, needed.Apart other)
    (packet : PacketIntact after code.dk)
    (sectorsHigh : after (code.dk + 3) = 0) :
    code.Ready image dl after := by
  simp only [neededRegions, List.forall_mem_cons] at apart
  obtain ⟨parametersApart, nameApart, tablesApart, _⟩ := apart
  have loaded := ready.loaded
  have parameters :=
    parametersAt_eq_of_unchangedOutside unchanged parametersApart
  have tables :
      Holds memory code.tablesRegion
        (fun offset => image.getD (code.bytes.length + offset) 0) := by
    rw [tablesRegion, holds_bootcodeRegion_iff]
    intro offset inside
    rw [bootcodeAddress, ← Nat.add_assoc]
    exact loaded.tables offset inside
  have jump : loadBytes after 0x7C00 3 = jmpBoot := by
    have same := unchanged.loadBytes parametersRegion parametersApart
    have held := (holdsBootSector_iff.mp loaded.sector).1
    have first := congrArg (List.take 3) same
    rw [take_loadBytes (by decide), take_loadBytes (by decide)] at first
    exact first.trans held
  refine
    ⟨⟨holdsBootSector_iff.mpr ⟨jump, rfl⟩, ?_, ?_, ?_, ?_, loaded.below,
        fun offset inside => ?_⟩,
      (driveNum_of_unchangedOutside unchanged parametersApart).trans
        ready.drive,
      packet, sectorsHigh,
      ready.name.of_unchangedOutside unchanged nameApart⟩
  · rw [parameters]
    exact loaded.bytesPerSec
  · rw [parameters]
    exact loaded.secPerClst
  · rw [parameters]
    exact loaded.reservedSec
  · rw [parameters]
    exact loaded.numSecPerFAT
  · have held := tables.of_unchangedOutside unchanged tablesApart
    rw [tablesRegion, holds_bootcodeRegion_iff] at held
    have here := held offset inside
    rwa [bootcodeAddress, ← Nat.add_assoc] at here

/-- The segment behind the boot code. -/
theorem BootCode.segmentAt_apply
    (code : BootCode)
    (memory : Memory)
    (offset : BitVec 16) :
    segmentAt memory (code.endOfBootcode >>> 4) offset =
      memory (bootcodeAddress (code.bytes.length + offset.toNat)) := by
  have below := code.below
  obtain ⟨sectors, whole⟩ := code.aligned
  have bounded := offset.isLt
  have sixteen : (16 : BitVec 32).toNat = 16 := rfl
  refine congrArg memory (BitVec.eq_of_toNat_eq ?_)
  rw [realAddress, endOfBootcode, bootcodeAddress, BitVec.toNat_add,
    BitVec.toNat_mul, BitVec.toNat_setWidth, BitVec.toNat_ushiftRight,
    BitVec.toNat_ofNat, BitVec.toNat_setWidth, BitVec.toNat_ofNat, sixteen,
    Nat.shiftRight_eq_div_pow]
  omega

/-- The table and the directory lie in the segment behind the boot code. -/
theorem BootCode.Ready.segmentAt_eq (ready : code.Ready image dl memory) :
    segmentAt memory (code.endOfBootcode >>> 4) =
      bootSegment code.bytes image
        (segmentAt memory (code.endOfBootcode >>> 4)) := by
  funext offset
  rw [bootSegment]
  split
  · rename_i inside
    rw [code.segmentAt_apply, bootcodeAddress, ← Nat.add_assoc]
    exact ready.loaded.tables _ inside
  · rfl

end Ready

/-! ## One cluster -/

section Clusters

variable
  {code : BootCode}
  {image : List Byte}
  {int13 : ExtendedRead}
  {dl : Byte}
  {memory after : Memory}
  {regions : List MemoryRegion}

/-- The packet for one cluster. -/
theorem packetAt_setCluster
    {dk : PtrT}
    (intact : PacketIntact memory dk)
    (sectorsHigh : memory (dk + 3) = 0)
    (si : BitVec 16) :
    packetAt (Bootloader.setCluster dk si memory) dk =
      ⟨16, 0, 1, readHalf memory (dk + 4), readHalf memory (dk + 6),
        (0 : BitVec 16) ++ si, 0⟩ := by
  obtain ⟨packetSize, zero⟩ := intact
  simp only [List.forall_mem_cons] at zero
  have sectorsHigh : memory (dk + 3#32) = 0 := sectorsHigh
  simp [Bootloader.setCluster, packetAt, readHalf, writeHalf, writeByte,
    BitVec.add_assoc, extractLsb'_append_halves, packetSize, zero,
    sectorsHigh]

/-- The packet for one cluster is intact. -/
theorem Bootloader.setCluster_intact
    {dk : PtrT}
    (intact : PacketIntact memory dk)
    (sectorsHigh : memory (dk + 3) = 0)
    (si : BitVec 16) :
    PacketIntact (setCluster dk si memory) dk ∧
      setCluster dk si memory (dk + 3) = 0 := by
  obtain ⟨packetSize, zero⟩ := intact
  simp only [List.forall_mem_cons] at zero
  have sectorsHigh : memory (dk + 3#32) = 0 := sectorsHigh
  refine ⟨⟨?_, ?_⟩, ?_⟩
  · simp [setCluster, writeHalf, writeByte, BitVec.add_assoc, packetSize]
  · simp only [List.forall_mem_cons]
    simp [setCluster, writeHalf, writeByte, BitVec.add_assoc, zero]
  · simp [setCluster, writeHalf, writeByte, BitVec.add_assoc, sectorsHigh]

/-- The packet for one cluster is written to the packet only. -/
theorem Bootloader.setCluster_unchangedOutside
    (code : BootCode)
    (si : BitVec 16)
    (memory : Memory) :
    UnchangedOutside [code.packetRegion] memory
      (setCluster code.dk si memory) := by
  have first (memory : Memory) :=
    UnchangedOutside.writeByte code.packetRegion memory
      (show 2 < code.packetRegion.size from (by decide : 2 < 16)) 1
  have write (memory : Memory) (offset : Nat) (inside : offset + 2 ≤ 16) :=
    UnchangedOutside.writeHalf code.packetRegion memory inside
  exact
    (first _).trans
      ((write _ 8 (by decide) si).trans (write _ 12 (by decide) 0))

/-- A half word of the packet leaves the other bytes of it alone. -/
theorem Bootloader.writeHalf_intact
    {dk : PtrT}
    (intact : PacketIntact memory dk)
    (sectorsHigh : memory (dk + 3) = 0)
    {offset : PtrT}
    (isBuffer : offset = 4 ∨ offset = 6)
    (value : BitVec 16) :
    PacketIntact (writeHalf memory (dk + offset) value) dk ∧
      writeHalf memory (dk + offset) value (dk + 3) = 0 := by
  obtain ⟨packetSize, zero⟩ := intact
  simp only [List.forall_mem_cons] at zero
  have sectorsHigh : memory (dk + 3#32) = 0 := sectorsHigh
  rcases isBuffer with rfl | rfl
  · refine ⟨⟨?_, ?_⟩, ?_⟩
    · simp [writeHalf, writeByte, BitVec.add_assoc, packetSize]
    · simp only [List.forall_mem_cons]
      simp [writeHalf, writeByte, BitVec.add_assoc, zero]
    · simp [writeHalf, writeByte, BitVec.add_assoc, sectorsHigh]
  · refine ⟨⟨?_, ?_⟩, ?_⟩
    · simp [writeHalf, writeByte, BitVec.add_assoc, packetSize]
    · simp only [List.forall_mem_cons]
      simp [writeHalf, writeByte, BitVec.add_assoc, zero]
    · simp [writeHalf, writeByte, BitVec.add_assoc, sectorsHigh]

/-- The variables and the tables lie in front of what is loaded. -/
theorem BootCode.needed_apart_clusters
    (code : BootCode)
    {first count : Nat}
    {below : first + count * 512 ≤ 0x100000}
    (behind : 0x10000 ≤ first) :
    ∀ needed ∈ code.packetRegion :: code.neededRegions,
      needed.Apart (clustersRegion first count below) := by
  have start : (clustersRegion first count below).start.toNat = first := by
    rw [clustersRegion, BitVec.toNat_ofNat]
    omega
  have apart
      {offset size : Nat}
      (inside : 0x7C00 + offset + size ≤ 0x10000) :
      (bootcodeRegion offset size inside).Apart
        (clustersRegion first count below) := by
    have number :
        (bootcodeRegion offset size inside).start.toNat = 0x7C00 + offset :=
      toNat_bootcodeAddress (by omega)
    have same : (bootcodeRegion offset size inside).size = size := rfl
    rw [MemoryRegion.Apart, number, same]
    omega
  simp only [neededRegions, List.forall_mem_cons]
  exact ⟨apart _, apart _, apart _, apart _, List.forall_mem_nil _⟩

/-- The needed ranges lie apart from the packet. -/
theorem BootCode.needed_apart_packet (code : BootCode) :
    ∀ needed ∈ code.neededRegions, needed.Apart code.packetRegion := by
  have inSector := code.packetInSector
  have behind := code.nameBehind
  have inText := code.nameInText
  have inside := code.variablesInside
  simp only [neededRegions, List.forall_mem_cons]
  exact
    ⟨code.parameters_apart_packet,
      bootcodeRegion_apart _ _ (.inr (by omega)),
      bootcodeRegion_apart _ _ (.inr (by omega)), List.forall_mem_nil _⟩

/-- What one round of `more` needs and leaves of the packet. -/
structure BootCode.LoadsTo
    (code : BootCode)
    (image : List Byte)
    (dl : Byte)
    (segment : BitVec 16)
    (memory : Memory) :
    Prop where
  ready : code.Ready image dl memory
  transferBufferBx : readHalf memory (code.dk + 4) = 0
  transferBufferEs : readHalf memory (code.dk + 6) = segment

/-- A half word of the packet stays while other ranges are written. -/
theorem BootCode.packetHalf_of_unchangedOutside
    (unchanged : UnchangedOutside regions memory after)
    (apart : ∀ other ∈ regions, code.packetRegion.Apart other)
    {offset : Nat}
    (inside : offset + 1 < 16) :
    readHalf after (code.dk + BitVec.ofNat 32 offset) =
      readHalf memory (code.dk + BitVec.ofNat 32 offset) := by
  have next :
      code.dk + BitVec.ofNat 32 offset + 1 =
        code.dk + BitVec.ofNat 32 (offset + 1) := by
    rw [BitVec.add_assoc, BitVec.ofNat_add]
    rfl
  rw [readHalf, readHalf, next,
    code.packetByte_of_unchangedOutside unchanged apart inside,
    code.packetByte_of_unchangedOutside unchanged apart
      (Nat.lt_of_succ_lt inside)]

/-- The next round finds the same while other ranges are written. -/
theorem BootCode.LoadsTo.of_unchangedOutside
    {segment : BitVec 16}
    (loads : code.LoadsTo image dl segment memory)
    (unchanged : UnchangedOutside regions memory after)
    (apart :
      ∀ needed ∈ code.packetRegion :: code.neededRegions,
        ∀ other ∈ regions, needed.Apart other) :
    code.LoadsTo image dl segment after := by
  rw [List.forall_mem_cons] at apart
  obtain ⟨ready, transferBufferBx, transferBufferEs⟩ := loads
  refine ⟨?_, ?_, ?_⟩
  · exact
      ready.of_unchangedOutside unchanged apart.2
        (code.packetIntact_of_unchangedOutside ready.packet unchanged
          apart.1)
        ((code.packetByte_of_unchangedOutside unchanged apart.1
          (by decide)).trans ready.sectorsHigh)
  · exact
      (code.packetHalf_of_unchangedOutside unchanged apart.1
        (by decide)).trans transferBufferBx
  · exact
      (code.packetHalf_of_unchangedOutside unchanged apart.1
        (by decide)).trans transferBufferEs

/-- The buffer of the next round can be set. -/
theorem BootCode.LoadsTo.moved
    {segment : BitVec 16}
    (loads : code.LoadsTo image dl segment memory)
    (next : BitVec 16) :
    code.LoadsTo image dl next (writeHalf memory (code.dk + 6) next) := by
  obtain ⟨ready, transferBufferBx, transferBufferEs⟩ := loads
  obtain ⟨intact, sectorsHigh⟩ :=
    Bootloader.writeHalf_intact ready.packet ready.sectorsHigh (.inr rfl)
      next
  have frame :=
    UnchangedOutside.writeHalf code.packetRegion memory
      (show 6 + 2 ≤ code.packetRegion.size from (by decide : 6 + 2 ≤ 16))
      next
  refine ⟨?_, ?_, readHalf_writeHalf_self _ _ _⟩
  · exact
      ready.of_unchangedOutside frame
        (fun needed member =>
          List.forall_mem_singleton.mpr
            (code.needed_apart_packet needed member))
        intact sectorsHigh
  · rw [← transferBufferBx]
    simp [readHalf, writeHalf, writeByte, BitVec.add_assoc]

/-- The address of a segment. -/
theorem realAddress_zero (segment : BitVec 16) :
    realAddress segment 0 = BitVec.ofNat 32 (segment.toNat * 16) := by
  have bounded := segment.isLt
  have sixteen : (16 : BitVec 32).toNat = 16 := rfl
  have zero : ((0 : BitVec 16).setWidth 32).toNat = 0 := rfl
  apply BitVec.eq_of_toNat_eq
  rw [realAddress, BitVec.toNat_add, zero, BitVec.toNat_mul,
    BitVec.toNat_setWidth, BitVec.toNat_ofNat, sixteen]
  omega

/-- One cluster is loaded. -/
theorem Bootloader.loadCluster
    {segment : BitVec 16}
    (loads : code.LoadsTo image dl segment memory)
    (reads : ReadsImage int13 dl image)
    {si : BitVec 16}
    (within : (si.toNat + 1) * 512 ≤ image.length)
    (behind : 0x10000 ≤ segment.toNat * 16)
    (below : segment.toNat * 16 + 1 * 512 ≤ 0x100000) :
    ∃ after,
      loadLbaSector int13 code.dk (setCluster code.dk si memory) =
          some after ∧
        code.LoadsTo image dl segment after ∧
        Holds after (clustersRegion (segment.toNat * 16) 1 below)
          (bytesOf (sector image si.toNat)) ∧
        UnchangedOutside
          [code.packetRegion, clustersRegion (segment.toNat * 16) 1 below]
          memory after := by
  obtain ⟨ready, transferBufferBx, transferBufferEs⟩ := loads
  obtain ⟨intact, sectorsHigh⟩ :=
    setCluster_intact ready.packet ready.sectorsHigh si
  have packet := packetAt_setCluster ready.packet ready.sectorsHigh si
  have frame := setCluster_unchangedOutside code si memory
  have packed :=
    ready.of_unchangedOutside frame
      (fun needed member =>
        List.forall_mem_singleton.mpr
          (code.needed_apart_packet needed member))
      intact sectorsHigh
  rw [transferBufferBx, transferBufferEs] at packet
  have lba : ((0 : BitVec 16) ++ si).toNat = si.toNat := by
    rw [BitVec.toNat_append]
    simp
  have one : (1 : BitVec 16).toNat = 1 := rfl
  have loaded := reads packet (by decide) (by rwa [lba, one])
  rw [← packed.drive, lba, one, realAddress_zero] at loaded
  generalize setCluster code.dk si memory = between
    at frame packed packet loaded
  have stored :=
    UnchangedOutside.storeBytes
      (clustersRegion (segment.toNat * 16) 1 below) between
      (fun offset => bytesOf image (si.toNat * 512 + offset))
  have held :=
    Holds.storeBytes (clustersRegion (segment.toNat * 16) 1 below) between
      (fun offset => bytesOf image (si.toNat * 512 + offset))
  have unwritten :
      ∀ needed ∈ code.packetRegion :: code.neededRegions,
        ∀ other ∈ [clustersRegion (segment.toNat * 16) 1 below],
          needed.Apart other :=
    fun needed member =>
      List.forall_mem_singleton.mpr
        (code.needed_apart_clusters behind needed member)
  refine ⟨_, loaded, ?_, fun offset inside => ?_, ?_⟩
  · refine BootCode.LoadsTo.of_unchangedOutside ⟨packed, ?_, ?_⟩ stored
      unwritten
    · exact congrArg DiskPacket.transferBufferBx packet
    · exact congrArg DiskPacket.transferBufferEs packet
  · have small : offset < 512 := inside
    have here := held offset inside
    rw [sector, bytesOf, List.getD_eq_getElem?_getD,
      List.getElem?_take_of_lt small, List.getElem?_drop]
    exact here
  · exact
      (frame.mono (by simp)).trans (stored.mono (by simp))

/-- Clusters one behind the other are held together. -/
theorem holds_clustersRegion_append
    {first count : Nat}
    {front behind : List Byte}
    (length : front.length = 512)
    {below : first + (count + 1) * 512 ≤ 0x100000}
    {one : first + 1 * 512 ≤ 0x100000}
    {rest : first + 512 + count * 512 ≤ 0x100000}
    (here : Holds memory (clustersRegion first 1 one) (bytesOf front))
    (there :
      Holds memory (clustersRegion (first + 512) count rest)
        (bytesOf behind)) :
    Holds memory (clustersRegion first (count + 1) below)
      (bytesOf (front ++ behind)) := by
  intro offset inside
  have inside : offset < (count + 1) * 512 := inside
  rcases Nat.lt_or_ge offset 512 with inFront | inBehind
  · rw [bytesOf, List.getD_append _ _ _ _ (by omega)]
    exact here offset inFront
  · have held :=
      there (offset - 512)
        (show offset - 512 < count * 512 by omega)
    rw [bytesOf, List.getD_append_right _ _ _ _ (by omega), length,
      ← bytesOf, ← held]
    refine congrArg memory ?_
    simp only [clustersRegion]
    rw [← BitVec.ofNat_add, ← BitVec.ofNat_add, Nat.add_assoc,
      Nat.add_sub_cancel' inBehind]

/-- The start of some clusters. -/
theorem toNat_clustersRegion
    {first count : Nat}
    (below : first + count * 512 ≤ 0x100000) :
    (clustersRegion first count below).start.toNat = first := by
  rw [clustersRegion, BitVec.toNat_ofNat]
  omega

/-- Some of the clusters are among all of them. -/
theorem clustersRegion_contains
    {first count other more : Nat}
    {below : first + count * 512 ≤ 0x100000}
    {otherBelow : other + more * 512 ≤ 0x100000}
    (starts : other ≤ first)
    (ends : first + count * 512 ≤ other + more * 512)
    (address : PtrT)
    (inside : (clustersRegion first count below).Contains address) :
    (clustersRegion other more otherBelow).Contains address := by
  obtain ⟨from_, upTo⟩ := inside
  rw [toNat_clustersRegion] at from_ upTo
  have size : (clustersRegion first count below).size = count * 512 := rfl
  refine ⟨?_, ?_⟩
  · rw [toNat_clustersRegion]
    omega
  · rw [toNat_clustersRegion]
    exact Nat.lt_of_lt_of_le upTo ends

/-- What changes some of the clusters changes all of them at most. -/
theorem unchangedOutside_clusters
    {region : MemoryRegion}
    {first count other more : Nat}
    {below : first + count * 512 ≤ 0x100000}
    {otherBelow : other + more * 512 ≤ 0x100000}
    (unchanged :
      UnchangedOutside [region, clustersRegion first count below] memory
        after)
    (starts : other ≤ first)
    (ends : first + count * 512 ≤ other + more * 512) :
    UnchangedOutside [region, clustersRegion other more otherBelow] memory
      after := by
  refine unchanged.widen ?_
  rw [List.forall_mem_cons, List.forall_mem_singleton]
  exact
    ⟨⟨region, List.mem_cons_self, fun _ inside => inside⟩,
      ⟨_, List.mem_cons_of_mem _ List.mem_cons_self,
        clustersRegion_contains starts ends⟩⟩

/-- The sectors of an image are whole. -/
theorem length_sector
    {lba : Nat}
    (within : (lba + 1) * 512 ≤ image.length) :
    (sector image lba).length = 512 := by
  rw [sector, List.length_take, List.length_drop]
  omega

end Clusters

/-! ## The loop -/

namespace Bootloader

/-- A load that `more` records, made in the memory. -/
def performLoad
    (int13 : ExtendedRead)
    (dk : PtrT)
    (memory : Memory)
    (load : Load) :
    Option Memory :=
  loadLbaSector int13 dk
    (setCluster dk load.lowerLba
      (writeHalf memory (dk + 6) load.transferBufferEs))

/-- Recorded loads, made one after the other. -/
def performLoads (int13 : ExtendedRead) (dk : PtrT) :
    List Load → Memory → Option Memory
  | [], memory => some memory
  | load :: loads, memory => do
      let memory ← performLoad int13 dk memory load
      performLoads int13 dk loads memory

end Bootloader

/-- What the loop from `more` on finds when it comes to a cluster. -/
structure BootCode.ComesTo
    (code : BootCode)
    (image : List Byte)
    (dl : Byte)
    (table : BitVec 16 → BitVec 16)
    (cluster : BitVec 16)
    (rest : List (BitVec 16))
    (segment di : BitVec 16)
    (memory : Memory) :
    Prop where
  loads : code.LoadsTo image dl segment memory
  tables :
    ∀ memory,
      code.Ready image dl memory →
      HoldsTable (segmentAt memory (code.endOfBootcode >>> 4)) table
  here :
    readHalf (segmentAt memory (code.endOfBootcode >>> 4)) di = cluster
  chain : LinkedChain table EndsChain cluster (cluster :: rest)
  inside : ∀ other ∈ cluster :: rest, other.toNat < 0xC00
  within :
    ∀ other ∈ cluster :: rest, (other.toNat + 1) * 512 ≤ image.length
  behind : 0x10000 ≤ segment.toNat * 16
  below : segment.toNat * 16 + (rest.length + 1) * 512 ≤ 0x100000

section Loop

variable
  {code : BootCode}
  {image : List Byte}
  {int13 : ExtendedRead}
  {dl : Byte}
  {table : BitVec 16 → BitVec 16}
  {cluster successor segment di : BitVec 16}
  {rest : List (BitVec 16)}
  {memory after : Memory}

/-- One cluster fits where all of them do. -/
theorem BootCode.ComesTo.one
    (comes : code.ComesTo image dl table cluster rest segment di memory) :
    segment.toNat * 16 + 1 * 512 ≤ 0x100000 :=
  Nat.le_trans
    (Nat.add_le_add_left
      (Nat.mul_le_mul_right 512 (Nat.le_add_left 1 rest.length)) _)
    comes.below

/-- The link of a cluster, once the cluster is loaded. -/
theorem BootCode.ComesTo.link
    (comes : code.ComesTo image dl table cluster rest segment di memory)
    (ready : code.Ready image dl after) :
    readHalf (segmentAt after (code.endOfBootcode >>> 4)) (cluster <<< 1) =
      table cluster :=
  comes.tables after ready cluster (comes.inside cluster List.mem_cons_self)

/-- The last cluster has a link that ends the loop. -/
theorem BootCode.ComesTo.ends
    (comes : code.ComesTo image dl table cluster [] segment di memory) :
    table cluster &&& 0xFFF0 = 0xFFF0 := by
  refine (mask_eq_iff _).mpr ?_
  cases comes.chain with
  | cons _ tail =>
      cases tail with
      | nil ended =>
          exact ended

/-- Any other cluster has the next one as its link. -/
theorem BootCode.ComesTo.goesOn
    (comes :
      code.ComesTo image dl table cluster (successor :: rest) segment di
        memory) :
    table cluster = successor ∧
      LinkedChain table EndsChain successor (successor :: rest) := by
  cases comes.chain with
  | cons _ tail =>
      cases tail with
      | cons continues last =>
          exact ⟨rfl, .cons continues last⟩

/-- The buffer of the next cluster is 512 bytes further on. -/
theorem toNat_nextSegment
    (below :
      segment.toNat * 16 + ((successor :: rest).length + 1) * 512 ≤
        0x100000) :
    (segment + 0x20).toNat * 16 = segment.toNat * 16 + 512 := by
  have clusters : (0x20 : BitVec 16).toNat = 32 := rfl
  rw [List.length_cons] at below
  rw [BitVec.toNat_add, clusters, Nat.mod_eq_of_lt (by omega)]
  omega

/-- Behind a cluster, the loop comes to the next one. -/
theorem BootCode.ComesTo.next
    (comes :
      code.ComesTo image dl table cluster (successor :: rest) segment di memory)
    (loaded : code.LoadsTo image dl segment after) :
    code.ComesTo image dl table successor rest (segment + 0x20) (cluster <<< 1)
      (writeHalf after (code.dk + 6) (segment + 0x20)) := by
  obtain ⟨isNext, chain⟩ := comes.goesOn
  have moved := loaded.moved (segment + 0x20)
  have address := toNat_nextSegment comes.below
  have behind := comes.behind
  have below := comes.below
  rw [List.length_cons] at below
  refine
    ⟨moved, comes.tables, (comes.link moved.ready).trans isNext, chain,
      fun other member =>
        comes.inside other (List.mem_cons_of_mem _ member),
      fun other member =>
        comes.within other (List.mem_cons_of_mem _ member), ?_, ?_⟩
  · omega
  · omega

/-- The loop makes the loads of its clusters. -/
theorem Bootloader.more_eq_performLoads
    (comes : code.ComesTo image dl table cluster rest segment di memory)
    (reads : ReadsImage int13 dl image)
    {fuel : Nat}
    (enough : rest.length < fuel) :
    more int13 code.dk (code.endOfBootcode >>> 4) fuel di memory =
      performLoads int13 code.dk (loadsOf segment (cluster :: rest))
        memory := by
  have buffer {cluster segment di : BitVec 16} {rest : List (BitVec 16)}
      {memory : Memory}
      (comes :
        code.ComesTo image dl table cluster rest segment di memory) :
      writeHalf memory (code.dk + 6) segment = memory := by
    rw [← comes.loads.transferBufferEs, writeHalf_readHalf_self]
  induction rest generalizing cluster segment di memory fuel with
  | nil =>
      obtain ⟨fuel, rfl⟩ :=
        Nat.exists_eq_succ_of_ne_zero (Nat.ne_zero_of_lt enough)
      obtain ⟨between, loaded, later, _⟩ :=
        loadCluster comes.loads reads
          (comes.within cluster List.mem_cons_self) comes.behind comes.one
      simp only [more, comes.here, loaded, performLoads, loadsOf,
        performLoad, buffer comes, Option.bind_eq_bind, Option.bind_some,
        comes.link later.ready]
      exact if_pos comes.ends
  | cons next rest inductionHypothesis =>
      obtain ⟨fuel, rfl⟩ :=
        Nat.exists_eq_succ_of_ne_zero (Nat.ne_zero_of_lt enough)
      obtain ⟨between, loaded, later, _⟩ :=
        loadCluster comes.loads reads
          (comes.within cluster List.mem_cons_self) comes.behind comes.one
      obtain ⟨isNext, tail⟩ := comes.goesOn
      have notLast : ¬EndsChain next := tail.not_ends (by simp)
      have rounds :=
        inductionHypothesis (comes.next later)
          (Nat.lt_of_succ_lt_succ enough)
      simp only [performLoads, loadsOf, performLoad,
        writeHalf_writeHalf_self] at rounds
      simp only [more, comes.here, loaded, performLoads, loadsOf,
        performLoad, buffer comes, Option.bind_eq_bind, Option.bind_some,
        comes.link later.ready, isNext, later.transferBufferEs]
      rw [if_neg fun masked => notLast ((mask_eq_iff _).mp masked)]
      exact rounds

/-- The loop makes the loads that the search of the table records. -/
theorem Bootloader.more_makesLoads
    (comes : code.ComesTo image dl table cluster rest segment di memory)
    (reads : ReadsImage int13 dl image)
    {fuel : Nat}
    (enough : rest.length < fuel) :
    more int13 code.dk (code.endOfBootcode >>> 4) fuel di memory =
      (HobbyOS.more (segmentAt memory (code.endOfBootcode >>> 4)) fuel di
          segment).bind
        fun loads => performLoads int13 code.dk loads memory := by
  rw [more_eq_performLoads comes reads enough,
    more_eq (comes.tables memory comes.loads.ready) comes.chain
      comes.inside comes.here segment enough,
    Option.bind_some]

/-- A load puts its cluster into its segment. -/
theorem Bootloader.performLoad_loads
    (reads : ReadsImage int13 dl image)
    {first : BitVec 16}
    (loads : code.LoadsTo image dl first memory)
    (within : (cluster.toNat + 1) * 512 ≤ image.length)
    (behind : 0x10000 ≤ segment.toNat * 16)
    (below : segment.toNat * 16 + 1 * 512 ≤ 0x100000) :
    ∃ after,
      performLoad int13 code.dk memory ⟨segment, cluster⟩ = some after ∧
        code.LoadsTo image dl segment after ∧
        Holds after (clustersRegion (segment.toNat * 16) 1 below)
          (bytesOf (sector image cluster.toNat)) ∧
        UnchangedOutside
          [code.packetRegion, clustersRegion (segment.toNat * 16) 1 below]
          memory after := by
  obtain ⟨after, loaded, later, held, frame⟩ :=
    loadCluster (loads.moved segment) reads within behind below
  have moved :=
    UnchangedOutside.writeHalf code.packetRegion memory
      (show 6 + 2 ≤ code.packetRegion.size from (by decide : 6 + 2 ≤ 16))
      segment
  exact ⟨after, loaded, later, held, (moved.mono (by simp)).trans frame⟩

/-- Loads of clusters put them one behind the other. -/
theorem Bootloader.performLoads_holds
    (reads : ReadsImage int13 dl image)
    {first : BitVec 16}
    (loads : code.LoadsTo image dl first memory)
    (within :
      ∀ other ∈ cluster :: rest, (other.toNat + 1) * 512 ≤ image.length)
    (behind : 0x10000 ≤ segment.toNat * 16)
    (below : segment.toNat * 16 + (rest.length + 1) * 512 ≤ 0x100000) :
    ∃ after,
      performLoads int13 code.dk (loadsOf segment (cluster :: rest))
            memory =
          some after ∧
        code.Ready image dl after ∧
        Holds after
          (clustersRegion (segment.toNat * 16) (rest.length + 1) below)
          (bytesOf
            ((cluster :: rest).flatMap fun cluster =>
              sector image cluster.toNat)) ∧
        UnchangedOutside
          [code.packetRegion,
            clustersRegion (segment.toNat * 16) (rest.length + 1) below]
          memory after := by
  induction rest generalizing cluster segment first memory with
  | nil =>
      obtain ⟨after, loaded, later, held, frame⟩ :=
        performLoad_loads reads loads (within cluster List.mem_cons_self)
          behind below
      refine ⟨after, ?_, later.ready, ?_, frame⟩
      · simp only [loadsOf, performLoads, loaded, Option.bind_eq_bind,
          Option.bind_some]
      · rw [List.flatMap_singleton]
        exact held
  | cons next rest inductionHypothesis =>
      have one : segment.toNat * 16 + 1 * 512 ≤ 0x100000 :=
        Nat.le_trans
          (Nat.add_le_add_left
            (Nat.mul_le_mul_right 512 (Nat.le_add_left 1 _)) _)
          below
      have address := toNat_nextSegment below
      have restBelow := below
      rw [List.forall_mem_cons] at within
      rw [List.length_cons, Nat.add_one_mul (rest.length + 1),
        Nat.add_comm _ 512, ← Nat.add_assoc] at restBelow
      obtain ⟨between, loaded, later, held, frame⟩ :=
        performLoad_loads reads loads within.1 behind one
      obtain ⟨after, performed, ready, rests, frameRest⟩ :=
        inductionHypothesis later within.2
          (by rw [address]; exact Nat.le_add_right_of_le behind)
          (by rwa [address])
      simp only [address] at rests frameRest
      have apart (other : MemoryRegion)
          (isOther :
            other ∈
              [code.packetRegion,
                clustersRegion (segment.toNat * 16 + 512)
                  (rest.length + 1) restBelow]) :
          (clustersRegion (segment.toNat * 16) 1 one).Apart other := by
        revert other
        rw [List.forall_mem_cons, List.forall_mem_singleton]
        refine
          ⟨(code.needed_apart_clusters behind _
              List.mem_cons_self).symm, .inl ?_⟩
        rw [toNat_clustersRegion, toNat_clustersRegion]
        exact Nat.le_refl _
      refine ⟨after, ?_, ready, ?_, ?_⟩
      · rw [loadsOf, performLoads, loaded]
        exact performed
      · rw [List.flatMap_cons]
        exact
          holds_clustersRegion_append (length_sector within.1)
            (held.of_unchangedOutside frameRest apart) rests
      · refine
          (unchangedOutside_clusters frame (Nat.le_refl _) ?_).trans
            (unchangedOutside_clusters frameRest (Nat.le_add_right _ _)
              ?_)
        · exact
            Nat.add_le_add_left
              (Nat.mul_le_mul_right 512 (Nat.le_add_left 1 _)) _
        · rw [List.length_cons, Nat.add_one_mul (rest.length + 1),
            Nat.add_assoc, Nat.add_comm 512]

/-- The loop loads the clusters of a chain one behind the other. -/
theorem Bootloader.more_loads
    (comes : code.ComesTo image dl table cluster rest segment di memory)
    (reads : ReadsImage int13 dl image) :
    ∃ after,
      (∀ fuel > rest.length,
        more int13 code.dk (code.endOfBootcode >>> 4) fuel di memory =
          some after) ∧
        code.Ready image dl after ∧
        Holds after
          (clustersRegion (segment.toNat * 16) (rest.length + 1)
            comes.below)
          (bytesOf
            ((cluster :: rest).flatMap fun cluster =>
              sector image cluster.toNat)) ∧
        UnchangedOutside
          [code.packetRegion,
            clustersRegion (segment.toNat * 16) (rest.length + 1)
              comes.below]
          memory after := by
  obtain ⟨after, performed, ready, held, frame⟩ :=
    performLoads_holds reads comes.loads comes.within comes.behind
      comes.below
  exact
    ⟨after,
      fun _ enough =>
        (more_eq_performLoads comes reads enough).trans performed,
      ready, held, frame⟩

end Loop

end HobbyOS
