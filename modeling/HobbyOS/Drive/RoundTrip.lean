import HobbyOS.Drive.Transfers

namespace HobbyOS

open Library

/-!
# Writing sectors and reading them back

`disk_read_from` puts bits 27 to 24 of the block address into the drive
register.  `disk_write_to` puts the low nibble of the drive number there, so
from block 2^24 on it writes other sectors than the ones that are read back.
-/

/-! ## The addressed sectors -/

/-- One byte of a block address, as it is written to a register. -/
theorem toNat_addressByte
    (linearBlockAddress : AddrT)
    (shift : Nat) :
    (((linearBlockAddress >>> shift) &&& 0xFF).setWidth 8).toNat =
      linearBlockAddress.toNat / 2 ^ shift % 256 := by
  have mask : (0xFF : AddrT).toNat = 2 ^ 8 - 1 := rfl
  rw [BitVec.toNat_setWidth, BitVec.toNat_and, mask,
    Nat.and_two_pow_sub_one_eq_mod, BitVec.toNat_ushiftRight,
    Nat.shiftRight_eq_div_pow, Nat.mod_mod]

/-- The sectors that a command addresses, behind the selection. -/
theorem selectSectors_linearAddress
    (drive : Drive)
    (register : Byte)
    (linearBlockAddress : AddrT)
    (numberOfSectors : Byte) :
    (selectSectors drive register linearBlockAddress
        numberOfSectors).linearAddress =
      BitVec.ofNat 28
        (register.toNat % 16 * 2 ^ 24 +
          linearBlockAddress.toNat % 2 ^ 24) := by
  have low := toNat_addressByte linearBlockAddress 0
  have middle := toNat_addressByte linearBlockAddress 8
  have high := toNat_addressByte linearBlockAddress 16
  have selected :
      (selectSectors drive register linearBlockAddress
          numberOfSectors).linearAddress =
        BitVec.ofNat 28
          (register.toNat % 16 * 2 ^ 24 +
            (((linearBlockAddress >>> 16) &&& 0xFF).setWidth 8).toNat *
              2 ^ 16 +
            (((linearBlockAddress >>> 8) &&& 0xFF).setWidth 8).toNat *
              2 ^ 8 +
            (((linearBlockAddress >>> 0) &&& 0xFF).setWidth 8).toNat) :=
    rfl
  rw [selected, low, middle, high]
  refine congrArg (BitVec.ofNat 28) ?_
  omega

/-- A command starts its transfer with the first sector. -/
theorem command_transfer
    (drive : Drive)
    {numberOfSectors : Byte}
    (some_ : numberOfSectors ≠ 0)
    (register : Byte)
    (linearBlockAddress : AddrT) :
    let selected :=
      selectSectors drive register linearBlockAddress numberOfSectors
    (selected.outb diskCommandPort readSectorsWithRetry).transfer =
        .reading selected.linearAddress numberOfSectors.toNat 0 ∧
      (selected.outb diskCommandPort writeSectorsWithRetry).transfer =
        .writing selected.linearAddress numberOfSectors.toNat 0 := by
  intro selected
  have count : selected.sectors = numberOfSectors.toNat := if_neg some_
  constructor
  · show Transfer.reading selected.linearAddress selected.sectors 0 = _
    rw [count]
  · show Transfer.writing selected.linearAddress selected.sectors 0 = _
    rw [count]

/-- The low nibble of the register that a read writes. -/
theorem readRegister_nibble (linearBlockAddress : AddrT) :
    (readRegister linearBlockAddress).toNat % 16 =
      linearBlockAddress.toNat / 2 ^ 24 % 16 := by
  have mask : (0xF : AddrT).toNat = 2 ^ 4 - 1 := rfl
  have flags : (0b11100000 : AddrT).toNat % 2 ^ 4 = 0 := rfl
  have sixteen : (16 : Nat) = 2 ^ 4 := rfl
  rw [readRegister, BitVec.toNat_setWidth,
    Nat.mod_mod_of_dvd _ (by decide), BitVec.toNat_or, sixteen,
    Nat.or_mod_two_pow, flags, Nat.zero_or, BitVec.toNat_and, mask,
    Nat.and_two_pow_sub_one_eq_mod, Nat.mod_mod,
    BitVec.toNat_ushiftRight, Nat.shiftRight_eq_div_pow]

/-- The address of a read is the block address. -/
theorem readAddress_eq (linearBlockAddress : AddrT) :
    BitVec.ofNat 28
        ((readRegister linearBlockAddress).toNat % 16 * 2 ^ 24 +
          linearBlockAddress.toNat % 2 ^ 24) =
      linearBlockAddress.setWidth 28 := by
  apply BitVec.eq_of_toNat_eq
  rw [readRegister_nibble, BitVec.toNat_ofNat, BitVec.toNat_setWidth]
  omega

/-- The address of a write is the low part of the block address. -/
theorem writeAddress_eq
    {info : DiskFSInfo}
    (nibble : info.driveNumber &&& 0xF = 0)
    (linearBlockAddress : AddrT) :
    BitVec.ofNat 28
        ((writeRegister info).toNat % 16 * 2 ^ 24 +
          linearBlockAddress.toNat % 2 ^ 24) =
      BitVec.ofNat 28 (linearBlockAddress.toNat % 2 ^ 24) := by
  have register : (0xE0 ||| 0 : Byte).toNat % 16 = 0 := by decide
  rw [writeRegister, nibble, register, Nat.zero_mul, Nat.zero_add]

/-! ## The two functions -/

/-- `disk_read_from` stores the sectors at the block address. -/
theorem diskReadFrom_eq
    (memory : Memory)
    (drive : Drive)
    (location : PtrT)
    (linearBlockAddress : AddrT)
    (numberOfSectors : Byte) :
    ∃ enough later,
      later.disk = drive.disk ∧
        ∀ fuel ≥ enough,
          diskReadFrom fuel memory drive location linearBlockAddress
              numberOfSectors =
            some
              (storeBytes memory location
                (sectorBytes drive.disk (linearBlockAddress.setWidth 28))
                (numberOfSectors.toNat * 512),
                later) := by
  by_cases none : numberOfSectors = 0
  · subst none
    refine ⟨0, drive, rfl, ?_⟩
    intro fuel _
    have zero : (0 : Byte).toNat * 512 = 0 := rfl
    rw [diskReadFrom, if_pos rfl, zero, storeBytes_zero]
  · have bounded := numberOfSectors.isLt
    have started :=
      (command_transfer drive.ready none
        (readRegister linearBlockAddress) linearBlockAddress).1
    rw [selectSectors_linearAddress, readAddress_eq] at started
    obtain ⟨enough, later, same, ends⟩ :=
      readSectors_eq location memory _ _ (by omega) (Or.inr started) 0
    have disk := same.trans (show _ = drive.disk from rfl)
    refine ⟨max enough (drive.delay + 1), later, disk, ?_⟩
    intro fuel fueled
    have location0 : location + BitVec.ofNat 32 (0 * 512) = location :=
      BitVec.add_zero location
    rw [diskReadFrom, if_neg none, waitReady_eq drive (by omega)]
    simp only [Option.bind_eq_bind, Option.bind_some]
    rw [ends fuel (by omega), location0]
    rfl

/-- `disk_write_to` writes the sectors at the low part of the address. -/
theorem diskWriteTo_eq
    {info : DiskFSInfo}
    (nibble : info.driveNumber &&& 0xF = 0)
    (memory : Memory)
    (drive : Drive)
    (location : PtrT)
    (linearBlockAddress : AddrT)
    {numberOfSectors : Byte}
    (some_ : 1 ≤ numberOfSectors.toNat) :
    ∃ enough later,
      later.disk =
          storeSectors drive.disk
            (BitVec.ofNat 28 (linearBlockAddress.toNat % 2 ^ 24))
            (fun offset => memory (location + BitVec.ofNat 32 offset))
            numberOfSectors.toNat ∧
        ∀ fuel ≥ enough,
          diskWriteTo fuel info memory drive location linearBlockAddress
              numberOfSectors =
            some later := by
  have bounded := numberOfSectors.isLt
  have none : numberOfSectors ≠ 0 := by
    rintro rfl
    exact Nat.not_lt_zero 0 some_
  have started :=
    (command_transfer drive.ready none (writeRegister info)
      linearBlockAddress).2
  rw [selectSectors_linearAddress, writeAddress_eq nibble] at started
  obtain ⟨enough, later, same, ends⟩ :=
    writeSectors_eq memory location _ _ (by omega) (Or.inr started) 0
  refine ⟨max enough (drive.delay + 1), later, ?_, ?_⟩
  · rw [same]
    simp only [Nat.zero_mul, Nat.zero_add]
    rfl
  · intro fuel fueled
    rw [diskWriteTo, if_neg none, waitReady_eq drive (by omega)]
    simp only [Option.bind_eq_bind, Option.bind_some]
    exact ends fuel (by omega)

/-! ## The round trip -/

/--
Writing sectors and reading them back with the same address and count ends,
fills the second buffer with the bytes of the first, and leaves the other
sectors of the disk alone.
-/
def ReadsBack
    (info : DiskFSInfo)
    (memory : Memory)
    (drive : Drive)
    (buf buf2 : PtrT)
    (linearBlockAddress : AddrT)
    (numberOfSectors : Byte) :
    Prop :=
  ∃ enough written memory' later,
    (∀ fuel ≥ enough,
      diskWriteTo fuel info memory drive buf linearBlockAddress
          numberOfSectors =
        some written ∧
      diskReadFrom fuel memory written buf2 linearBlockAddress
          numberOfSectors =
        some (memory', later)) ∧
    (∀ offset < numberOfSectors.toNat * 512,
      memory' (buf2 + BitVec.ofNat 32 offset) =
        memory (buf + BitVec.ofNat 32 offset)) ∧
    ∀ sector : BitVec 28,
      sector.toNat < linearBlockAddress.toNat ∨
          linearBlockAddress.toNat + numberOfSectors.toNat ≤
            sector.toNat →
      later.disk sector = drive.disk sector

/-- The sectors from `first` on hold the bytes of a buffer already. -/
def HoldsBuffer
    (disk : Disk)
    (first : BitVec 28)
    (memory : Memory)
    (buf : PtrT)
    (count : Nat) :
    Prop :=
  ∀ offset < count * 512,
    sectorBytes disk first offset = memory (buf + BitVec.ofNat 32 offset)

section RoundTrip

variable
  {info : DiskFSInfo}
  {memory : Memory}
  {drive : Drive}
  {buf buf2 : PtrT}
  {linearBlockAddress : AddrT}
  {numberOfSectors : Byte}

/-- What the two calls do, in terms of the addressed sectors. -/
theorem diskWriteTo_diskReadFrom
    (nibble : info.driveNumber &&& 0xF = 0)
    (some_ : 1 ≤ numberOfSectors.toNat) :
    ∃ enough written later,
      (∀ fuel ≥ enough,
        diskWriteTo fuel info memory drive buf linearBlockAddress
            numberOfSectors =
          some written ∧
        diskReadFrom fuel memory written buf2 linearBlockAddress
            numberOfSectors =
          some
            (storeBytes memory buf2
              (sectorBytes later.disk (linearBlockAddress.setWidth 28))
              (numberOfSectors.toNat * 512),
              later)) ∧
      later.disk =
        storeSectors drive.disk
          (BitVec.ofNat 28 (linearBlockAddress.toNat % 2 ^ 24))
          (fun offset => memory (buf + BitVec.ofNat 32 offset))
          numberOfSectors.toNat := by
  obtain ⟨enoughWrite, written, wroteDisk, writes⟩ :=
    diskWriteTo_eq nibble memory drive buf linearBlockAddress some_
  obtain ⟨enoughRead, later, sameDisk, reads⟩ :=
    diskReadFrom_eq memory written buf2 linearBlockAddress
      numberOfSectors
  refine ⟨max enoughWrite enoughRead, written, later, ?_,
    sameDisk.trans wroteDisk⟩
  intro fuel fueled
  refine ⟨writes fuel (by omega), ?_⟩
  rw [sameDisk]
  exact reads fuel (by omega)

/-- Below block 2^24 the sectors that are written are read back. -/
theorem readsBack_of_low
    (nibble : info.driveNumber &&& 0xF = 0)
    (some_ : 1 ≤ numberOfSectors.toNat)
    (low : linearBlockAddress.toNat < 2 ^ 24) :
    ReadsBack info memory drive buf buf2 linearBlockAddress
      numberOfSectors := by
  have bounded := numberOfSectors.isLt
  obtain ⟨enough, written, later, calls, disk⟩ :=
    diskWriteTo_diskReadFrom nibble some_
  have address :
      BitVec.ofNat 28 (linearBlockAddress.toNat % 2 ^ 24) =
        linearBlockAddress.setWidth 28 := by
    apply BitVec.eq_of_toNat_eq
    rw [BitVec.toNat_ofNat, BitVec.toNat_setWidth, Nat.mod_eq_of_lt low]
  rw [address] at disk
  refine ⟨enough, written, _, later, calls, ?_, ?_⟩
  · intro offset inside
    rw [storeBytes_inside inside (by omega), disk]
    exact sectorBytes_storeSectors _ _ _ (by omega) inside
  · intro sector outside
    rw [disk]
    refine storeSectors_outside ?_
    have first :
        (linearBlockAddress.setWidth 28).toNat =
          linearBlockAddress.toNat := by
      rw [BitVec.toNat_setWidth, Nat.mod_eq_of_lt (by omega)]
    have limit := sector.isLt
    rw [BitVec.toNat_sub, first]
    omega

/-- Sectors that hold the buffer already are read back anywhere. -/
theorem readsBack_of_held
    (nibble : info.driveNumber &&& 0xF = 0)
    (some_ : 1 ≤ numberOfSectors.toNat)
    (here :
      HoldsBuffer drive.disk (linearBlockAddress.setWidth 28) memory buf
        numberOfSectors.toNat)
    (below :
      HoldsBuffer drive.disk
        (BitVec.ofNat 28 (linearBlockAddress.toNat % 2 ^ 24)) memory buf
        numberOfSectors.toNat) :
    ReadsBack info memory drive buf buf2 linearBlockAddress
      numberOfSectors := by
  have bounded := numberOfSectors.isLt
  obtain ⟨enough, written, later, calls, disk⟩ :=
    diskWriteTo_diskReadFrom nibble some_
  rw [storeSectors_eq_self below] at disk
  refine ⟨enough, written, _, later, calls, ?_, ?_⟩
  · intro offset inside
    rw [storeBytes_inside inside (by omega), disk]
    exact here offset inside
  · intro sector _
    rw [disk]

/-- From block 2^24 on, other sectors are written than are read back. -/
theorem held_of_readsBack
    (nibble : info.driveNumber &&& 0xF = 0)
    (some_ : 1 ≤ numberOfSectors.toNat)
    (inside :
      linearBlockAddress.toNat + numberOfSectors.toNat ≤ 2 ^ 28)
    (high : 2 ^ 24 ≤ linearBlockAddress.toNat)
    (readsBack :
      ReadsBack info memory drive buf buf2 linearBlockAddress
        numberOfSectors) :
    HoldsBuffer drive.disk (linearBlockAddress.setWidth 28) memory buf
        numberOfSectors.toNat ∧
      HoldsBuffer drive.disk
        (BitVec.ofNat 28 (linearBlockAddress.toNat % 2 ^ 24)) memory buf
        numberOfSectors.toNat := by
  have bounded := numberOfSectors.isLt
  obtain ⟨enough, written, memory', later, calls, buffer, others⟩ :=
    readsBack
  obtain ⟨enoughSpec, writtenSpec, laterSpec, callsSpec, disk⟩ :=
    @diskWriteTo_diskReadFrom info memory drive buf buf2
      linearBlockAddress numberOfSectors nibble some_
  obtain ⟨wrote, read⟩ := calls (max enough enoughSpec) (by omega)
  obtain ⟨wroteSpec, readSpec⟩ :=
    callsSpec (max enough enoughSpec) (by omega)
  rw [wroteSpec, Option.some.injEq] at wrote
  rw [← wrote, readSpec, Option.some.injEq, Prod.mk.injEq] at read
  obtain ⟨rfl, rfl⟩ := read
  have firstLow :
      (BitVec.ofNat 28 (linearBlockAddress.toNat % 2 ^ 24)).toNat =
        linearBlockAddress.toNat % 2 ^ 24 := by
    rw [BitVec.toNat_ofNat, Nat.mod_eq_of_lt (by omega)]
  have firstHigh :
      (linearBlockAddress.setWidth 28).toNat =
        linearBlockAddress.toNat := by
    rw [BitVec.toNat_setWidth, Nat.mod_eq_of_lt (by omega)]
  constructor
  · intro offset inBuffer
    have delivered := buffer offset inBuffer
    rw [storeBytes_inside inBuffer (by omega), disk] at delivered
    -- The sectors that are read lie behind those that were written.
    have sector :
        (linearBlockAddress.setWidth 28 +
            BitVec.ofNat 28 (offset / 512)).toNat =
          linearBlockAddress.toNat + offset / 512 := by
      rw [BitVec.toNat_add, firstHigh, BitVec.toNat_ofNat]
      omega
    rw [← delivered, sectorBytes, sectorBytes, storeSectors_outside]
    rw [BitVec.toNat_sub, sector, firstLow]
    omega
  · intro offset inBuffer
    have sector :
        (BitVec.ofNat 28 (linearBlockAddress.toNat % 2 ^ 24) +
            BitVec.ofNat 28 (offset / 512)).toNat =
          linearBlockAddress.toNat % 2 ^ 24 + offset / 512 := by
      rw [BitVec.toNat_add, firstLow, BitVec.toNat_ofNat]
      omega
    have kept :=
      others
        (BitVec.ofNat 28 (linearBlockAddress.toNat % 2 ^ 24) +
          BitVec.ofNat 28 (offset / 512))
        (Or.inl (by omega))
    have stored :=
      sectorBytes_storeSectors drive.disk
        (BitVec.ofNat 28 (linearBlockAddress.toNat % 2 ^ 24))
        (fun offset => memory (buf + BitVec.ofNat 32 offset))
        (show numberOfSectors.toNat ≤ 2 ^ 28 by omega) inBuffer
    rw [← disk, sectorBytes, kept] at stored
    exact stored

/--
Sectors are written and read back exactly below block 2^24, apart from sectors
that hold the buffer already at both addresses.
-/
theorem diskWriteTo_diskReadFrom_iff
    (nibble : info.driveNumber &&& 0xF = 0)
    (some_ : 1 ≤ numberOfSectors.toNat)
    (inside :
      linearBlockAddress.toNat + numberOfSectors.toNat ≤ 2 ^ 28) :
    ReadsBack info memory drive buf buf2 linearBlockAddress
        numberOfSectors ↔
      linearBlockAddress.toNat < 2 ^ 24 ∨
        (HoldsBuffer drive.disk (linearBlockAddress.setWidth 28) memory
            buf numberOfSectors.toNat ∧
          HoldsBuffer drive.disk
            (BitVec.ofNat 28 (linearBlockAddress.toNat % 2 ^ 24)) memory
            buf numberOfSectors.toNat) := by
  constructor
  · intro readsBack
    rcases Nat.lt_or_ge linearBlockAddress.toNat (2 ^ 24) with low | high
    · exact Or.inl low
    · exact Or.inr
        (held_of_readsBack nibble some_ inside high readsBack)
  · rintro (low | ⟨here, below⟩)
    · exact readsBack_of_low nibble some_ low
    · exact readsBack_of_held nibble some_ here below

end RoundTrip

/-- A drive with an empty disk that is never busy. -/
def emptyDrive : Drive where
  disk := fun _ _ => 0
  driveRegister := 0
  sectorCount := 0
  sectorNumber := 0
  cylinderLow := 0
  cylinderHigh := 0
  transfer := .idle
  delay := 0
  delays := fun _ => 0

/-- The file system of the image, on the drive 0x80. -/
def imageInfo : DiskFSInfo where
  bytesPerSector := 512
  sectorsPerCluster := 1
  driveNumber := 0x80

/-- Two sectors of ones at block 1000 are read back. -/
theorem diskWriteTo_diskReadFrom_iff_low :
    ReadsBack imageInfo (fun _ => 0xFF) emptyDrive 0x100000 0x200000
      1000 2 :=
  (diskWriteTo_diskReadFrom_iff (by decide) (by decide)
    (by decide)).mpr (Or.inl (by decide))

/-- A sector of ones at block 2^24 is written to block 0. -/
theorem diskWriteTo_diskReadFrom_fails :
    ¬∀ (info : DiskFSInfo)
        (memory : Memory)
        (drive : Drive)
        (buf buf2 : PtrT)
        (linearBlockAddress : AddrT)
        (numberOfSectors : Byte),
      info.driveNumber &&& 0xF = 0 →
      1 ≤ numberOfSectors.toNat →
      linearBlockAddress.toNat + numberOfSectors.toNat ≤ 2 ^ 28 →
      ReadsBack info memory drive buf buf2 linearBlockAddress
        numberOfSectors := by
  intro roundTrip
  have readsBack :=
    roundTrip imageInfo (fun _ => 0xFF) emptyDrive 0x100000 0x200000
      0x1000000 1 (by decide) (by decide) (by decide)
  have held :=
    held_of_readsBack (by decide) (by decide) (by decide) (by decide)
      readsBack
  have byte := held.1 0 (by decide)
  revert byte
  decide

end HobbyOS
