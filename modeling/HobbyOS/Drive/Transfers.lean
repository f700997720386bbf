import HobbyOS.Drive.DiskAccess

namespace HobbyOS

open Library

/-!
# What the drive transfers

A read stores consecutive sectors at consecutive addresses, and a write puts
consecutive parts of the memory on consecutive sectors.  The sectors of a read
are addressed by the low 28 bits of the block address; those of a write by its
low 24 bits, with the low nibble of the drive number above them.
-/

/-- Put `count` sectors of 512 bytes on the disk from `first` on. -/
def storeSectors
    (disk : Disk)
    (first : BitVec 28)
    (bytes : Nat → Byte)
    (count : Nat) :
    Disk :=
  fun sector position =>
    if (sector - first).toNat < count ∧ position < 512 then
      bytes ((sector - first).toNat * 512 + position)
    else
      disk sector position

/-- The bytes of the sectors from `first` on. -/
def sectorBytes (disk : Disk) (first : BitVec 28) (offset : Nat) : Byte :=
  disk (first + BitVec.ofNat 28 (offset / 512)) (offset % 512)

/-- Sectors that are not written keep their bytes. -/
theorem storeSectors_outside
    {disk : Disk}
    {first target : BitVec 28}
    {bytes : Nat → Byte}
    {count : Nat}
    (outside : count ≤ (target - first).toNat) :
    storeSectors disk first bytes count target = disk target := by
  funext position
  exact if_neg fun both => Nat.not_lt_of_le outside both.1

/-- The distance of a sector of a transfer from the first one. -/
theorem toNat_sector_sub
    (first : BitVec 28)
    {index : Nat}
    (small : index < 2 ^ 28) :
    (first + BitVec.ofNat 28 index - first).toNat = index := by
  rw [BitVec.add_comm, BitVec.add_sub_cancel, BitVec.toNat_ofNat,
    Nat.mod_eq_of_lt small]

/-- The bytes of sectors that were written. -/
theorem sectorBytes_storeSectors
    (disk : Disk)
    (first : BitVec 28)
    (bytes : Nat → Byte)
    {count offset : Nat}
    (few : count ≤ 2 ^ 28)
    (inside : offset < count * 512) :
    sectorBytes (storeSectors disk first bytes count) first offset =
      bytes offset := by
  have distance :=
    toNat_sector_sub first (show offset / 512 < 2 ^ 28 by omega)
  unfold sectorBytes storeSectors
  rw [distance, if_pos (by omega)]
  congr 1
  omega

/-- Writing what the sectors hold changes nothing. -/
theorem storeSectors_eq_self
    {disk : Disk}
    {first : BitVec 28}
    {bytes : Nat → Byte}
    {count : Nat}
    (holds :
      ∀ offset < count * 512, sectorBytes disk first offset = bytes offset) :
    storeSectors disk first bytes count = disk := by
  funext target position
  unfold storeSectors
  split
  · rename_i both
    have held :=
      holds ((target - first).toNat * 512 + position) (by omega)
    have quotient :
        ((target - first).toNat * 512 + position) / 512 =
          (target - first).toNat := by
      omega
    have remainder :
        ((target - first).toNat * 512 + position) % 512 = position := by
      omega
    have sector : first + (target - first) = target := by
      rw [BitVec.add_comm, BitVec.sub_add_cancel]
    rw [← held, sectorBytes, quotient, remainder, BitVec.ofNat_toNat,
      BitVec.setWidth_eq, sector]
  · rfl

/-! ## Waiting -/

/-- The drive when it is no longer busy. -/
def Drive.ready (drive : Drive) : Drive :=
  { drive with delay := 0 }

/-- A drive that is not busy reports a status without the busy bit. -/
theorem Drive.getStatus_ready
    {drive : Drive}
    (elapsed : drive.delay = 0) :
    drive.getStatus.1 &&& 0b10000000 = 0 ∧
      (drive.transfer ≠ .idle → drive.getStatus.1 &&& 0b1000 ≠ 0) ∧
      drive.getStatus.2 = drive.ready := by
  have waiting : (0x40 : Byte) &&& 0b10000000 = 0 := by decide
  have requesting :
      (0x48 : Byte) &&& 0b10000000 = 0 ∧
        (0x48 : Byte) &&& 0b1000 ≠ 0 := by
    decide
  refine ⟨?_, ?_, ?_⟩
  · show drive.status &&& 0b10000000 = 0
    rw [Drive.status, if_neg (not_not.mpr elapsed)]
    split
    · exact waiting
    · exact requesting.1
  · intro active
    show drive.status &&& 0b1000 ≠ 0
    rw [Drive.status, if_neg (not_not.mpr elapsed)]
    split
    · rename_i idle
      exact (active idle).elim
    · exact requesting.2
  · simp [Drive.getStatus, Drive.ready, elapsed]

/-- A busy drive reports so, and gets ready. -/
theorem Drive.getStatus_busy
    {drive : Drive}
    (busy : drive.delay ≠ 0) :
    drive.getStatus.1 &&& 0b10000000 ≠ 0 ∧
      drive.getStatus.2.delay + 1 = drive.delay ∧
      drive.getStatus.2.transfer = drive.transfer ∧
      drive.getStatus.2.ready = drive.ready := by
  refine ⟨?_, ?_, rfl, rfl⟩
  · show drive.status &&& 0b10000000 ≠ 0
    rw [Drive.status, if_pos busy]
    decide
  · simp only [Drive.getStatus]
    omega

/-- Waiting for the drive ends when its delay is over. -/
theorem waitReady_eq
    (drive : Drive)
    {fuel : Nat}
    (enough : drive.delay < fuel) :
    waitReady fuel drive = some drive.ready := by
  induction fuel generalizing drive with
  | zero =>
      exact (Nat.not_lt_zero _ enough).elim
  | succ fuel inductionHypothesis =>
      simp only [waitReady]
      by_cases elapsed : drive.delay = 0
      · obtain ⟨free, _, later⟩ := Drive.getStatus_ready elapsed
        rw [if_neg (not_not.mpr free), later]
      · obtain ⟨busy, nearer, _, later⟩ := Drive.getStatus_busy elapsed
        rw [if_pos busy, inductionHypothesis _ (by omega), later]

/-- Waiting for a transfer ends when the delay is over. -/
theorem waitRequest_eq
    (drive : Drive)
    (active : drive.transfer ≠ .idle)
    {fuel : Nat}
    (enough : drive.delay < fuel) :
    waitRequest fuel drive = some drive.ready := by
  induction fuel generalizing drive with
  | zero =>
      exact (Nat.not_lt_zero _ enough).elim
  | succ fuel inductionHypothesis =>
      simp only [waitRequest]
      by_cases elapsed : drive.delay = 0
      · obtain ⟨free, requests, later⟩ := Drive.getStatus_ready elapsed
        have passes :
            ¬(drive.getStatus.1 &&& 0b10000000 ≠ 0 ∨
              drive.getStatus.1 &&& 0b1000 = 0) := by
          rw [not_or]
          exact ⟨not_not.mpr free, requests active⟩
        rw [if_neg passes, later]
      · obtain ⟨busy, nearer, same, later⟩ := Drive.getStatus_busy elapsed
        rw [if_pos (Or.inl busy),
          inductionHypothesis _ (by rw [same]; exact active) (by omega),
          later]

/-! ## Reading -/

/-- The drive when it has delivered `offset` bytes of a sector. -/
def Drive.readTo
    (drive : Drive)
    (sector : BitVec 28)
    (sectors offset : Nat) :
    Drive :=
  if offset < 512 then
    { drive with transfer := .reading sector sectors offset }
  else if sectors ≤ 1 then
    { drive with transfer := .idle }
  else
    drive.busyAgain (.reading (sector + 1) (sectors - 1) 0)

/-- Words from the data port are the bytes of the sector. -/
theorem insw_readTo
    (drive : Drive)
    (sector : BitVec 28)
    (sectors : Nat)
    (memory : Memory)
    (buf : PtrT)
    (n : Nat)
    {offset : Nat}
    (inside : offset + 2 * n ≤ 512) :
    insw (drive.readTo sector sectors offset) memory buf n =
      (storeBytes memory buf (fun i => drive.disk sector (offset + i))
          (2 * n),
        drive.readTo sector sectors (offset + 2 * n)) := by
  induction n generalizing memory buf offset with
  | zero =>
      simp [insw]
  | succ n inductionHypothesis =>
      have word :
          (drive.readTo sector sectors offset).inw =
            (drive.disk sector (offset + 1) ++ drive.disk sector offset,
              drive.readTo sector sectors (offset + 2)) := by
        rw [Drive.readTo, if_pos (by omega)]
        rfl
      have next : offset + 2 * (n + 1) = offset + 2 + 2 * n := by omega
      have stored :=
        storeBytes_append memory buf
          (appendBytes (fun _ => drive.disk sector offset) 1
            fun _ => drive.disk sector (offset + 1))
          (fun i => drive.disk sector (offset + 2 + i))
          (show 2 + 2 * n ≤ 2 ^ 32 by omega)
      rw [insw, word]
      dsimp only
      rw [inductionHypothesis _ _ (by omega), next, writeHalf_append]
      refine Prod.ext ?_ rfl
      refine stored.trans ?_
      rw [show 2 + 2 * n = 2 * (n + 1) by omega]
      dsimp only
      refine storeBytes_congr ?_
      intro i _
      have cases : i = 0 ∨ i = 1 ∨ 2 ≤ i := by omega
      unfold appendBytes
      rcases cases with rfl | rfl | behind
      · simp
      · simp
      · have position : offset + 2 + (i - 2) = offset + i := by omega
        rw [if_neg (by omega)]
        dsimp only
        rw [position]

/-- The drive behind a sector that was read. -/
def Drive.afterRead
    (drive : Drive)
    (sector : BitVec 28)
    (sectors : Nat) :
    Drive :=
  drive.readTo sector sectors 512

/-- The words of a sector are its bytes. -/
theorem insw_sector
    {drive : Drive}
    {sector : BitVec 28}
    {sectors : Nat}
    (reading : drive.transfer = .reading sector sectors 0)
    (memory : Memory)
    (buf : PtrT) :
    insw drive memory buf 256 =
      (storeBytes memory buf (drive.disk sector) 512,
        drive.afterRead sector sectors) := by
  have started : drive.readTo sector sectors 0 = drive := by
    rw [Drive.readTo, if_pos (by omega), ← reading]
  have moved :=
    insw_readTo drive sector sectors memory buf 256
      (show 0 + 2 * 256 ≤ 512 by omega)
  have bytes :
      (fun i => drive.disk sector (0 + i)) = drive.disk sector := by
    funext i
    rw [Nat.zero_add]
  rw [started, bytes] at moved
  exact moved

/-- After a sector, the drive goes on with the next one, if there is one. -/
theorem Drive.afterRead_spec
    (drive : Drive)
    (sector : BitVec 28)
    (sectors : Nat) :
    (drive.afterRead sector (sectors + 1)).disk = drive.disk ∧
      (sectors = 0 ∨
        (drive.afterRead sector (sectors + 1)).transfer =
          .reading (sector + 1) sectors 0) := by
  unfold Drive.afterRead Drive.readTo
  rw [if_neg (by omega)]
  split
  · exact ⟨rfl, Or.inl (by omega)⟩
  · exact ⟨rfl, Or.inr rfl⟩

/-- The bytes of sectors, from the second one on. -/
theorem sectorBytes_cons
    (disk : Disk)
    (first : BitVec 28)
    {offset : Nat} :
    appendBytes (disk first) 512 (sectorBytes disk (first + 1)) offset =
      sectorBytes disk first offset := by
  unfold appendBytes sectorBytes
  split
  · rename_i inFirst
    rw [Nat.div_eq_of_lt inFirst, Nat.mod_eq_of_lt inFirst]
    simp
  · have quotient : offset / 512 = (offset - 512) / 512 + 1 := by omega
    have remainder : (offset - 512) % 512 = offset % 512 := by omega
    rw [quotient, remainder, Nat.add_comm, BitVec.ofNat_add,
      ← BitVec.add_assoc]
    rfl

/-- The loop over the sectors stores the sectors one behind the other. -/
theorem readSectors_eq
    (location : PtrT)
    (memory : Memory)
    (drive : Drive)
    (first : BitVec 28)
    {sectors : Nat}
    (few : sectors ≤ 256)
    (active :
      sectors = 0 ∨ drive.transfer = .reading first sectors 0)
    (i : Nat) :
    ∃ enough later,
      later.disk = drive.disk ∧
        ∀ fuel ≥ enough,
          readSectors fuel location sectors i memory drive =
            some
              (storeBytes memory (location + BitVec.ofNat 32 (i * 512))
                (sectorBytes drive.disk first) (sectors * 512),
                later) := by
  induction sectors generalizing memory drive first i with
  | zero =>
      refine ⟨0, drive, rfl, ?_⟩
      intro fuel _
      rw [readSectors, Nat.zero_mul, storeBytes_zero]
  | succ sectors inductionHypothesis =>
      have reading :
          drive.transfer = .reading first (sectors + 1) 0 :=
        active.resolve_left (Nat.succ_ne_zero sectors)
      have moved :=
        @insw_sector drive.ready first (sectors + 1) reading memory
          (location + BitVec.ofNat 32 (i * 512))
      obtain ⟨unchanged, next⟩ :=
        drive.ready.afterRead_spec first sectors
      obtain ⟨enough, later, same, ends⟩ :=
        inductionHypothesis
          (storeBytes memory (location + BitVec.ofNat 32 (i * 512))
            (drive.ready.disk first) 512)
          (drive.ready.afterRead first (sectors + 1)) (first + 1)
          (by omega) next (i + 1)
      rw [unchanged] at same ends
      have position :
          location + BitVec.ofNat 32 ((i + 1) * 512) =
            location + BitVec.ofNat 32 (i * 512) +
              BitVec.ofNat 32 512 := by
        rw [BitVec.add_assoc, ← BitVec.ofNat_add, Nat.succ_mul]
      have stored :=
        storeBytes_append memory
          (location + BitVec.ofNat 32 (i * 512))
          (drive.disk first) (sectorBytes drive.disk (first + 1))
          (show 512 + sectors * 512 ≤ 2 ^ 32 by omega)
      have waits : drive.transfer ≠ .idle := by
        rw [reading]
        exact Transfer.noConfusion
      refine ⟨max enough (drive.delay + 1), later, same, ?_⟩
      intro fuel fueled
      have body :
          readSector fuel location i memory drive =
            some (insw drive.ready memory
              (location + BitVec.ofNat 32 (i * 512)) 256) := by
        rw [readSector, waitRequest_eq drive waits (by omega)]
        rfl
      rw [readSectors, body, moved]
      simp only [Option.bind_eq_bind, Option.bind_some]
      rw [ends fuel (by omega), position]
      refine congrArg (fun stored => some (stored, later)) ?_
      refine stored.trans ?_
      rw [show 512 + sectors * 512 = (sectors + 1) * 512 by omega]
      exact storeBytes_congr fun _ _ =>
        sectorBytes_cons drive.disk first

/-! ## Writing -/

/-- The drive with bytes of a sector replaced. -/
def Drive.withBytes
    (drive : Drive)
    (sector : BitVec 28)
    (offset : Nat)
    (bytes : Nat → Byte)
    (count : Nat) :
    Drive :=
  { drive with
    disk :=
      Function.update drive.disk sector
        fun position =>
          if offset ≤ position ∧ position < offset + count then
            bytes (position - offset)
          else
            drive.disk sector position }

/-- The drive when it has taken `offset` bytes of a sector. -/
def Drive.writeTo
    (drive : Drive)
    (sector : BitVec 28)
    (sectors offset : Nat) :
    Drive :=
  if offset < 512 then
    { drive with transfer := .writing sector sectors offset }
  else if sectors ≤ 1 then
    drive.busyAgain .idle
  else
    drive.busyAgain (.writing (sector + 1) (sectors - 1) 0)

/-- Bytes that follow each other on a sector are written together. -/
theorem Drive.withBytes_append
    (drive : Drive)
    (sector : BitVec 28)
    (offset : Nat)
    (bytes : Nat → Byte)
    (first second : Nat) :
    (drive.withBytes sector offset bytes first).withBytes sector
        (offset + first) (fun i => bytes (first + i)) second =
      drive.withBytes sector offset bytes (first + second) := by
  unfold Drive.withBytes
  congr 1
  rw [Function.update_idem]
  congr 1
  funext position
  dsimp only
  rw [Function.update_self]
  by_cases inFirst : offset ≤ position ∧ position < offset + first
  · rw [if_neg (by omega), if_pos inFirst, if_pos (by omega)]
  · rw [if_neg inFirst]
    by_cases inSecond :
        offset + first ≤ position ∧ position < offset + first + second
    · rw [if_pos inSecond, if_pos (by omega)]
      congr 1
      omega
    · rw [if_neg inSecond, if_neg (by omega)]

/-- A double word to the data port is put on the sector. -/
theorem outl_writeTo
    (drive : Drive)
    (sector : BitVec 28)
    (sectors : Nat)
    (memory : Memory)
    (buf : PtrT)
    {offset : Nat}
    (inside : offset < 512) :
    (drive.writeTo sector sectors offset).outl (readWord memory buf) =
      (drive.withBytes sector offset
        (fun i => memory (buf + BitVec.ofNat 32 i)) 4).writeTo
        sector sectors (offset + 4) := by
  have written :
      Function.update drive.disk sector
          (fun position =>
            if offset ≤ position ∧ position < offset + 4 then
              (readWord memory buf).extractLsb' (8 * (position - offset)) 8
            else
              drive.disk sector position) =
        (drive.withBytes sector offset
          (fun i => memory (buf + BitVec.ofNat 32 i)) 4).disk := by
    unfold Drive.withBytes
    congr 1
    funext position
    split
    · exact extractLsb'_readWord memory buf (by omega)
    · rfl
  rw [Drive.writeTo, if_pos inside]
  unfold Drive.outl
  dsimp only
  rw [written]
  rfl

/-- Double words to the data port are put on the sector. -/
theorem outsl_writeTo
    (drive : Drive)
    (sector : BitVec 28)
    (sectors : Nat)
    (memory : Memory)
    (buf : PtrT)
    (n : Nat)
    {offset : Nat}
    (inside : offset + 4 * n ≤ 512) :
    outsl (drive.writeTo sector sectors offset) memory buf n =
      (drive.withBytes sector offset
        (fun i => memory (buf + BitVec.ofNat 32 i)) (4 * n)).writeTo
        sector sectors (offset + 4 * n) := by
  induction n generalizing drive buf offset with
  | zero =>
      have none :
          drive.withBytes sector offset
              (fun i => memory (buf + BitVec.ofNat 32 i)) 0 =
            drive := by
        unfold Drive.withBytes
        have same :
            (fun position =>
              if offset ≤ position ∧ position < offset + 0 then
                memory (buf + BitVec.ofNat 32 (position - offset))
              else
                drive.disk sector position) =
              drive.disk sector := by
          funext position
          exact if_neg (by omega)
        rw [same, Function.update_eq_self]
      rw [outsl, Nat.mul_zero, none]
      rfl
  | succ n inductionHypothesis =>
      have shifted :
          (fun i => memory (buf + 4 + BitVec.ofNat 32 i)) =
            fun i => memory (buf + BitVec.ofNat 32 (4 + i)) := by
        funext i
        rw [BitVec.ofNat_add, ← BitVec.add_assoc]
        rfl
      have next : offset + 4 * (n + 1) = offset + 4 + 4 * n := by omega
      rw [outsl, outl_writeTo drive sector sectors memory buf (by omega),
        inductionHypothesis _ _ (by omega), shifted,
        Drive.withBytes_append drive sector offset
          (fun i => memory (buf + BitVec.ofNat 32 i)) 4 (4 * n),
        next, show 4 + 4 * n = 4 * (n + 1) by omega]

/-- The drive behind a sector that was written. -/
def Drive.afterWrite
    (drive : Drive)
    (sector : BitVec 28)
    (sectors : Nat)
    (bytes : Nat → Byte) :
    Drive :=
  (drive.withBytes sector 0 bytes 512).writeTo sector sectors 512

/-- The double words of a sector are put on it. -/
theorem outsl_sector
    {drive : Drive}
    {sector : BitVec 28}
    {sectors : Nat}
    (writing : drive.transfer = .writing sector sectors 0)
    (memory : Memory)
    (buf : PtrT) :
    outsl drive memory buf 128 =
      drive.afterWrite sector sectors
        fun i => memory (buf + BitVec.ofNat 32 i) := by
  have started : drive.writeTo sector sectors 0 = drive := by
    rw [Drive.writeTo, if_pos (by omega), ← writing]
  have moved :=
    outsl_writeTo drive sector sectors memory buf 128
      (show 0 + 4 * 128 ≤ 512 by omega)
  rw [started] at moved
  exact moved

/-- One sector on the disk. -/
theorem storeSectors_one
    (disk : Disk)
    (sector : BitVec 28)
    (bytes : Nat → Byte) :
    (fun target position =>
        if target = sector ∧ position < 512 then bytes position
        else disk target position) =
      storeSectors disk sector bytes 1 := by
  funext target position
  unfold storeSectors
  by_cases here : target = sector
  · subst here
    simp
  · have apart : ¬((target - sector).toNat < 1 ∧ position < 512) := by
      rintro ⟨inside, _⟩
      exact here (by bv_omega)
    rw [if_neg apart, if_neg fun both => here both.1]

/-- Sectors behind a sector continue it. -/
theorem storeSectors_cons
    (disk : Disk)
    (first : BitVec 28)
    (bytes : Nat → Byte)
    {count : Nat}
    (fits : count + 1 ≤ 2 ^ 28) :
    storeSectors (storeSectors disk first bytes 1) (first + 1)
        (fun i => bytes (512 + i)) count =
      storeSectors disk first bytes (count + 1) := by
  funext target position
  have bounded := (target - first).isLt
  have one : (1 : BitVec 28).toNat = 1 := rfl
  have distance :
      (target - (first + 1)).toNat =
        if 1 ≤ (target - first).toNat then (target - first).toNat - 1
        else 2 ^ 28 - 1 := by
    rw [← BitVec.sub_sub, BitVec.toNat_sub, one]
    split <;> omega
  unfold storeSectors
  rw [distance]
  by_cases behind : 1 ≤ (target - first).toNat
  · simp only [if_pos behind]
    rw [if_neg (show ¬((target - first).toNat < 1 ∧ position < 512) by
        omega)]
    by_cases inside :
        (target - first).toNat < count + 1 ∧ position < 512
    · rw [if_pos (by omega), if_pos inside]
      congr 1
      omega
    · rw [if_neg (by omega), if_neg inside]
  · simp only [if_neg behind]
    by_cases small : position < 512
    · have inFirst :
          (target - first).toNat < 1 ∧ position < 512 := by
        omega
      rw [if_neg (by omega), if_pos inFirst, if_pos (by omega)]
    · rw [if_neg (by omega), if_neg (by omega), if_neg (by omega)]

/-- After a sector, the drive goes on with the next one, if there is one. -/
theorem Drive.afterWrite_spec
    (drive : Drive)
    (sector : BitVec 28)
    (sectors : Nat)
    (bytes : Nat → Byte) :
    (drive.afterWrite sector (sectors + 1) bytes).disk =
        storeSectors drive.disk sector bytes 1 ∧
      (sectors = 0 ∨
        (drive.afterWrite sector (sectors + 1) bytes).transfer =
          .writing (sector + 1) sectors 0) := by
  have stored :
      (drive.withBytes sector 0 bytes 512).disk =
        storeSectors drive.disk sector bytes 1 := by
    rw [← storeSectors_one]
    unfold Drive.withBytes
    funext target position
    by_cases here : target = sector
    · subst here
      dsimp only
      rw [Function.update_self]
      simp
    · dsimp only
      rw [Function.update_of_ne here, if_neg fun both => here both.1]
  unfold Drive.afterWrite Drive.writeTo
  rw [if_neg (by omega)]
  split
  · exact ⟨stored, Or.inl (by omega)⟩
  · exact ⟨stored, Or.inr rfl⟩

/-- The loop over the sectors writes the sectors one behind the other. -/
theorem writeSectors_eq
    (memory : Memory)
    (location : PtrT)
    (drive : Drive)
    (first : BitVec 28)
    {sectors : Nat}
    (few : sectors ≤ 256)
    (active :
      sectors = 0 ∨ drive.transfer = .writing first sectors 0)
    (i : Nat) :
    ∃ enough later,
      later.disk =
          storeSectors drive.disk first
            (fun offset =>
              memory (location + BitVec.ofNat 32 (i * 512 + offset)))
            sectors ∧
        ∀ fuel ≥ enough,
          writeSectors fuel memory location sectors i drive =
            some later := by
  induction sectors generalizing drive first i with
  | zero =>
      refine ⟨0, drive, ?_, fun fuel _ => rfl⟩
      funext target position
      exact (if_neg fun both => Nat.not_lt_zero _ both.1).symm
  | succ sectors inductionHypothesis =>
      have writing :
          drive.transfer = .writing first (sectors + 1) 0 :=
        active.resolve_left (Nat.succ_ne_zero sectors)
      have moved :=
        @outsl_sector drive.ready first (sectors + 1) writing memory
          (location + BitVec.ofNat 32 (i * 512))
      obtain ⟨stored, next⟩ :=
        drive.ready.afterWrite_spec first sectors
          fun offset =>
            memory (location + BitVec.ofNat 32 (i * 512) +
              BitVec.ofNat 32 offset)
      obtain ⟨enough, later, same, ends⟩ :=
        inductionHypothesis _ (first + 1) (by omega) next (i + 1)
      have waits : drive.transfer ≠ .idle := by
        rw [writing]
        exact Transfer.noConfusion
      have body (fuel : Nat) (fueled : drive.delay < fuel) :
          writeSector fuel memory location i drive =
            some (outsl drive.ready memory
              (location + BitVec.ofNat 32 (i * 512)) 128) := by
        rw [writeSector, waitRequest_eq drive waits fueled]
        rfl
      refine ⟨max enough (drive.delay + 1), later, ?_, ?_⟩
      · have first512 :
            (fun offset =>
              memory (location + BitVec.ofNat 32 (i * 512) +
                BitVec.ofNat 32 offset)) =
              fun offset =>
                memory (location +
                  BitVec.ofNat 32 (i * 512 + offset)) := by
          funext offset
          rw [BitVec.ofNat_add, BitVec.add_assoc]
        have rest :
            (fun offset =>
              memory (location +
                BitVec.ofNat 32 ((i + 1) * 512 + offset))) =
              fun offset =>
                memory (location +
                  BitVec.ofNat 32 (i * 512 + (512 + offset))) := by
          funext offset
          rw [Nat.succ_mul, Nat.add_assoc]
        rw [same, stored, first512, rest]
        exact storeSectors_cons drive.disk first
          (fun offset =>
            memory (location + BitVec.ofNat 32 (i * 512 + offset)))
          (by omega)
      · intro fuel fueled
        rw [writeSectors, body fuel (by omega), moved]
        simp only [Option.bind_eq_bind, Option.bind_some]
        exact ends fuel (by omega)

end HobbyOS
