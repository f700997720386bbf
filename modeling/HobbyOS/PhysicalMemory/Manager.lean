import HobbyOS.PhysicalMemory.Bitmap

namespace HobbyOS

open Library

/-!
# The physical memory manager

The operations of `physical_memory_manager.c` over an explicit state.  Block
numbers and the block count are 64-bit in the source and never overflow
there, so they are natural numbers here; the counter of used blocks and the
32-bit values of the search do wrap and keep their width.

`pmm_memory_blocks[i]` is an object of the 32-bit address space, which the
state records: its scanned bytes are fewer than `2 ^ 32`.
-/

/-- The static variables of `physical_memory_manager.c`. -/
structure Pmm where
  memoryBlocks : Bitmap
  maxMemoryBlocks : Nat
  usedMemoryBlocks : BitVec 64
  fits : maxMemoryBlocks / 8 < 2 ^ 32

/-- A block is reserved when its bit is set. -/
def Pmm.Reserved (pmm : Pmm) (block : Nat) : Prop :=
  pmmTestBlock pmm.memoryBlocks block = true

instance (pmm : Pmm) (block : Nat) : Decidable (pmm.Reserved block) :=
  inferInstanceAs (Decidable (_ = true))

/-- `initialize_physical_memory_manager`, over the memory it is called in. -/
def initializePhysicalMemoryManager
    (memory : Memory)
    (startAddress size : BitVec 64)
    (fits : size.toNat / 4096 / 8 < 2 ^ 32) :
    Pmm where
  memoryBlocks := fun index =>
    memset memory (startAddress.setWidth 32) 0xFF
      (BitVec.ofNat 32 (size.toNat / 4096 / 8))
      (startAddress.setWidth 32 + BitVec.ofNat 32 index)
  maxMemoryBlocks := size.toNat / 4096
  usedMemoryBlocks := BitVec.ofNat 64 (size.toNat / 4096)
  fits := fits

/-- The block of the first loop iteration over a region. -/
def regionFirst (startAddress : BitVec 64) : Nat :=
  startAddress.toNat / 4096

/-- The value `end` that the region loops compare with, rounded up. -/
def regionEnd (startAddress size : BitVec 64) : Nat :=
  if (startAddress + size).toNat % 4096 ≠ 0 then
    (startAddress + size).toNat / 4096 + 1
  else
    (startAddress + size).toNat / 4096

/-- Iterations of the region loops, whose bound `end` is inclusive. -/
def regionCount (startAddress size : BitVec 64) : Nat :=
  regionEnd startAddress size + 1 - regionFirst startAddress

/-- `pmm_intialize_memory_region`. -/
def pmmIntializeMemoryRegion
    (pmm : Pmm)
    (startAddress size : BitVec 64) :
    Pmm :=
  let count := regionCount startAddress size
  { pmm with
    memoryBlocks :=
      pmmSetBlock
        (unsetBlocks pmm.memoryBlocks (regionFirst startAddress) count) 0
    usedMemoryBlocks := pmm.usedMemoryBlocks - BitVec.ofNat 64 count }

/-- `pmm_deintialize_memory_region`. -/
def pmmDeintializeMemoryRegion
    (pmm : Pmm)
    (startAddress size : BitVec 64) :
    Pmm :=
  let count := regionCount startAddress size
  { pmm with
    memoryBlocks :=
      setBlocks pmm.memoryBlocks (regionFirst startAddress) count
    usedMemoryBlocks := pmm.usedMemoryBlocks + BitVec.ofNat 64 count }

/--
The loop over the bits of byte `i` in `pmm_find_first_free_run`, from bit `j`
on.  It stops at the block that completes a run, or hands the run counter on.
-/
def findRunInByte
    (size : SizeT)
    (i : Nat)
    (byte : Byte) :
    Nat → Nat → SizeT → Except Nat SizeT
  | 0, _, run => .ok run
  | bits + 1, j, run =>
      let run := if byte &&& (0x80#8 >>> j) ≠ 0 then size else run - 1
      if run = 0 then
        .error (i * 8 + j)
      else
        findRunInByte size i byte bits (j + 1) run

/--
The loop over the bytes in `pmm_find_first_free_run`, from byte `i` on.  The
result is the last block of the run that was found.
-/
def findRunFrom
    (memoryBlocks : Bitmap)
    (size : SizeT) :
    Nat → Nat → SizeT → Option Nat
  | 0, _, _ => none
  | bytes + 1, i, run =>
      if (8 ≤ run.toNat ∧ memoryBlocks i ≠ 0) ∨ memoryBlocks i = 0xFF then
        findRunFrom memoryBlocks size bytes (i + 1) size
      else
        match findRunInByte size i (memoryBlocks i) 8 0 run with
        | .error last => some last
        | .ok run => findRunFrom memoryBlocks size bytes (i + 1) run

/-- The block that completes the run the search stops at. -/
def Pmm.lastOfRun (pmm : Pmm) (size : SizeT) : Option Nat :=
  findRunFrom pmm.memoryBlocks size (pmm.maxMemoryBlocks / 8) 0 size

/-- `pmm_find_first_free_run`. -/
def pmmFindFirstFreeRun (pmm : Pmm) (size : SizeT) : AddrT :=
  match pmm.lastOfRun size with
  | some last => BitVec.ofNat 32 last - (size - 1)
  | none => 0

/-- `pmm_allocate_blocks`. -/
def pmmAllocateBlocks (pmm : Pmm) (size : SizeT) : PtrT × Pmm :=
  if BitVec.ofNat 64 pmm.maxMemoryBlocks - pmm.usedMemoryBlocks <
      size.setWidth 64 then
    (0, pmm)
  else
    let start := pmmFindFirstFreeRun pmm size
    if start = 0 then
      (0, pmm)
    else
      (start * 4096,
        { pmm with
          memoryBlocks :=
            setBlocks pmm.memoryBlocks start.toNat size.toNat
          usedMemoryBlocks :=
            pmm.usedMemoryBlocks + size.setWidth 64 })

/-- `pmm_free_blocks`. -/
def pmmFreeBlocks
    (pmm : Pmm)
    (address : PtrT)
    (size : SizeT) :
    Pmm :=
  { pmm with
    memoryBlocks :=
      unsetBlocks pmm.memoryBlocks (address.toNat / 4096) size.toNat
    usedMemoryBlocks := pmm.usedMemoryBlocks - size.setWidth 64 }

end HobbyOS
