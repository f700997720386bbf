import HobbyOS.Stddef

namespace HobbyOS

open Library

/-!
# Headers of heap blocks

`MallocBlock_t` is a header of twelve bytes in front of each block: the size
at offset 0, the byte `free` at offset 4 and the pointer `next` at offset 8.
Writing one field leaves the other fields of the header and all memory
outside of it alone.
-/

/-- `sizeof(MallocBlock_t)`. -/
def headerSize : SizeT := 12

/-- `block->size`. -/
def blockSize (memory : Memory) (block : PtrT) : SizeT :=
  readWord memory block

/-- `block->free`. -/
def blockFree (memory : Memory) (block : PtrT) : Bool :=
  memory (block + 4) != 0

/-- `block->next`. -/
def blockNext (memory : Memory) (block : PtrT) : PtrT :=
  readWord memory (block + 8)

/-- Assignment to `block->size`. -/
def setBlockSize
    (memory : Memory)
    (block : PtrT)
    (size : SizeT) :
    Memory :=
  writeWord memory block size

/-- Assignment to `block->free`. -/
def setBlockFree
    (memory : Memory)
    (block : PtrT)
    (free : Bool) :
    Memory :=
  writeByte memory (block + 4) (if free then 1 else 0)

/-- Assignment to `block->next`. -/
def setBlockNext
    (memory : Memory)
    (block next : PtrT) :
    Memory :=
  writeWord memory (block + 8) next

/-- A header at an address, with room for it in the address space. -/
structure Header
    (memory : Memory)
    (block : PtrT)
    (size : SizeT)
    (free : Bool)
    (next : PtrT) :
    Prop where
  room : block.toNat + 12 ≤ 2 ^ 32
  size : blockSize memory block = size
  free : blockFree memory block = free
  next : blockNext memory block = next

/-- Address of the `free` byte. -/
theorem toNat_freeAddress
    {block : PtrT}
    (room : block.toNat + 12 ≤ 2 ^ 32) :
    (block + 4).toNat = block.toNat + 4 :=
  toNat_add_ofNat 4 (by omega)

/-- Address of the `next` word. -/
theorem toNat_nextAddress
    {block : PtrT}
    (room : block.toNat + 12 ≤ 2 ^ 32) :
    (block + 8).toNat = block.toNat + 8 :=
  toNat_add_ofNat 8 (by omega)

/-- Writing the size stays inside the header. -/
theorem setBlockSize_agreeOutside
    (memory : Memory)
    {block : PtrT}
    (size : SizeT)
    (room : block.toNat + 12 ≤ 2 ^ 32) :
    AgreeOutside block.toNat (block.toNat + 12)
      memory (setBlockSize memory block size) :=
  (writeWord_agreeOutside memory size (by omega)).mono
    (Nat.le_refl _) (by omega)

/-- Writing `free` stays inside the header. -/
theorem setBlockFree_agreeOutside
    (memory : Memory)
    {block : PtrT}
    (free : Bool)
    (room : block.toNat + 12 ≤ 2 ^ 32) :
    AgreeOutside block.toNat (block.toNat + 12)
      memory (setBlockFree memory block free) := by
  have position := toNat_freeAddress room
  exact (writeByte_agreeOutside memory (block + 4) _).mono
    (by omega) (by omega)

/-- Writing `next` stays inside the header. -/
theorem setBlockNext_agreeOutside
    (memory : Memory)
    {block : PtrT}
    (next : PtrT)
    (room : block.toNat + 12 ≤ 2 ^ 32) :
    AgreeOutside block.toNat (block.toNat + 12)
      memory (setBlockNext memory block next) := by
  have position := toNat_nextAddress room
  exact (writeWord_agreeOutside memory next (by omega)).mono
    (by omega) (by omega)

namespace Header

variable
  {memory later : Memory}
  {block next : PtrT}
  {size : SizeT}
  {free : Bool}

/-- A header is determined by its twelve bytes. -/
theorem congr
    (header : Header memory block size free next)
    (agree :
      AgreeOn block.toNat (block.toNat + 12) memory later) :
    Header later block size free next := by
  have room := header.room
  have freePosition := toNat_freeAddress room
  have nextPosition := toNat_nextAddress room
  refine ⟨room, ?_, ?_, ?_⟩
  · rw [← header.size]
    exact readWord_congr (by omega)
      (agree.mono (Nat.le_refl _) (by omega))
  · rw [← header.free, blockFree, blockFree,
      agree (block + 4) (by omega) (by omega)]
  · rw [← header.next]
    exact readWord_congr (by omega)
      (agree.mono (by omega) (by omega))

/-- Writing the size. -/
theorem setSize
    (header : Header memory block size free next)
    (newSize : SizeT) :
    Header (setBlockSize memory block newSize) block newSize free next := by
  have room := header.room
  have freePosition := toNat_freeAddress room
  have nextPosition := toNat_nextAddress room
  have outside :=
    writeWord_agreeOutside memory newSize
      (show block.toNat + 4 ≤ 2 ^ 32 by omega)
  refine ⟨room, readWord_writeWord_self memory block newSize, ?_, ?_⟩
  · rw [← header.free, blockFree, blockFree, setBlockSize,
      outside (block + 4) (by omega)]
  · rw [← header.next]
    exact readWord_of_agreeOutside outside (by omega) (by omega)

/-- Writing `free`. -/
theorem setFree
    (header : Header memory block size free next)
    (newFree : Bool) :
    Header (setBlockFree memory block newFree) block size newFree next := by
  have room := header.room
  have freePosition := toNat_freeAddress room
  have nextPosition := toNat_nextAddress room
  have outside :=
    writeByte_agreeOutside memory (block + 4)
      (if newFree then 1 else 0)
  refine ⟨room, ?_, ?_, ?_⟩
  · rw [← header.size]
    exact readWord_of_agreeOutside outside (by omega) (by omega)
  · rw [blockFree, setBlockFree, writeByte_self]
    cases newFree <;> rfl
  · rw [← header.next]
    exact readWord_of_agreeOutside outside (by omega) (by omega)

/-- Writing `next`. -/
theorem setNext
    (header : Header memory block size free next)
    (newNext : PtrT) :
    Header (setBlockNext memory block newNext) block size free newNext := by
  have room := header.room
  have freePosition := toNat_freeAddress room
  have nextPosition := toNat_nextAddress room
  have outside :
      AgreeOutside (block + 8).toNat ((block + 8).toNat + 4)
        memory (writeWord memory (block + 8) newNext) :=
    writeWord_agreeOutside memory newNext (by omega)
  refine ⟨room, ?_, ?_, readWord_writeWord_self memory _ newNext⟩
  · rw [← header.size]
    exact readWord_of_agreeOutside outside (by omega) (by omega)
  · rw [← header.free, blockFree, blockFree, setBlockNext,
      outside (block + 4) (by omega)]

/-- Writing the three fields makes a header, whatever was there before. -/
theorem written
    (memory : Memory)
    (size : SizeT)
    (free : Bool)
    (next : PtrT)
    (room : block.toNat + 12 ≤ 2 ^ 32) :
    let later :=
      setBlockNext
        (setBlockFree (setBlockSize memory block size) block free)
        block next
    Header later block size free next ∧
      AgreeOutside block.toNat (block.toNat + 12) memory later := by
  have before :
      Header memory block (blockSize memory block)
        (blockFree memory block) (blockNext memory block) :=
    ⟨room, rfl, rfl, rfl⟩
  exact ⟨((before.setSize size).setFree free).setNext next,
    ((setBlockSize_agreeOutside memory size room).trans
      (setBlockFree_agreeOutside _ free room)).trans
      (setBlockNext_agreeOutside _ next room)⟩

end Header

end HobbyOS
