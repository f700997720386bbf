import HobbyOS.Library.BlockTransfer
import HobbyOS.Stddef

namespace HobbyOS

open Library

/-!
# Collecting the memory map

`get_memory_map` of `load_kernel.asm`, up to its label `.done`.  It runs in
real mode with `ds` and `es` 0.  The answers of the BIOS to the calls of
`int 0x15` are given as a list, and every store is recorded with its address
and size.
-/

/-- The first 64 KiB of the memory. -/
abbrev LowMemory := BitVec 16 → Byte

/-- `'PAMS'`, as the assembler lays it out. -/
def pams : BitVec 32 := 0x534D4150

/-- The registers after a call, and the record that is stored without carry. -/
structure Answer where
  carry : Bool
  eax : BitVec 32
  ebx : BitVec 32
  ecx : BitVec 32
  record : Nat → Byte

/-- The memory, and the address and size of each store so far. -/
structure Stores where
  memory : LowMemory
  ranges : List (BitVec 16 × Nat)

/-- Store some bytes. -/
def Stores.store
    (stores : Stores)
    (address : BitVec 16)
    (bytes : Nat → Byte)
    (count : Nat) :
    Stores where
  memory := fun other =>
    if (other - address).toNat < count then
      bytes (other - address).toNat
    else
      stores.memory other
  ranges := stores.ranges ++ [(address, count)]

/-- Load a double word. -/
def readDouble (memory : LowMemory) (address : BitVec 16) : BitVec 32 :=
  memory (address + 3) ++ memory (address + 2) ++
    memory (address + 1) ++ memory address

/-- `int 0x15` with the function 0xE820 and `es:di` as the buffer. -/
def int15 (stores : Stores) (di : BitVec 16) (answer : Answer) : Stores :=
  if answer.carry then
    stores
  else
    stores.store di answer.record answer.ecx.toNat

namespace GetMemoryMap

/-- From `.start` to `.skip_entry`, with `di` and `bp`. -/
def start
    (memory : LowMemory)
    (answer : Answer)
    (di bp : BitVec 16) :
    BitVec 16 × BitVec 16 :=
  if answer.ecx.setWidth 16 = (0 : BitVec 16) then
    (di, bp)
  else if readDouble memory (di + 8) ||| readDouble memory (di + 12) = 0 then
    (di, bp)
  else
    (di + 24, bp + 1)

/-- `.done`. -/
def done (smapEntries : BitVec 16) (stores : Stores) (bp : BitVec 16) :
    Stores :=
  stores.store smapEntries
    (fun offset => bp.extractLsb' (8 * offset) 8) 2

/--
The loop from `.next_entry` on.  Without a further answer the loop has not
ended.
-/
def nextEntry (smapEntries : BitVec 16) :
    List Answer → Stores → BitVec 16 → BitVec 16 → Option Stores
  | [], _, _, _ => none
  | answer :: rest, stores, di, bp =>
      let stores := int15 stores di answer
      let (di, bp) := start stores.memory answer di bp
      if answer.ebx = 0 then
        some (done smapEntries stores bp)
      else
        nextEntry smapEntries rest stores di bp

/-- The memory before the first call, where the attributes are set to 1. -/
def beforeFirst (smapEntries : BitVec 16) (memory : LowMemory) : Stores :=
  (Stores.mk memory []).store (smapEntries + 2 + 20)
    (fun offset => if offset = 0 then 1 else 0) 4

end GetMemoryMap

open GetMemoryMap in
/-- `get_memory_map`. -/
def getMemoryMap (smapEntries : BitVec 16) (memory : LowMemory) :
    List Answer → Option Stores
  | [] => none
  | answer :: rest =>
      let di := smapEntries + 2
      let bp := 0
      let stores := int15 (beforeFirst smapEntries memory) di answer
      if answer.carry then
        some (done smapEntries stores bp)
      else if answer.eax ≠ pams then
        some (done smapEntries stores bp)
      else if answer.ebx = 0 then
        some (done smapEntries stores bp)
      else
        let (di, bp) := start stores.memory answer di bp
        if answer.ebx = 0 then
          some (done smapEntries stores bp)
        else
          nextEntry smapEntries rest stores di bp

end HobbyOS
