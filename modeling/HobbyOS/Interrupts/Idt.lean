import HobbyOS.Library.BlockTransfer
import HobbyOS.Stddef

namespace HobbyOS

open Library

/-!
# The interrupt table

`idt_install_handler`, `idt_set_vector` and `idt_get_vector` of `idt.c`.  The
table `_IDT` is an object of the memory, so an entry is reached by its address
whether or not its index is in the table, and every store is recorded with its
address and size.
-/

/-- `MAX_INTERRUPTS`. -/
def maxInterrupts : BitVec 32 := 256

/-- The memory, and the address and size of each store so far. -/
structure StoreLog where
  memory : Memory
  stores : List (PtrT × Nat)

namespace StoreLog

/-- Store a byte. -/
def storeByte (log : StoreLog) (address : PtrT) (value : Byte) : StoreLog where
  memory := writeByte log.memory address value
  stores := log.stores ++ [(address, 1)]

/-- Store a half word. -/
def storeHalf
    (log : StoreLog)
    (address : PtrT)
    (value : BitVec 16) :
    StoreLog where
  memory := writeHalf log.memory address value
  stores := log.stores ++ [(address, 2)]

end StoreLog

/-- `&_IDT[index]`, an `IDTEntry_t` of eight bytes. -/
def idtEntry (idt : PtrT) (index : BitVec 32) : PtrT :=
  idt + 8 * index

/-- The address of `BaseLow`. -/
def baseLow (entry : PtrT) : PtrT := entry

/-- The address of `Selector`. -/
def selectorField (entry : PtrT) : PtrT := entry + 2

/-- The address of `_reserved`. -/
def reservedField (entry : PtrT) : PtrT := entry + 4

/-- The address of `Flags`. -/
def flagsField (entry : PtrT) : PtrT := entry + 5

/-- The address of `BaseHigh`. -/
def baseHigh (entry : PtrT) : PtrT := entry + 6

/-- The assignments to the fields of an entry, in the order of the source. -/
def writeEntry
    (log : StoreLog)
    (entry : PtrT)
    (flags selector : BitVec 16)
    (handler : PtrT) :
    StoreLog :=
  let base : BitVec 64 := handler.setWidth 64
  let log :=
    log.storeHalf (baseHigh entry) ((base >>> 16 &&& 0xFFFF).setWidth 16)
  let log := log.storeByte (flagsField entry) (flags.setWidth 8)
  let log := log.storeByte (reservedField entry) 0
  let log := log.storeHalf (selectorField entry) selector
  log.storeHalf (baseLow entry) ((base >>> 0 &&& 0xFFFF).setWidth 16)

/-- `idt_install_handler`. -/
def idtInstallHandler
    (idt : PtrT)
    (log : StoreLog)
    (index : BitVec 32)
    (flags selector : BitVec 16)
    (handler : PtrT) :
    Bool × StoreLog :=
  if index > maxInterrupts then
    (false, log)
  else if handler = 0 then
    (false, log)
  else
    (true, writeEntry log (idtEntry idt index) flags selector handler)

/-- `IDT_DESC_PRESENT|IDT_DESC_BIT32`. -/
def vectorFlags : BitVec 16 := 0b10000000 ||| 0b00001110

/-- `idt_set_vector`. -/
def idtSetVector
    (idt : PtrT)
    (log : StoreLog)
    (index : BitVec 32)
    (vect : PtrT) :
    StoreLog :=
  (idtInstallHandler idt log index vectorFlags 0x8 vect).2

/-- `desc->BaseLow | (desc->BaseHigh << 16)`. -/
def handlerOf (memory : Memory) (desc : PtrT) : PtrT :=
  (readHalf memory (baseLow desc)).setWidth 32 |||
    (readHalf memory (baseHigh desc)).setWidth 32 <<< 16

/-- `idt_get_vector`. -/
def idtGetVector (idt : PtrT) (memory : Memory) (index : BitVec 32) : PtrT :=
  let desc := idtEntry idt index
  if desc = 0 then
    0
  else
    handlerOf memory desc

/-! ## One installation -/

/-- A table that is an object of the address space. -/
structure IdtPlaced (idt : PtrT) : Prop where
  notNull : idt ≠ 0
  fits : idt.toNat + 8 * 256 ≤ 2 ^ 32

/-- The entries of the table lie one behind the other. -/
theorem IdtPlaced.toNat_idtEntry
    {idt : PtrT}
    (placed : IdtPlaced idt)
    {index : BitVec 32}
    (inside : index.toNat < 256) :
    (idtEntry idt index).toNat = idt.toNat + 8 * index.toNat := by
  have fits := placed.fits
  have eight : (8 : BitVec 32).toNat = 8 := rfl
  rw [idtEntry, BitVec.toNat_add, BitVec.toNat_mul, eight]
  omega

/-- No entry of the table is at the null pointer. -/
theorem IdtPlaced.idtGetVector_eq
    {idt : PtrT}
    (placed : IdtPlaced idt)
    (memory : Memory)
    {index : BitVec 32}
    (inside : index.toNat < 256) :
    idtGetVector idt memory index = handlerOf memory (idtEntry idt index) := by
  have notNull : idtEntry idt index ≠ 0 := by
    intro null
    have address := placed.toNat_idtEntry inside
    rw [null] at address
    have first : idt.toNat = 0 := by
      have zero : (0 : BitVec 32).toNat = 0 := rfl
      omega
    exact placed.notNull (BitVec.eq_of_toNat_eq first)
  rw [idtGetVector, if_neg notNull]

/-- Masking the low half of a word takes the half. -/
theorem setWidth_and_mask (word : BitVec 64) :
    (word &&& 0xFFFF).setWidth 16 = (word.setWidth 16 : BitVec 16) := by
  have ones : ∀ bit : Fin 16, (0xFFFF#64).getLsbD bit.val = true := by
    decide
  ext bit inside
  rw [BitVec.getElem_setWidth, BitVec.getElem_setWidth, BitVec.getLsbD_and]
  have one := ones ⟨bit, inside⟩
  dsimp only at one
  rw [BitVec.ofNat_eq_ofNat, one, Bool.and_true]

/-- The halves of an address make up the address. -/
theorem halves_eq (handler : PtrT) :
    (((handler.setWidth 64 : BitVec 64) >>> 0 &&& 0xFFFF).setWidth 16 :
          BitVec 16).setWidth 32 |||
        (((handler.setWidth 64 : BitVec 64) >>> 16 &&& 0xFFFF).setWidth 16 :
          BitVec 16).setWidth 32 <<< 16 =
      handler := by
  rw [setWidth_and_mask, setWidth_and_mask]
  ext bit inside
  simp only [BitVec.getElem_or, BitVec.getElem_setWidth,
    BitVec.getLsbD_setWidth, BitVec.getElem_shiftLeft,
    BitVec.getLsbD_ushiftRight]
  by_cases low : bit < 16
  · have small : bit < 64 := by omega
    simp [low, small, inside]
  · have sum : 16 + (bit - 16) = bit := by omega
    have high : bit - 16 < 16 := by omega
    have small : bit < 64 := by omega
    simp [low, sum, high, small, inside]

section Installation

variable
  (log : StoreLog)
  {entry : PtrT}
  (room : entry.toNat + 8 ≤ 2 ^ 32)
  (flags selector : BitVec 16)
  (handler : PtrT)

include room

/-- The offsets of the fields in an entry. -/
theorem toNat_fields :
    (baseLow entry).toNat = entry.toNat ∧
      (selectorField entry).toNat = entry.toNat + 2 ∧
      (reservedField entry).toNat = entry.toNat + 4 ∧
      (flagsField entry).toNat = entry.toNat + 5 ∧
      (baseHigh entry).toNat = entry.toNat + 6 :=
  ⟨rfl, toNat_add_ofNat 2 (by omega), toNat_add_ofNat 4 (by omega),
    toNat_add_ofNat 5 (by omega), toNat_add_ofNat 6 (by omega)⟩

/-- What is stored behind `BaseHigh` lies in front of it. -/
theorem writeEntry_behind_baseHigh :
    AgreeOutside entry.toNat (entry.toNat + 6)
      (writeHalf log.memory (baseHigh entry)
        ((handler.setWidth 64 >>> 16 &&& 0xFFFF : BitVec 64).setWidth 16))
      (writeEntry log entry flags selector handler).memory := by
  obtain ⟨low, selectorAt, reservedAt, flagsAt, _⟩ := toNat_fields room
  dsimp only [writeEntry, StoreLog.storeHalf, StoreLog.storeByte]
  refine AgreeOutside.trans
    (AgreeOutside.trans
      (AgreeOutside.trans
        ((writeByte_agreeOutside _ _ _).mono ?_ ?_)
        ((writeByte_agreeOutside _ _ _).mono ?_ ?_))
      ((writeHalf_agreeOutside _ _ ?_).mono ?_ ?_))
    ((writeHalf_agreeOutside _ _ ?_).mono ?_ ?_)
  all_goals omega

/-- The stores of an installation change the entry only. -/
theorem writeEntry_agreeOutside :
    AgreeOutside entry.toNat (entry.toNat + 8) log.memory
      (writeEntry log entry flags selector handler).memory := by
  obtain ⟨_, _, _, _, high⟩ := toNat_fields room
  refine AgreeOutside.trans
    ((writeHalf_agreeOutside log.memory _ ?_).mono ?_ ?_)
    ((writeEntry_behind_baseHigh log room flags selector handler).mono ?_ ?_)
  all_goals omega

/-- The handler that is stored in an entry is read back. -/
theorem handlerOf_writeEntry :
    handlerOf (writeEntry log entry flags selector handler).memory entry =
      handler := by
  obtain ⟨_, _, _, _, high⟩ := toNat_fields room
  have highHalf :
      readHalf (writeEntry log entry flags selector handler).memory
          (baseHigh entry) =
        ((handler.setWidth 64 >>> 16 &&& 0xFFFF : BitVec 64).setWidth 16) :=
    (readHalf_of_agreeOutside
      (writeEntry_behind_baseHigh log room flags selector handler)
      (by omega) (by omega)).trans
      (readHalf_writeHalf_self _ _ _)
  have lowHalf :
      readHalf (writeEntry log entry flags selector handler).memory
          (baseLow entry) =
        ((handler.setWidth 64 >>> 0 &&& 0xFFFF : BitVec 64).setWidth 16) :=
    readHalf_writeHalf_self _ _ _
  rw [handlerOf, highHalf, lowHalf]
  exact halves_eq handler

end Installation

/-- A handler apart from the stores of an installation stays. -/
theorem handlerOf_of_agreeOutside
    {low high : Nat}
    {first second : Memory}
    (agree : AgreeOutside low high first second)
    {entry : PtrT}
    (room : entry.toNat + 8 ≤ 2 ^ 32)
    (apart : entry.toNat + 8 ≤ low ∨ high ≤ entry.toNat) :
    handlerOf second entry = handlerOf first entry := by
  obtain ⟨lowAt, _, _, _, highAt⟩ := toNat_fields room
  rw [handlerOf, handlerOf,
    readHalf_of_agreeOutside agree (by omega) (by omega),
    readHalf_of_agreeOutside agree (by omega) (by omega)]

end HobbyOS
