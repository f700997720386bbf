import HobbyOS.Library.ByteMemory

namespace HobbyOS.Library

/-!
# Transfers of byte blocks

A transfer stores a numbered sequence of bytes from an address on.  Transfers
one behind the other are one transfer, so a loop that stores piece by piece is
described by the sequence it stores altogether.  Addresses wrap, and a
transfer is shorter than the address space.
-/

/-- Store the first `count` bytes of a sequence from an address on. -/
def storeBytes
    (memory : Memory)
    (address : BitVec 32)
    (bytes : Nat → BitVec 8)
    (count : Nat) :
    Memory :=
  fun other =>
    if (other - address).toNat < count then
      bytes (other - address).toNat
    else
      memory other

/-- Two sequences, the second behind `count` bytes of the first. -/
def appendBytes
    (first : Nat → BitVec 8)
    (count : Nat)
    (second : Nat → BitVec 8) :
    Nat → BitVec 8 :=
  fun offset =>
    if offset < count then first offset else second (offset - count)

/-- Load the little-endian half word at an address. -/
def readHalf
    {width : Nat}
    (memory : BitVec width → BitVec 8)
    (address : BitVec width) :
    BitVec 16 :=
  memory (address + 1) ++ memory address

/-- Store a little-endian half word. -/
def writeHalf
    (memory : Memory)
    (address : BitVec 32)
    (value : BitVec 16) :
    Memory :=
  writeByte
    (writeByte memory address (value.extractLsb' 0 8))
    (address + 1) (value.extractLsb' 8 8)

variable
  {memory : Memory}
  {address : BitVec 32}
  {bytes other : Nat → BitVec 8}
  {count : Nat}

/-- No bytes are stored. -/
@[simp] theorem storeBytes_zero
    (memory : Memory)
    (address : BitVec 32)
    (bytes : Nat → BitVec 8) :
    storeBytes memory address bytes 0 = memory := by
  funext target
  simp [storeBytes]

/-- The distance of an address from the start of a transfer. -/
theorem toNat_distance
    (address : BitVec 32)
    {offset : Nat}
    (small : offset < 2 ^ 32) :
    (address + BitVec.ofNat 32 offset - address).toNat = offset := by
  rw [BitVec.add_comm, BitVec.add_sub_cancel, BitVec.toNat_ofNat,
    Nat.mod_eq_of_lt small]

/-- The stored bytes are read back. -/
theorem storeBytes_inside
    {offset : Nat}
    (inside : offset < count)
    (small : offset < 2 ^ 32) :
    storeBytes memory address bytes count
        (address + BitVec.ofNat 32 offset) =
      bytes offset := by
  rw [storeBytes, toNat_distance address small, if_pos inside]

/-- Bytes behind the transfer are left alone. -/
theorem storeBytes_outside
    {target : BitVec 32}
    (outside : count ≤ (target - address).toNat) :
    storeBytes memory address bytes count target = memory target :=
  if_neg (Nat.not_lt_of_le outside)

/-- Only the bytes that are stored matter. -/
theorem storeBytes_congr
    (same : ∀ offset < count, bytes offset = other offset) :
    storeBytes memory address bytes count =
      storeBytes memory address other count := by
  funext target
  unfold storeBytes
  split
  · rename_i inside
    exact same _ inside
  · rfl

/-- A byte store is a transfer of one byte. -/
theorem writeByte_eq_storeBytes
    (memory : Memory)
    (address : BitVec 32)
    (value : BitVec 8) :
    writeByte memory address value =
      storeBytes memory address (fun _ => value) 1 := by
  funext target
  unfold writeByte storeBytes
  by_cases here : target = address
  · subst here
    simp
  · rw [Function.update_of_ne here, if_neg]
    intro inside
    apply here
    bv_omega

/-- A transfer behind another one continues it. -/
theorem storeBytes_append
    (memory : Memory)
    (address : BitVec 32)
    (bytes other : Nat → BitVec 8)
    {first second : Nat}
    (fits : first + second ≤ 2 ^ 32) :
    storeBytes
        (storeBytes memory address bytes first)
        (address + BitVec.ofNat 32 first) other second =
      storeBytes memory address (appendBytes bytes first other)
        (first + second) := by
  funext target
  by_cases none : second = 0
  · subst none
    rw [storeBytes_zero, Nat.add_zero]
    refine congrFun (storeBytes_congr ?_) target
    intro offset inside
    rw [appendBytes, if_pos inside]
  have bounded : (target - address).toNat < 2 ^ 32 :=
    (target - address).isLt
  have distance :
      (target - (address + BitVec.ofNat 32 first)).toNat =
        if first ≤ (target - address).toNat then
          (target - address).toNat - first
        else
          2 ^ 32 - first + (target - address).toNat := by
    have small : first < 2 ^ 32 := by omega
    have shifted :
        target - (address + BitVec.ofNat 32 first) =
          target - address - BitVec.ofNat 32 first := by
      rw [BitVec.sub_sub]
    rw [shifted, BitVec.toNat_sub, BitVec.toNat_ofNat,
      Nat.mod_eq_of_lt small]
    split <;> omega
  unfold storeBytes appendBytes
  rw [distance]
  by_cases before : (target - address).toNat < first
  · rw [if_neg (show ¬first ≤ (target - address).toNat by omega),
      if_neg (by omega), if_pos before, if_pos (by omega), if_pos before]
  · rw [if_pos (show first ≤ (target - address).toNat by omega),
      if_neg before, if_neg before]
    by_cases inside : (target - address).toNat - first < second
    · rw [if_pos inside, if_pos (by omega)]
    · rw [if_neg inside, if_neg (by omega)]

/-- A half word is stored as its two bytes. -/
theorem writeHalf_append
    (memory : Memory)
    (address : BitVec 32)
    (low high : BitVec 8) :
    writeHalf memory address (high ++ low) =
      storeBytes memory address
        (appendBytes (fun _ => low) 1 (fun _ => high)) 2 := by
  have bit (index : Nat) :
      (high ++ low).getLsbD index =
        if index < 8 then low.getLsbD index
        else high.getLsbD (index - 8) :=
    BitVec.getLsbD_append
  have lowByte : (high ++ low).extractLsb' 0 8 = low := by
    ext index bound
    rw [BitVec.getElem_extractLsb', Nat.zero_add, bit, if_pos bound,
      BitVec.getLsbD_eq_getElem]
  have highByte : (high ++ low).extractLsb' 8 8 = high := by
    ext index bound
    rw [BitVec.getElem_extractLsb', bit, if_neg (by omega),
      Nat.add_sub_cancel_left, BitVec.getLsbD_eq_getElem]
  rw [writeHalf, lowByte, highByte, writeByte_eq_storeBytes,
    writeByte_eq_storeBytes]
  exact storeBytes_append memory address _ _ (show 1 + 1 ≤ 2 ^ 32 by omega)

/-- The two bytes of a half word reassemble it. -/
theorem extractLsb'_append_halves (value : BitVec 16) :
    value.extractLsb' 8 8 ++ value.extractLsb' 0 8 = value := by
  ext index bound
  rw [← BitVec.getLsbD_eq_getElem, BitVec.getLsbD_append]
  split
  · rename_i low
    rw [BitVec.getLsbD_extractLsb', Nat.zero_add,
      BitVec.getLsbD_eq_getElem (by omega)]
    simp only [low, decide_true, Bool.true_and]
  · rename_i high
    rw [BitVec.getLsbD_extractLsb', show 8 + (index - 8) = index by omega,
      BitVec.getLsbD_eq_getElem (by omega)]
    simp only [show index - 8 < 8 by omega, decide_true, Bool.true_and]

/-- A stored half word is read back. -/
theorem readHalf_writeHalf_self
    (memory : Memory)
    (address : BitVec 32)
    (value : BitVec 16) :
    readHalf (writeHalf memory address value) address = value := by
  have apart : address ≠ address + 1 := by
    bv_omega
  rw [readHalf, writeHalf, writeByte_self, writeByte,
    Function.update_of_ne apart, writeByte_self]
  exact extractLsb'_append_halves value

/-- A half word is stored over itself. -/
@[simp] theorem writeHalf_readHalf_self
    (memory : Memory)
    (address : BitVec 32) :
    writeHalf memory address (readHalf memory address) = memory := by
  rw [readHalf, writeHalf_append]
  funext target
  rw [storeBytes]
  split
  · rename_i inside
    rw [appendBytes]
    split
    · exact congrArg memory (by bv_omega)
    · exact congrArg memory (by bv_omega)
  · rfl

/-- Of two stores to the same half word, the second one counts. -/
@[simp] theorem writeHalf_writeHalf_self
    (memory : Memory)
    (address : BitVec 32)
    (first second : BitVec 16) :
    writeHalf (writeHalf memory address first) address second =
      writeHalf memory address second := by
  funext target
  unfold writeHalf writeByte
  by_cases high : target = address + 1
  · rw [high, Function.update_self, Function.update_self]
  · rw [Function.update_of_ne high, Function.update_of_ne high]
    by_cases low : target = address
    · rw [low, Function.update_self, Function.update_self]
    · rw [Function.update_of_ne low, Function.update_of_ne low,
        Function.update_of_ne high, Function.update_of_ne low]

/-- A half word store changes its own two bytes only. -/
theorem writeHalf_agreeOutside
    (memory : Memory)
    {address : BitVec 32}
    (value : BitVec 16)
    (room : address.toNat + 2 ≤ 2 ^ 32) :
    AgreeOutside address.toNat (address.toNat + 2)
      memory (writeHalf memory address value) := by
  have next : (address + 1).toNat = address.toNat + 1 :=
    toNat_add_ofNat 1 (by omega)
  refine AgreeOutside.trans
    ((writeByte_agreeOutside memory address _).mono ?_ ?_)
    ((writeByte_agreeOutside _ (address + 1) _).mono ?_ ?_)
  all_goals omega

/-- A half word apart from a store is left alone. -/
theorem readHalf_of_agreeOutside
    {low high : Nat}
    {first second : Memory}
    {address : BitVec 32}
    (agree : AgreeOutside low high first second)
    (room : address.toNat + 2 ≤ 2 ^ 32)
    (apart : address.toNat + 2 ≤ low ∨ high ≤ address.toNat) :
    readHalf second address = readHalf first address := by
  have next : (address + 1).toNat = address.toNat + 1 :=
    toNat_add_ofNat 1 (by omega)
  rw [readHalf, readHalf, agree address (by omega),
    agree (address + 1) (by omega)]

end HobbyOS.Library
