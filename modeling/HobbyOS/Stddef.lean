import HobbyOS.Library.ByteMemory

namespace HobbyOS

open Library

/-!
# Freestanding base types and memory routines

The types of `stddef.h` on the 32-bit target and the byte routines of
`stddef.c` that the memory managers and the file system call.
-/

/-- `byte`. -/
abbrev Byte := BitVec 8

/-- `addr_t`. -/
abbrev AddrT := BitVec 32

/-- `size_t`. -/
abbrev SizeT := BitVec 32

/-- `ptr_t`. -/
abbrev PtrT := BitVec 32

/-- The loop of `memset`, with the number of bytes still to be written. -/
def memsetLoop
    (memory : Memory)
    (location : PtrT)
    (value : Byte) :
    Nat → Memory
  | 0 => memory
  | length + 1 =>
      memsetLoop (writeByte memory location value)
        (location + 1) value length

/-- `memset`. -/
def memset
    (memory : Memory)
    (location : PtrT)
    (value : Byte)
    (length : SizeT) :
    Memory :=
  memsetLoop memory location value length.toNat

/-- The loop of `memcpy`, which copies the last byte first. -/
def memcpyLoop
    (memory : Memory)
    (destination source : PtrT) :
    Nat → Memory
  | 0 => memory
  | length + 1 =>
      memcpyLoop
        (writeByte memory (destination + BitVec.ofNat 32 length)
          (memory (source + BitVec.ofNat 32 length)))
        destination source length

/-- `memcpy`. -/
def memcpy
    (memory : Memory)
    (destination source : PtrT)
    (length : SizeT) :
    Memory :=
  memcpyLoop memory destination source length.toNat

/-- The loop of `memmove` from index `i` on, with the bytes still to move. -/
def memmoveLoop
    (memory : Memory)
    (destination source : PtrT) :
    Nat → Nat → Memory
  | 0, _ => memory
  | length + 1, i =>
      memmoveLoop
        (writeByte memory (destination + BitVec.ofNat 32 i)
          (memory (source + BitVec.ofNat 32 i)))
        destination source length (i + 1)

/-- `memmove`. -/
def memmove
    (memory : Memory)
    (destination source : PtrT)
    (length : SizeT) :
    Memory :=
  if destination > source then
    memcpy memory destination source length
  else
    memmoveLoop memory destination source length.toNat 0

/-- The loop of `memcmp`, with the number of bytes still to be compared. -/
def memcmpLoop
    (memory : Memory) :
    Nat → PtrT → PtrT → Byte → Byte
  | 0, _, _, diff => diff
  | length + 1, a, b, _ =>
      let diff := memory a - memory b
      if diff ≠ 0 then
        diff
      else
        memcmpLoop memory length (a + 1) (b + 1) diff

/-- `memcmp`, whose result is an `int8_t`. -/
def memcmp
    (memory : Memory)
    (a b : PtrT)
    (length : SizeT) :
    Byte :=
  memcmpLoop memory length.toNat a b 0

/-- The loop writes the bytes at offsets below its length. -/
theorem memsetLoop_apply
    (memory : Memory)
    (location : PtrT)
    (value : Byte)
    {length : Nat}
    (bounded : length ≤ 2 ^ 32)
    (address : PtrT) :
    memsetLoop memory location value length address =
      if (address - location).toNat < length then value
      else memory address := by
  induction length generalizing memory location with
  | zero =>
      simp [memsetLoop]
  | succ length inductionHypothesis =>
      rw [memsetLoop, inductionHypothesis _ _ (by omega)]
      by_cases first : address = location
      · subst address
        simp
      · have offset :
            (address - location).toNat =
              (address - (location + 1)).toNat + 1 := by
          bv_omega
        simp [writeByte, first, offset]

/-- `memset` writes the bytes at offsets below its length. -/
theorem memset_apply
    (memory : Memory)
    (location : PtrT)
    (value : Byte)
    (length : SizeT)
    (address : PtrT) :
    memset memory location value length address =
      if (address - location).toNat < length.toNat then value
      else memory address :=
  memsetLoop_apply memory location value
    (Nat.le_of_lt length.isLt) address

/-- `memset` changes the bytes of its range only. -/
theorem memset_agreeOutside
    (memory : Memory)
    (location : PtrT)
    (value : Byte)
    (length : SizeT)
    (room : location.toNat + length.toNat ≤ 2 ^ 32) :
    AgreeOutside location.toNat (location.toNat + length.toNat)
      memory (memset memory location value length) := by
  intro address outside
  have beyond :
      ¬(address - location).toNat < length.toNat := by
    bv_omega
  rw [memset_apply, if_neg beyond]

/-- The loop finds no difference exactly when there is none. -/
theorem memcmpLoop_eq_zero_iff
    (memory : Memory)
    (length : Nat)
    (a b : PtrT) :
    memcmpLoop memory length a b 0 = 0 ↔
      ∀ offset < length,
        memory (a + BitVec.ofNat 32 offset) =
          memory (b + BitVec.ofNat 32 offset) := by
  induction length generalizing a b with
  | zero =>
      simp [memcmpLoop]
  | succ length inductionHypothesis =>
      rw [memcmpLoop]
      by_cases equal : memory a - memory b = 0
      · have bytes : memory a = memory b := by
          bv_omega
        rw [if_neg (not_not.mpr equal), equal, inductionHypothesis]
        constructor
        · intro same offset inside
          cases offset with
          | zero =>
              simpa using bytes
          | succ offset =>
              rw [← add_one_add_ofNat, ← add_one_add_ofNat]
              exact same offset (by omega)
        · intro same offset inside
          have next := same (offset + 1) (by omega)
          rwa [← add_one_add_ofNat, ← add_one_add_ofNat] at next
      · rw [if_pos equal]
        constructor
        · intro zero
          exact (equal zero).elim
        · intro same
          have first := same 0 (Nat.succ_pos length)
          have bytes : memory a = memory b := by
            simpa using first
          rw [bytes] at equal
          exact (equal (BitVec.sub_self (memory b))).elim

/-- `memcmp` returns 0 exactly for equal bytes. -/
theorem memcmp_eq_zero_iff
    (memory : Memory)
    (a b : PtrT)
    (length : SizeT) :
    memcmp memory a b length = 0 ↔
      ∀ offset < length.toNat,
        memory (a + BitVec.ofNat 32 offset) =
          memory (b + BitVec.ofNat 32 offset) :=
  memcmpLoop_eq_zero_iff memory length.toNat a b

end HobbyOS
