import Mathlib.Algebra.Group.Nat.Defs
import Mathlib.Data.Nat.Basic
import Mathlib.Logic.Function.Basic

namespace HobbyOS.Library

/-!
# Little-endian byte memories

A memory maps 32-bit addresses to bytes.  Words are four bytes, least
significant byte first.  A store is described by the address range outside of
which it changes nothing, so frame facts compose by enlarging ranges, and a
load is described by the range of bytes it depends on.
-/

/-- A byte memory with 32-bit addresses. -/
abbrev Memory := BitVec 32 → BitVec 8

/-- Store one byte. -/
def writeByte
    (memory : Memory)
    (address : BitVec 32)
    (value : BitVec 8) :
    Memory :=
  Function.update memory address value

/-- Load the little-endian word at an address. -/
def readWord
    (memory : Memory)
    (address : BitVec 32) :
    BitVec 32 :=
  memory (address + 3) ++ memory (address + 2) ++
    memory (address + 1) ++ memory address

/-- Store a little-endian word, least significant byte first. -/
def writeWord
    (memory : Memory)
    (address value : BitVec 32) :
    Memory :=
  writeByte
    (writeByte
      (writeByte
        (writeByte memory address (value.extractLsb' 0 8))
        (address + 1) (value.extractLsb' 8 8))
      (address + 2) (value.extractLsb' 16 8))
    (address + 3) (value.extractLsb' 24 8)

/-- Replace the word at an address by a function of it. -/
def modifyWord
    (memory : Memory)
    (address : BitVec 32)
    (change : BitVec 32 → BitVec 32) :
    Memory :=
  writeWord memory address (change (readWord memory address))

/-- Two memories agree on the addresses from `low` up to `high`. -/
def AgreeOn (low high : Nat) (first second : Memory) : Prop :=
  ∀ address : BitVec 32,
    low ≤ address.toNat →
    address.toNat < high →
    second address = first address

/-- Two memories agree on every address outside `low` up to `high`. -/
def AgreeOutside (low high : Nat) (first second : Memory) : Prop :=
  ∀ address : BitVec 32,
    address.toNat < low ∨ high ≤ address.toNat →
    second address = first address

namespace AgreeOutside

/-- Every memory agrees with itself. -/
theorem refl
    (low high : Nat)
    (memory : Memory) :
    AgreeOutside low high memory memory :=
  fun _ _ => rfl

/-- A frame may be enlarged. -/
theorem mono
    {low high low' high' : Nat}
    {first second : Memory}
    (agree : AgreeOutside low high first second)
    (lower : low' ≤ low)
    (upper : high ≤ high') :
    AgreeOutside low' high' first second := by
  intro address outside
  exact agree address (by omega)

/-- Frames of consecutive updates compose. -/
theorem trans
    {low high : Nat}
    {first second third : Memory}
    (left : AgreeOutside low high first second)
    (right : AgreeOutside low high second third) :
    AgreeOutside low high first third := by
  intro address outside
  exact (right address outside).trans (left address outside)

/-- A loop whose steps stay in a frame stays in it. -/
theorem foldl
    {α : Type*}
    {low high : Nat}
    {step : Memory → α → Memory}
    {items : List α}
    (each :
      ∀ item ∈ items,
        ∀ memory, AgreeOutside low high memory (step memory item))
    (memory : Memory) :
    AgreeOutside low high memory (items.foldl step memory) := by
  induction items generalizing memory with
  | nil =>
      exact refl low high memory
  | cons first rest inductionHypothesis =>
      rw [List.forall_mem_cons] at each
      exact
        (each.1 memory).trans
          (inductionHypothesis each.2 (step memory first))

/-- A range disjoint from the frame is left alone. -/
theorem agreeOn
    {low high start stop : Nat}
    {first second : Memory}
    (agree : AgreeOutside low high first second)
    (apart : stop ≤ low ∨ high ≤ start) :
    AgreeOn start stop first second := by
  intro address lower upper
  exact agree address (by omega)

end AgreeOutside

namespace AgreeOn

/-- Agreement restricts to a smaller range. -/
theorem mono
    {low high low' high' : Nat}
    {first second : Memory}
    (agree : AgreeOn low high first second)
    (lower : low ≤ low')
    (upper : high' ≤ high) :
    AgreeOn low' high' first second := by
  intro address low' high'
  exact agree address (by omega) (by omega)

end AgreeOn

/-- A byte store changes its own byte only. -/
theorem writeByte_agreeOutside
    (memory : Memory)
    (address : BitVec 32)
    (value : BitVec 8) :
    AgreeOutside address.toNat (address.toNat + 1)
      memory (writeByte memory address value) := by
  intro other outside
  have different : other ≠ address := by
    rintro rfl
    omega
  simp [writeByte, different]

/-- The stored byte is read back. -/
@[simp] theorem writeByte_self
    (memory : Memory)
    (address : BitVec 32)
    (value : BitVec 8) :
    writeByte memory address value address = value := by
  simp [writeByte]

/-- An offset behind the next address. -/
theorem add_one_add_ofNat
    {width : Nat}
    (base : BitVec width)
    (offset : Nat) :
    base + 1 + BitVec.ofNat width offset =
      base + BitVec.ofNat width (offset + 1) := by
  rw [BitVec.add_assoc, Nat.add_comm, BitVec.ofNat_add]
  rfl

/-- Byte addresses of a word that does not wrap. -/
theorem toNat_add_ofNat
    {address : BitVec 32}
    (offset : Nat)
    (room : address.toNat + offset < 2 ^ 32) :
    (address + BitVec.ofNat 32 offset).toNat =
      address.toNat + offset := by
  rw [BitVec.toNat_add, BitVec.toNat_ofNat, Nat.add_mod_mod,
    Nat.mod_eq_of_lt room]

/-- A word store changes its own four bytes only. -/
theorem writeWord_agreeOutside
    (memory : Memory)
    {address : BitVec 32}
    (value : BitVec 32)
    (room : address.toNat + 4 ≤ 2 ^ 32) :
    AgreeOutside address.toNat (address.toNat + 4)
      memory (writeWord memory address value) := by
  have one : (address + 1).toNat = address.toNat + 1 :=
    toNat_add_ofNat 1 (by omega)
  have two : (address + 2).toNat = address.toNat + 2 :=
    toNat_add_ofNat 2 (by omega)
  have three : (address + 3).toNat = address.toNat + 3 :=
    toNat_add_ofNat 3 (by omega)
  unfold writeWord
  refine AgreeOutside.trans
    (AgreeOutside.trans
      (AgreeOutside.trans
        ((writeByte_agreeOutside memory address _).mono ?_ ?_)
        ((writeByte_agreeOutside _ (address + 1) _).mono ?_ ?_))
      ((writeByte_agreeOutside _ (address + 2) _).mono ?_ ?_))
    ((writeByte_agreeOutside _ (address + 3) _).mono ?_ ?_)
  all_goals omega

/-- A word is determined by its four bytes. -/
theorem readWord_congr
    {first second : Memory}
    {address : BitVec 32}
    (room : address.toNat + 4 ≤ 2 ^ 32)
    (agree :
      AgreeOn address.toNat (address.toNat + 4) first second) :
    readWord second address = readWord first address := by
  have zero : second address = first address :=
    agree address (by omega) (by omega)
  have byteAt
      (offset : Nat)
      (small : offset < 4) :
      second (address + BitVec.ofNat 32 offset) =
        first (address + BitVec.ofNat 32 offset) := by
    have shifted :
        (address + BitVec.ofNat 32 offset).toNat =
          address.toNat + offset :=
      toNat_add_ofNat offset (by omega)
    exact agree _ (by omega) (by omega)
  have one := byteAt 1 (by omega)
  have two := byteAt 2 (by omega)
  have three := byteAt 3 (by omega)
  unfold readWord
  rw [zero]
  congr 1
  congr 1
  congr 1

/-- An append is 0 exactly when both parts are. -/
theorem append_eq_zero_iff
    {high low : Nat}
    (x : BitVec high)
    (y : BitVec low) :
    x ++ y = BitVec.ofNat (high + low) 0 ↔
      x = BitVec.ofNat high 0 ∧ y = BitVec.ofNat low 0 := by
  rw [← BitVec.toNat_inj, ← BitVec.toNat_inj, ← BitVec.toNat_inj,
    BitVec.toNat_append, BitVec.toNat_ofNat, BitVec.toNat_ofNat,
    BitVec.toNat_ofNat, Nat.zero_mod, Nat.zero_mod, Nat.zero_mod,
    Nat.or_eq_zero_iff, Nat.shiftLeft_eq, Nat.mul_eq_zero,
    or_iff_left (Nat.ne_of_gt (Nat.two_pow_pos low))]

/-- The four bytes of a word reassemble it. -/
theorem extractLsb'_append_bytes
    (value : BitVec 32) :
    value.extractLsb' 24 8 ++ value.extractLsb' 16 8 ++
        value.extractLsb' 8 8 ++ value.extractLsb' 0 8 =
      value := by
  ext index bound
  rw [← BitVec.getLsbD_eq_getElem (x := value) bound]
  simp only [BitVec.getElem_append, BitVec.getElem_extractLsb']
  split
  · rw [Nat.zero_add]
  · split
    · rw [show 8 + (index - 8) = index by omega]
    · split
      · rw [show 16 + (index - 8 - 8) = index by omega]
      · rw [show 24 + (index - 8 - 8 - 8) = index by omega]

/-- The bytes of a loaded word. -/
theorem extractLsb'_readWord
    (memory : Memory)
    (address : BitVec 32)
    {offset : Nat}
    (small : offset < 4) :
    (readWord memory address).extractLsb' (8 * offset) 8 =
      memory (address + BitVec.ofNat 32 offset) := by
  have first : address + BitVec.ofNat 32 0 = address :=
    BitVec.add_zero address
  have cases : offset = 0 ∨ offset = 1 ∨ offset = 2 ∨ offset = 3 := by
    omega
  ext index bound
  rw [BitVec.getElem_extractLsb', readWord]
  rcases cases with rfl | rfl | rfl | rfl
  · rw [first, BitVec.getLsbD_append, if_pos (by omega),
      BitVec.getLsbD_eq_getElem (by omega)]
    simp only [Nat.mul_zero, Nat.zero_add]
  · rw [BitVec.getLsbD_append, if_neg (by omega),
      BitVec.getLsbD_append, if_pos (by omega),
      BitVec.getLsbD_eq_getElem (by omega)]
    simp only [Nat.mul_one, Nat.add_sub_cancel_left]
    rfl
  · rw [BitVec.getLsbD_append, if_neg (by omega),
      BitVec.getLsbD_append, if_neg (by omega),
      BitVec.getLsbD_append, if_pos (by omega),
      BitVec.getLsbD_eq_getElem (by omega)]
    simp only [show 8 * 2 + index - 8 - 8 = index by omega]
    rfl
  · rw [BitVec.getLsbD_append, if_neg (by omega),
      BitVec.getLsbD_append, if_neg (by omega),
      BitVec.getLsbD_append, if_neg (by omega),
      BitVec.getLsbD_eq_getElem (by omega)]
    simp only [show 8 * 3 + index - 8 - 8 - 8 = index by omega]
    rfl

/-- The stored word is read back. -/
@[simp] theorem readWord_writeWord_self
    (memory : Memory)
    (address value : BitVec 32) :
    readWord (writeWord memory address value) address = value := by
  have zeroOne : address ≠ address + 1 := by bv_omega
  have zeroTwo : address ≠ address + 2 := by bv_omega
  have zeroThree : address ≠ address + 3 := by bv_omega
  have oneTwo : address + 1 ≠ address + 2 := by bv_omega
  have oneThree : address + 1 ≠ address + 3 := by bv_omega
  have twoThree : address + 2 ≠ address + 3 := by bv_omega
  simp only [readWord, writeWord, writeByte, Function.update_self,
    Function.update_of_ne zeroOne, Function.update_of_ne zeroTwo,
    Function.update_of_ne zeroThree, Function.update_of_ne oneTwo,
    Function.update_of_ne oneThree, Function.update_of_ne twoThree]
  exact extractLsb'_append_bytes value

/-- Storing the word that is there changes nothing. -/
@[simp] theorem writeWord_readWord_self
    (memory : Memory)
    (address : BitVec 32) :
    writeWord memory address (readWord memory address) = memory := by
  have byteAt
      (offset : Nat)
      (small : offset < 4) :=
    extractLsb'_readWord memory address small
  have zero :
      (readWord memory address).extractLsb' 0 8 = memory address := by
    have first := byteAt 0 (by omega)
    rwa [BitVec.add_zero] at first
  have one := byteAt 1 (by omega)
  have two := byteAt 2 (by omega)
  have three := byteAt 3 (by omega)
  unfold writeWord writeByte
  rw [zero, Function.update_eq_self]
  rw [show (readWord memory address).extractLsb' 8 8 = memory (address + 1)
    from one, Function.update_eq_self]
  rw [show (readWord memory address).extractLsb' 16 8 = memory (address + 2)
    from two, Function.update_eq_self]
  rw [show (readWord memory address).extractLsb' 24 8 = memory (address + 3)
    from three, Function.update_eq_self]

/-- A load apart from a store sees the old word. -/
theorem readWord_of_agreeOutside
    {low high : Nat}
    {first second : Memory}
    {address : BitVec 32}
    (agree : AgreeOutside low high first second)
    (room : address.toNat + 4 ≤ 2 ^ 32)
    (apart : address.toNat + 4 ≤ low ∨ high ≤ address.toNat) :
    readWord second address = readWord first address :=
  readWord_congr room (agree.agreeOn apart)

/-- Two word stores apart from each other do not interfere. -/
theorem readWord_writeWord_of_apart
    (memory : Memory)
    {address other : BitVec 32}
    (value : BitVec 32)
    (room : address.toNat + 4 ≤ 2 ^ 32)
    (roomOther : other.toNat + 4 ≤ 2 ^ 32)
    (apart :
      other.toNat + 4 ≤ address.toNat ∨
        address.toNat + 4 ≤ other.toNat) :
    readWord (writeWord memory address value) other =
      readWord memory other :=
  readWord_of_agreeOutside
    (writeWord_agreeOutside memory value room) roomOther apart

/-- A second store to the same word supersedes the first. -/
@[simp] theorem writeWord_writeWord_self
    (memory : Memory)
    (address first second : BitVec 32) :
    writeWord (writeWord memory address first) address second =
      writeWord memory address second := by
  have oneZero : address + 1 ≠ address := by bv_omega
  have twoZero : address + 2 ≠ address := by bv_omega
  have threeZero : address + 3 ≠ address := by bv_omega
  have twoOne : address + 2 ≠ address + 1 := by bv_omega
  have threeOne : address + 3 ≠ address + 1 := by bv_omega
  have threeTwo : address + 3 ≠ address + 2 := by bv_omega
  funext other
  simp only [writeWord, writeByte, Function.update_apply]
  split_ifs <;> rfl

/-- Two replacements of the same word compose. -/
@[simp] theorem modifyWord_modifyWord_self
    (memory : Memory)
    (address : BitVec 32)
    (first second : BitVec 32 → BitVec 32) :
    modifyWord (modifyWord memory address first) address second =
      modifyWord memory address (fun word => second (first word)) := by
  simp [modifyWord]

end HobbyOS.Library
