import Mathlib.Data.List.GetD
import HobbyOS.Library.OverlappingCopy

namespace HobbyOS.Library

/-!
# Streams of bits in bytes

Bits stand eight to a byte, the first one in the least significant place.  A
packer collects the bits of a byte and stores it when it is complete.  A
reader that goes through little-endian words, each from its least significant
place on, finds the bits in the same order.
-/

/-- Bit number `index` of some bytes. -/
def bitOf (bytes : List (BitVec 8)) (index : Nat) : Bool :=
  (bytes.getD (index / 8) 0).getLsbD (index % 8)

/-- Bit number `index` of the bytes of a memory from an address on. -/
def bitAt (memory : Memory) (address : BitVec 32) (index : Nat) : Bool :=
  (bytesAt memory address (index / 8)).getLsbD (index % 8)

/-- Bits whose complete bytes are stored and whose last `count` are pending. -/
structure Packed
    (bits : List Bool)
    (bytes : List (BitVec 8))
    (count pending : Nat) :
    Prop where
  total : 8 * bytes.length + count = bits.length
  small : count < 8
  stored :
    ∀ index < 8 * bytes.length, bitOf bytes index = bits.getD index false
  rest :
    ∀ place,
      pending.testBit place = bits.getD (8 * bytes.length + place) false

section Packing

variable
  {bits : List Bool}
  {bytes : List (BitVec 8)}
  {count pending : Nat}

/-- Nothing is packed yet. -/
theorem Packed.empty : Packed [] [] 0 0 where
  total := rfl
  small := Nat.succ_pos 7
  stored := fun _ inside => (Nat.not_lt_zero _ inside).elim
  rest := fun place => Nat.zero_testBit place

/-- The pending bits and one more. -/
def withBit (pending count : Nat) (bit : Bool) : Nat :=
  if bit then pending ||| 1 <<< count else pending

/-- One more bit behind some others. -/
theorem getD_snoc (bits : List Bool) (bit : Bool) (index : Nat) :
    (bits ++ [bit]).getD index false =
      (bits.getD index false || bit && index == bits.length) := by
  rcases Nat.lt_trichotomy index bits.length with before | here | behind
  · rw [List.getD_append _ _ _ _ before,
      beq_eq_false_iff_ne.mpr (Nat.ne_of_lt before), Bool.and_false,
      Bool.or_false]
  · rw [List.getD_append_right _ _ _ _ (Nat.le_of_eq here.symm),
      List.getD_eq_default bits false (Nat.le_of_eq here.symm), here,
      Nat.sub_self,
      beq_self_eq_true, Bool.and_true, Bool.false_or]
    rfl
  · have outside : (bits ++ [bit]).length ≤ index := by
      rw [List.length_append, List.length_singleton]
      exact behind
    rw [List.getD_eq_default _ _ outside,
      List.getD_eq_default _ _ (Nat.le_of_lt behind),
      beq_eq_false_iff_ne.mpr (Nat.ne_of_gt behind),
      Bool.and_false, Bool.or_false]

/-- The places behind the complete bytes, with one more bit pending. -/
theorem Packed.rest_withBit
    (packed : Packed bits bytes count pending)
    (bit : Bool)
    (place : Nat) :
    (withBit pending count bit).testBit place =
      (bits ++ [bit]).getD (8 * bytes.length + place) false := by
  have total := packed.total
  have samePlace :
      (8 * bytes.length + place == bits.length) = decide (count = place) := by
    rw [Bool.beq_eq_decide_eq, decide_eq_decide]
    omega
  rw [getD_snoc, ← packed.rest, samePlace, withBit]
  cases bit with
  | false =>
      rw [Bool.false_and, Bool.or_false]
      rfl
  | true =>
      rw [if_pos rfl, Nat.testBit_or, Nat.one_shiftLeft,
        Nat.testBit_two_pow, Bool.true_and]

/-- A bit that does not complete its byte is pending. -/
theorem Packed.push
    (packed : Packed bits bytes count pending)
    (bit : Bool)
    (incomplete : count + 1 ≠ 8) :
    Packed (bits ++ [bit]) bytes (count + 1) (withBit pending count bit) := by
  have total := packed.total
  have small := packed.small
  refine ⟨?_, by omega, ?_, packed.rest_withBit bit⟩
  · rw [List.length_append, List.length_singleton]
    omega
  · intro index inside
    rw [List.getD_append _ _ _ _ (by omega)]
    exact packed.stored index inside

/-- The last bit of a byte stores it. -/
theorem Packed.push_last
    (packed : Packed bits bytes count pending)
    (bit : Bool)
    (complete : count + 1 = 8) :
    Packed (bits ++ [bit])
      (bytes ++ [BitVec.ofNat 8 (withBit pending count bit)]) 0 0 := by
  have total := packed.total
  have bytesLength :
      (bytes ++ [BitVec.ofNat 8 (withBit pending count bit)]).length =
        bytes.length + 1 := by
    rw [List.length_append, List.length_singleton]
  have bitsLength : (bits ++ [bit]).length = bits.length + 1 := by
    rw [List.length_append, List.length_singleton]
  refine ⟨by omega, Nat.succ_pos 7, ?_, ?_⟩
  · intro index inside
    rcases Nat.lt_or_ge index (8 * bytes.length) with before | last
    · have earlier := packed.stored index before
      rw [bitOf] at earlier ⊢
      rw [List.getD_append _ _ _ _ (by omega), earlier,
        List.getD_append _ _ _ _ (by omega)]
    · have byte : index / 8 - bytes.length = 0 := by omega
      have place : 8 * bytes.length + index % 8 = index := by omega
      rw [bitOf, List.getD_append_right _ _ _ _ (by omega), byte,
        List.getD_cons_zero, BitVec.getLsbD_ofNat,
        decide_eq_true (Nat.mod_lt index (by omega)), Bool.true_and,
        packed.rest_withBit bit, place]
  · intro place
    rw [List.getD_eq_default _ _ (by omega)]
    exact Nat.zero_testBit place

/-- Pending bits fit in a byte. -/
theorem Packed.withBit_lt
    (packed : Packed bits bytes count pending)
    (bit : Bool) :
    withBit pending count bit < 2 ^ 8 := by
  have total := packed.total
  have small := packed.small
  refine Nat.lt_pow_two_of_testBit _ fun place behind => ?_
  rw [packed.rest_withBit bit]
  refine List.getD_eq_default _ _ ?_
  rw [List.length_append, List.length_singleton]
  omega

end Packing

/-! ## Reading words -/

section Reading

variable
  {memory : Memory}
  {address : BitVec 32}

/-- Bytes of a memory that are some given ones. -/
theorem bytesAt_of_loadBytes
    {bytes : List (BitVec 8)}
    (loaded : loadBytes memory address bytes.length = bytes)
    {offset : Nat}
    (inside : offset < bytes.length) :
    bytesAt memory address offset = bytes.getD offset 0 := by
  rw [← loaded, List.getD_eq_getElem _ _
    (by rwa [loadBytes, List.length_map, List.length_range])]
  simp only [loadBytes, List.getElem_map, List.getElem_range]

/-- Bits of a memory that are those of some bytes. -/
theorem bitAt_of_loadBytes
    {bytes : List (BitVec 8)}
    (loaded : loadBytes memory address bytes.length = bytes)
    {index : Nat}
    (inside : index < 8 * bytes.length) :
    bitAt memory address index = bitOf bytes index := by
  rw [bitAt, bytesAt_of_loadBytes loaded (by omega), bitOf]

/-- Where a bit stands in the words. -/
theorem getLsbD_readWord
    (memory : Memory)
    (address : BitVec 32)
    (index : Nat) :
    (readWord memory (address + 4 * BitVec.ofNat 32 (index / 32))).getLsbD
        (index % 32) =
      bitAt memory address index := by
  have offset : index % 32 / 8 < 4 := by omega
  have byte :=
    extractLsb'_readWord memory
      (address + 4 * BitVec.ofNat 32 (index / 32)) offset
  have place : 8 * (index % 32 / 8) + index % 8 = index % 32 := by omega
  have target :
      address + 4 * BitVec.ofNat 32 (index / 32) +
          BitVec.ofNat 32 (index % 32 / 8) =
        address + BitVec.ofNat 32 (index / 8) := by
    have four : (4 : BitVec 32) = BitVec.ofNat 32 4 := rfl
    have parts : 4 * (index / 32) + index % 32 / 8 = index / 8 := by omega
    rw [BitVec.add_assoc, four, ← BitVec.ofNat_mul, ← BitVec.ofNat_add,
      parts]
  rw [bitAt, bytesAt, ← target, ← byte, BitVec.getLsbD_extractLsb',
    decide_eq_true (Nat.mod_lt index (by omega)), Bool.true_and, place]

/-- A word whose bytes are those of a number is that number. -/
theorem readWord_eq_ofNat
    {value : Nat}
    (digits :
      ∀ offset < 4,
        bytesAt memory address offset =
          BitVec.ofNat 8 (value / 256 ^ offset)) :
    readWord memory address = BitVec.ofNat 32 value := by
  refine BitVec.eq_of_getLsbD_eq fun place inside => ?_
  have bit := getLsbD_readWord memory address place
  rw [Nat.div_eq_of_lt inside, Nat.mod_eq_of_lt inside] at bit
  have start : address + 4 * BitVec.ofNat 32 0 = address :=
    BitVec.add_zero address
  have power : 256 ^ (place / 8) = 2 ^ (8 * (place / 8)) :=
    (Nat.pow_mul 2 8 (place / 8)).symm
  rw [← start, bit, bitAt, digits (place / 8) (by omega),
    BitVec.getLsbD_ofNat, BitVec.getLsbD_ofNat, decide_eq_true inside,
    decide_eq_true (Nat.mod_lt place (by omega)), power,
    Nat.testBit_div_two_pow, Nat.mod_add_div]

/-- The next place of a word, if there is one. -/
theorem twoPow_shiftLeft_one
    {width : Nat}
    (place : Nat) :
    BitVec.twoPow width place <<< 1 = BitVec.twoPow width (place + 1) := by
  rw [BitVec.twoPow_eq, BitVec.twoPow_eq, BitVec.shiftLeft_add]

/-- There is no place behind the last one. -/
theorem twoPow_eq_zero_iff
    {width place : Nat} :
    BitVec.twoPow width place = 0 ↔ width ≤ place := by
  have zero : (0 : BitVec width).toNat = 0 :=
    (BitVec.toNat_ofNat 0 width).trans (Nat.zero_mod _)
  rw [← BitVec.toNat_inj, BitVec.toNat_twoPow_eq_ite, zero]
  split
  · rename_i inside
    have positive : 0 < 2 ^ place := Nat.two_pow_pos place
    omega
  · rename_i outside
    omega

end Reading

end HobbyOS.Library
