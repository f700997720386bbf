import HobbyOS.Library.BlockTransfer

namespace HobbyOS.Library

/-!
# Copies between ranges that may overlap

A copy byte by byte reads each source byte after some stores.  It transfers
the bytes that were there before if every source byte is read before it is
overwritten: a copy that goes down must not start below its source, and a copy
that goes up must not start above it, unless the ranges are apart.
-/

/-- The bytes of a memory from an address on. -/
def bytesAt (memory : Memory) (address : BitVec 32) (offset : Nat) : BitVec 8 :=
  memory (address + BitVec.ofNat 32 offset)

/-- The first `count` bytes of a memory from an address on, as a list. -/
def loadBytes (memory : Memory) (address : BitVec 32) (count : Nat) :
    List (BitVec 8) :=
  (List.range count).map (bytesAt memory address)

/-- Copy `count` bytes, the last one first. -/
def copyDown (memory : Memory) (destination source : BitVec 32) :
    Nat → Memory
  | 0 => memory
  | count + 1 =>
      copyDown
        (writeByte memory (destination + BitVec.ofNat 32 count)
          (bytesAt memory source count))
        destination source count

/-- Copy the `count` bytes from offset `first` on, in order. -/
def copyUp (memory : Memory) (destination source : BitVec 32) :
    Nat → Nat → Memory
  | 0, _ => memory
  | count + 1, first =>
      copyUp
        (writeByte memory (destination + BitVec.ofNat 32 first)
          (bytesAt memory source first))
        destination source count (first + 1)

section Copies

variable
  {memory : Memory}
  {destination source : BitVec 32}

/-- A store leaves the bytes at the other offsets. -/
theorem bytesAt_writeByte_of_ne
    {value : BitVec 8}
    {offset written : Nat}
    (sourceFits : source.toNat + offset < 2 ^ 32)
    (destinationFits : destination.toNat + written < 2 ^ 32)
    (apart : source.toNat + offset ≠ destination.toNat + written) :
    bytesAt
        (writeByte memory (destination + BitVec.ofNat 32 written) value)
        source offset =
      bytesAt memory source offset := by
  have different :
      source + BitVec.ofNat 32 offset ≠
        destination + BitVec.ofNat 32 written := by
    intro same
    have values := congrArg BitVec.toNat same
    rw [toNat_add_ofNat offset sourceFits,
      toNat_add_ofNat written destinationFits] at values
    exact apart values
  rw [bytesAt, writeByte, Function.update_of_ne different, bytesAt]

/-- A transfer behind one more byte at its front. -/
theorem storeBytes_behind_first
    {bytes : Nat → BitVec 8}
    {count first : Nat}
    (fits : first + count + 1 ≤ 2 ^ 32) :
    storeBytes
        (writeByte memory (destination + BitVec.ofNat 32 first) (bytes first))
        (destination + BitVec.ofNat 32 (first + 1))
        (fun offset => bytes (first + 1 + offset)) count =
      storeBytes memory (destination + BitVec.ofNat 32 first)
        (fun offset => bytes (first + offset)) (count + 1) := by
  have next :
      destination + BitVec.ofNat 32 (first + 1) =
        destination + BitVec.ofNat 32 first + BitVec.ofNat 32 1 := by
    rw [BitVec.add_assoc, ← BitVec.ofNat_add]
  rw [writeByte_eq_storeBytes, next, storeBytes_append _ _ _ _ (by omega),
    Nat.add_comm 1 count]
  refine storeBytes_congr fun offset _ => ?_
  rw [appendBytes]
  split
  · rename_i here
    have zero : offset = 0 := by omega
    rw [zero, Nat.add_zero]
  · have sum : first + 1 + (offset - 1) = first + offset := by omega
    rw [sum]

/-- A transfer in front of one more byte at its end. -/
theorem storeBytes_before_last
    {bytes : Nat → BitVec 8}
    {count : Nat}
    (fits : count + 1 ≤ 2 ^ 32) :
    storeBytes
        (writeByte memory (destination + BitVec.ofNat 32 count) (bytes count))
        destination bytes count =
      storeBytes memory destination bytes (count + 1) := by
  funext target
  unfold storeBytes
  by_cases last : target = destination + BitVec.ofNat 32 count
  · subst last
    rw [toNat_distance destination (by omega), if_neg (Nat.lt_irrefl count),
      if_pos (Nat.lt_succ_self count), writeByte_self]
  · have distance : (target - destination).toNat ≠ count := by
      intro same
      apply last
      rw [← same, BitVec.ofNat_toNat, BitVec.setWidth_eq, BitVec.add_comm,
        BitVec.sub_add_cancel]
    rw [writeByte, Function.update_of_ne last]
    by_cases before : (target - destination).toNat < count
    · rw [if_pos before, if_pos (by omega)]
    · rw [if_neg before, if_neg (by omega)]

/-- A copy down that does not start below its source transfers its bytes. -/
theorem copyDown_eq_storeBytes
    {count : Nat}
    (sourceFits : source.toNat + count ≤ 2 ^ 32)
    (destinationFits : destination.toNat + count ≤ 2 ^ 32)
    (safe :
      source.toNat ≤ destination.toNat ∨
        destination.toNat + count ≤ source.toNat) :
    copyDown memory destination source count =
      storeBytes memory destination (bytesAt memory source) count := by
  induction count generalizing memory with
  | zero =>
      exact (storeBytes_zero _ _ _).symm
  | succ count inductionHypothesis =>
      rw [copyDown,
        inductionHypothesis (by omega) (by omega) (by omega)]
      refine Eq.trans (storeBytes_congr fun offset inside => ?_)
        (storeBytes_before_last (by omega))
      exact bytesAt_writeByte_of_ne (by omega) (by omega) (by omega)

/-- A copy up that does not start above its source transfers its bytes. -/
theorem copyUp_eq_storeBytes
    {count first : Nat}
    (sourceFits : source.toNat + (first + count) ≤ 2 ^ 32)
    (destinationFits : destination.toNat + (first + count) ≤ 2 ^ 32)
    (safe :
      destination.toNat ≤ source.toNat ∨
        source.toNat + (first + count) ≤ destination.toNat) :
    copyUp memory destination source count first =
      storeBytes memory (destination + BitVec.ofNat 32 first)
        (fun offset => bytesAt memory source (first + offset)) count := by
  induction count generalizing memory first with
  | zero =>
      exact (storeBytes_zero _ _ _).symm
  | succ count inductionHypothesis =>
      rw [copyUp,
        inductionHypothesis (by omega) (by omega) (by omega)]
      refine Eq.trans (storeBytes_congr fun offset inside => ?_)
        (storeBytes_behind_first (by omega))
      exact bytesAt_writeByte_of_ne (by omega) (by omega) (by omega)

/-- A transfer that does not wrap changes its range only. -/
theorem storeBytes_agreeOutside
    {bytes : Nat → BitVec 8}
    {count : Nat}
    (fits : destination.toNat + count ≤ 2 ^ 32) :
    AgreeOutside destination.toNat (destination.toNat + count) memory
      (storeBytes memory destination bytes count) := by
  intro address outside
  refine storeBytes_outside ?_
  bv_omega

/-- A transfer is read back as a list. -/
theorem loadBytes_storeBytes
    {bytes : Nat → BitVec 8}
    {count : Nat}
    (fits : count ≤ 2 ^ 32) :
    loadBytes (storeBytes memory destination bytes count) destination count =
      (List.range count).map bytes := by
  refine List.map_congr_left fun offset inside => ?_
  rw [List.mem_range] at inside
  exact storeBytes_inside inside (by omega)

/-- The bytes behind some others. -/
theorem drop_loadBytes (first count : Nat) :
    (loadBytes memory source (first + count)).drop first =
      loadBytes memory (source + BitVec.ofNat 32 first) count := by
  rw [loadBytes, ← List.map_drop, List.range_add, List.drop_left'
    List.length_range, List.map_map]
  refine List.map_congr_left fun offset _ => ?_
  rw [Function.comp_apply, bytesAt, bytesAt, BitVec.ofNat_add,
    BitVec.add_assoc]

/-- The first ones of some bytes. -/
theorem take_loadBytes
    {first count : Nat}
    (part : first ≤ count) :
    (loadBytes memory source count).take first =
      loadBytes memory source first := by
  rw [loadBytes, ← List.map_take, List.take_range, Nat.min_eq_left part]
  rfl

end Copies

end HobbyOS.Library
