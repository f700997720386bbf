import HobbyOS.Library.OverlappingCopy
import HobbyOS.Stddef

namespace HobbyOS

open Library

/-!
# Moving bytes

`memcpy` copies the last byte first, so it is right for a destination behind
the source, and this is the case for which `memmove` calls it.  Otherwise
`memmove` copies the first byte first.
-/

section Copies

variable
  {memory : Memory}
  {destination source : PtrT}
  {length : SizeT}

/-- `memcpy` copies down. -/
theorem memcpyLoop_eq_copyDown (length : Nat) :
    memcpyLoop memory destination source length =
      copyDown memory destination source length := by
  induction length generalizing memory with
  | zero =>
      rfl
  | succ length inductionHypothesis =>
      rw [memcpyLoop, inductionHypothesis]
      rfl

/-- The loop of `memmove` copies up. -/
theorem memmoveLoop_eq_copyUp (length i : Nat) :
    memmoveLoop memory destination source length i =
      copyUp memory destination source length i := by
  induction length generalizing memory i with
  | zero =>
      rfl
  | succ length inductionHypothesis =>
      rw [memmoveLoop, inductionHypothesis]
      rfl

/-- `memcpy` transfers the source to a destination behind it or apart. -/
theorem memcpy_eq_storeBytes
    (sourceFits : source.toNat + length.toNat ≤ 2 ^ 32)
    (destinationFits : destination.toNat + length.toNat ≤ 2 ^ 32)
    (safe :
      source.toNat ≤ destination.toNat ∨
        destination.toNat + length.toNat ≤ source.toNat) :
    memcpy memory destination source length =
      storeBytes memory destination (bytesAt memory source) length.toNat := by
  rw [memcpy, memcpyLoop_eq_copyDown,
    copyDown_eq_storeBytes sourceFits destinationFits safe]

/-- `memmove` transfers the source as it was before, to any destination. -/
theorem memmove_eq_storeBytes
    (sourceFits : source.toNat + length.toNat ≤ 2 ^ 32)
    (destinationFits : destination.toNat + length.toNat ≤ 2 ^ 32) :
    memmove memory destination source length =
      storeBytes memory destination (bytesAt memory source) length.toNat := by
  rw [memmove]
  split
  · rename_i behind
    have ordered := Nat.le_of_lt (BitVec.lt_def.mp behind)
    exact memcpy_eq_storeBytes sourceFits destinationFits (.inl ordered)
  · rename_i notBehind
    have ordered := Nat.not_lt.mp fun less => notBehind (BitVec.lt_def.mpr less)
    have start : destination + BitVec.ofNat 32 0 = destination :=
      BitVec.add_zero destination
    rw [memmoveLoop_eq_copyUp,
      copyUp_eq_storeBytes (by omega) (by omega) (.inl ordered), start]
    simp only [Nat.zero_add]

end Copies

/--
`memmove` leaves the bytes that the source had before at the destination, and
changes no other byte.
-/
theorem memmove_moves
    (memory : Memory)
    (destination source : PtrT)
    (length : SizeT)
    (sourceFits : source.toNat + length.toNat ≤ 2 ^ 32)
    (destinationFits : destination.toNat + length.toNat ≤ 2 ^ 32) :
    (∀ offset < length.toNat,
        memmove memory destination source length
            (destination + BitVec.ofNat 32 offset) =
          memory (source + BitVec.ofNat 32 offset)) ∧
      AgreeOutside destination.toNat (destination.toNat + length.toNat)
        memory (memmove memory destination source length) := by
  rw [memmove_eq_storeBytes sourceFits destinationFits]
  refine ⟨fun offset inside => ?_, storeBytes_agreeOutside destinationFits⟩
  exact storeBytes_inside inside (by omega)

/-- Five bytes are moved up by two, over their own end. -/
theorem memmove_moves_overlapping :
    (∀ offset < 5,
        memmove (fun address => address.setWidth 8) 0x1002 0x1000 5
            (0x1002 + BitVec.ofNat 32 offset) =
          BitVec.setWidth 8 (0x1000 + BitVec.ofNat 32 offset)) ∧
      AgreeOutside 0x1002 0x1007 (fun address => address.setWidth 8)
        (memmove (fun address => address.setWidth 8) 0x1002 0x1000 5) :=
  memmove_moves (fun address => address.setWidth 8) 0x1002 0x1000 5
    (by decide) (by decide)

end HobbyOS
