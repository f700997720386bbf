import Mathlib.Data.List.Basic
import HobbyOS.Library.OverlappingCopy

namespace HobbyOS.Library

/-!
# Regions of a memory

A region is a range of addresses that does not wrap.  What a region holds
stays as long as only other regions are written, so the parts of a program
that write to regions of their own do not disturb each other.
-/

/-- A range of addresses that does not wrap. -/
structure MemoryRegion where
  start : BitVec 32
  size : Nat
  fits : start.toNat + size ≤ 2 ^ 32

/-- Two regions lie apart. -/
def MemoryRegion.Apart (first second : MemoryRegion) : Prop :=
  first.start.toNat + first.size ≤ second.start.toNat ∨
    second.start.toNat + second.size ≤ first.start.toNat

/-- An address in a region. -/
def MemoryRegion.Contains
    (region : MemoryRegion)
    (address : BitVec 32) :
    Prop :=
  region.start.toNat ≤ address.toNat ∧
    address.toNat < region.start.toNat + region.size

/-- A list of bytes as a sequence, with zeros behind it. -/
def bytesOf (bytes : List (BitVec 8)) (offset : Nat) : BitVec 8 :=
  bytes.getD offset 0

/-- A region holds the first bytes of a sequence. -/
def Holds
    (memory : Memory)
    (region : MemoryRegion)
    (bytes : Nat → BitVec 8) :
    Prop :=
  ∀ offset < region.size,
    memory (region.start + BitVec.ofNat 32 offset) = bytes offset

/-- Nothing is changed outside of some regions. -/
def UnchangedOutside
    (regions : List MemoryRegion)
    (before after : Memory) :
    Prop :=
  ∀ address,
    (∀ region ∈ regions, ¬region.Contains address) →
    after address = before address

variable
  {region other : MemoryRegion}
  {regions larger : List MemoryRegion}
  {before between after : Memory}
  {bytes : Nat → BitVec 8}

namespace MemoryRegion

instance (first second : MemoryRegion) : Decidable (first.Apart second) :=
  inferInstanceAs (Decidable (_ ∨ _))

/-- Regions lie apart from each other. -/
theorem Apart.symm (apart : region.Apart other) : other.Apart region :=
  Or.symm apart

/-- The address at an offset. -/
theorem toNat_offset
    (region : MemoryRegion)
    {offset : Nat}
    (inside : offset < region.size) :
    (region.start + BitVec.ofNat 32 offset).toNat =
      region.start.toNat + offset :=
  toNat_add_ofNat offset
    (Nat.lt_of_lt_of_le (Nat.add_lt_add_left inside _) region.fits)

/-- The offsets lead to addresses of the region. -/
theorem contains_offset
    (region : MemoryRegion)
    {offset : Nat}
    (inside : offset < region.size) :
    region.Contains (region.start + BitVec.ofNat 32 offset) := by
  rw [Contains, region.toNat_offset inside]
  omega

/-- An address of a region is none of a region apart from it. -/
theorem Apart.not_contains
    (apart : region.Apart other)
    {address : BitVec 32}
    (inside : region.Contains address) :
    ¬other.Contains address := by
  rw [Apart] at apart
  rw [Contains] at inside ⊢
  omega

end MemoryRegion

namespace UnchangedOutside

/-- Nothing is changed at all. -/
theorem refl (regions : List MemoryRegion) (memory : Memory) :
    UnchangedOutside regions memory memory :=
  fun _ _ => rfl

/-- More regions may be allowed. -/
theorem mono
    (unchanged : UnchangedOutside regions before after)
    (subset : regions ⊆ larger) :
    UnchangedOutside larger before after := by
  intro address outside
  exact unchanged address fun region member => outside region (subset member)

/-- Larger regions may be allowed. -/
theorem widen
    (unchanged : UnchangedOutside regions before after)
    (covered :
      ∀ region ∈ regions,
        ∃ other ∈ larger,
          ∀ address, region.Contains address → other.Contains address) :
    UnchangedOutside larger before after := by
  intro address outside
  refine unchanged address fun region member inside => ?_
  obtain ⟨other, isOther, covers⟩ := covered region member
  exact outside other isOther (covers address inside)

/-- One change behind the other. -/
theorem trans
    (first : UnchangedOutside regions before between)
    (second : UnchangedOutside regions between after) :
    UnchangedOutside regions before after := by
  intro address outside
  exact (second address outside).trans (first address outside)

/-- A change outside of which two memories agree. -/
theorem of_agreeOutside
    (agree :
      AgreeOutside region.start.toNat (region.start.toNat + region.size)
        before after) :
    UnchangedOutside [region] before after := by
  intro address outside
  refine agree address ?_
  have not_ := outside region (List.mem_singleton_self region)
  rw [MemoryRegion.Contains] at not_
  omega

/-- A store to a region changes nothing else. -/
theorem storeBytes (region : MemoryRegion) (memory : Memory)
    (bytes : Nat → BitVec 8) :
    UnchangedOutside [region] memory
      (Library.storeBytes memory region.start bytes region.size) :=
  of_agreeOutside (storeBytes_agreeOutside region.fits)

/-- A byte that is stored in a region. -/
theorem writeByte
    (region : MemoryRegion)
    (memory : Memory)
    {offset : Nat}
    (inside : offset < region.size)
    (value : BitVec 8) :
    UnchangedOutside [region] memory
      (Library.writeByte memory (region.start + BitVec.ofNat 32 offset)
        value) := by
  have number := region.toNat_offset inside
  refine
    of_agreeOutside ((writeByte_agreeOutside memory _ value).mono ?_ ?_)
  · omega
  · omega

/-- A half word that is stored in a region. -/
theorem writeHalf
    (region : MemoryRegion)
    (memory : Memory)
    {offset : Nat}
    (inside : offset + 2 ≤ region.size)
    (value : BitVec 16) :
    UnchangedOutside [region] memory
      (Library.writeHalf memory (region.start + BitVec.ofNat 32 offset)
        value) := by
  have fits := region.fits
  have number := region.toNat_offset (show offset < region.size by omega)
  refine
    of_agreeOutside
      ((writeHalf_agreeOutside memory value (by omega)).mono ?_ ?_)
  · omega
  · omega

/-- The bytes of a region stay while other regions are written. -/
theorem loadBytes
    (unchanged : UnchangedOutside regions before after)
    (region : MemoryRegion)
    (apart : ∀ other ∈ regions, region.Apart other) :
    Library.loadBytes after region.start region.size =
      Library.loadBytes before region.start region.size := by
  refine List.map_congr_left fun offset inside => ?_
  refine unchanged _ fun other member => ?_
  exact
    (apart other member).not_contains
      (region.contains_offset (List.mem_range.mp inside))

end UnchangedOutside

namespace Holds

/-- A region holds what was stored to it. -/
theorem storeBytes (region : MemoryRegion) (memory : Memory)
    (bytes : Nat → BitVec 8) :
    Holds (Library.storeBytes memory region.start bytes region.size) region
      bytes := by
  intro offset inside
  have fits := region.fits
  exact storeBytes_inside inside (by omega)

/-- A region holds its bytes while other regions are written. -/
theorem of_unchangedOutside
    (holds : Holds before region bytes)
    (unchanged : UnchangedOutside regions before after)
    (apart : ∀ other ∈ regions, region.Apart other) :
    Holds after region bytes := by
  intro offset inside
  rw [← holds offset inside]
  refine unchanged _ fun other member => ?_
  exact (apart other member).not_contains (region.contains_offset inside)

/-- The bytes of a region as a list. -/
theorem loadBytes (holds : Holds before region bytes) :
    Library.loadBytes before region.start region.size =
      (List.range region.size).map bytes := by
  refine List.map_congr_left fun offset inside => ?_
  exact holds offset (List.mem_range.mp inside)

/-- The first bytes of a region as a list. -/
theorem loadBytes_front
    {front back : List (BitVec 8)}
    (holds : Holds before region (bytesOf (front ++ back)))
    (inside : front.length ≤ region.size) :
    Library.loadBytes before region.start front.length = front := by
  refine List.ext_getElem ?_ fun offset listed short => ?_
  · rw [Library.loadBytes, List.length_map, List.length_range]
  · simp only [Library.loadBytes, List.getElem_map, List.getElem_range,
      bytesAt]
    rw [holds offset (by omega), bytesOf, List.getD_eq_getElem?_getD,
      List.getElem?_append_left short, List.getElem?_eq_getElem short,
      Option.getD_some]

end Holds

end HobbyOS.Library
