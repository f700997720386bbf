import Mathlib.Data.Nat.Bitwise
import HobbyOS.Stddef

namespace HobbyOS

/-!
# Page-table and page-directory entries

The entry macros of `virtual_memory_manager.h` as functions of the entry
word, and what they do to the frame field, the present bit and the
read/write bit.  `VMM_SET_FRAME` clears bits 12 to 30 only, so bit 31 of an
old frame stays, and it adds the whole address, low bits included.
-/

/-- `PTE_PRESENT` and `PDE_PRESENT`. -/
def ptePresent : BitVec 32 := 0x01

/-- `PTE_READ_WRITE` and `PDE_READ_WRITE`. -/
def pteReadWrite : BitVec 32 := 0x02

/-- `VMM_PD_INDEX`. -/
def vmmPdIndex (vaddr : AddrT) : BitVec 32 :=
  vaddr >>> 22

/-- `VMM_PT_INDEX`. -/
def vmmPtIndex (vaddr : AddrT) : BitVec 32 :=
  (vaddr >>> 12) &&& 0x3FF

/-- `VMM_PAGE_PHYSICAL_ADDRESS`. -/
def vmmPagePhysicalAddress (entry : BitVec 32) : BitVec 32 :=
  entry &&& ~~~0xFFF#32

/-- `VMM_SET_ATTRIBUTE`. -/
def vmmSetAttribute (attr entry : BitVec 32) : BitVec 32 :=
  entry ||| attr

/-- `VMM_CLEAR_ATTRIBUTE`. -/
def vmmClearAttribute (attr entry : BitVec 32) : BitVec 32 :=
  entry &&& ~~~attr

/-- `VMM_TEST_ATTRIBUTE`. -/
def vmmTestAttribute (attr entry : BitVec 32) : Bool :=
  entry &&& attr != 0

/-- `VMM_SET_FRAME`. -/
def vmmSetFrame (address entry : BitVec 32) : BitVec 32 :=
  (entry &&& ~~~0x7FFFF000#32) ||| address

/-- The page of an address, as a number. -/
def pageNumber (vaddr : AddrT) : Nat :=
  vaddr.toNat / 4096

/-- The directory index is the page number over 1024. -/
theorem toNat_vmmPdIndex (vaddr : AddrT) :
    (vmmPdIndex vaddr).toNat = pageNumber vaddr / 1024 := by
  rw [vmmPdIndex, pageNumber, BitVec.toNat_ushiftRight,
    Nat.shiftRight_eq_div_pow, Nat.div_div_eq_div_mul]

/-- The table index is the page number modulo 1024. -/
theorem toNat_vmmPtIndex (vaddr : AddrT) :
    (vmmPtIndex vaddr).toNat = pageNumber vaddr % 1024 := by
  rw [vmmPtIndex, pageNumber, BitVec.toNat_and,
    BitVec.toNat_ushiftRight, Nat.shiftRight_eq_div_pow]
  exact Nat.and_two_pow_sub_one_eq_mod _ 10

/-- Page numbers are 20-bit. -/
theorem pageNumber_lt (vaddr : AddrT) : pageNumber vaddr < 2 ^ 20 := by
  have bounded := vaddr.isLt
  unfold pageNumber
  omega

/-- An address is page aligned when its low twelve bits are clear. -/
def PageAligned (address : BitVec 32) : Prop :=
  vmmPagePhysicalAddress address = address

/-- The frame field is page aligned. -/
theorem pageAligned_vmmPagePhysicalAddress (entry : BitVec 32) :
    PageAligned (vmmPagePhysicalAddress entry) := by
  simp only [PageAligned, vmmPagePhysicalAddress, BitVec.and_assoc,
    BitVec.and_self]

/-- Page alignment in terms of the number. -/
theorem pageAligned_iff (address : BitVec 32) :
    PageAligned address ↔ address.toNat % 4096 = 0 := by
  have mask :
      ∀ bit : Fin 32,
        (~~~0xFFF#32).getLsbD bit.val = decide (12 ≤ bit.val) := by
    decide
  have low
      (bit : Nat) :
      (address.toNat % 2 ^ 12).testBit bit =
        (decide (bit < 12) && address.getLsbD bit) :=
    Nat.testBit_mod_two_pow _ _ _
  constructor
  · intro aligned
    apply Nat.eq_of_testBit_eq
    intro bit
    rw [show (4096 : Nat) = 2 ^ 12 from rfl, low bit, Nat.zero_testBit]
    by_cases small : bit < 12
    · have same :=
        congrArg (fun word => word.getLsbD bit) aligned
      simp only [vmmPagePhysicalAddress, BitVec.getLsbD_and] at same
      have cleared := mask ⟨bit, by omega⟩
      simp only [show ¬12 ≤ bit by omega, decide_false] at cleared
      rw [cleared, Bool.and_false] at same
      rw [← same, Bool.and_false]
    · simp [small]
  · intro zero
    apply BitVec.eq_of_getLsbD_eq
    intro bit bound
    have kept := mask ⟨bit, bound⟩
    simp only [vmmPagePhysicalAddress, BitVec.getLsbD_and] at kept ⊢
    rw [kept]
    by_cases small : bit < 12
    · have clear := low bit
      rw [show (2 : Nat) ^ 12 = 4096 from rfl, zero, Nat.zero_testBit]
        at clear
      simp only [small, decide_true, Bool.true_and] at clear
      rw [← clear, Bool.false_and]
    · simp [show 12 ≤ bit by omega]

/-- The present bit is bit 0. -/
theorem vmmTestAttribute_ptePresent (entry : BitVec 32) :
    vmmTestAttribute ptePresent entry = entry.getLsbD 0 := by
  have bit : ptePresent = BitVec.twoPow 32 0 := by decide
  rw [vmmTestAttribute, bit, BitVec.and_twoPow]
  cases entry.getLsbD 0 <;> decide

/-- Setting an attribute and then the frame keeps only bit 31 of the frame. -/
theorem vmmPagePhysicalAddress_vmmSetFrame
    (address entry : BitVec 32) :
    vmmPagePhysicalAddress (vmmSetFrame address entry) =
      (entry &&& 0x80000000#32) ||| vmmPagePhysicalAddress address := by
  have masks : ~~~0x7FFFF000#32 &&& ~~~0xFFF#32 = 0x80000000#32 := by
    decide
  rw [vmmPagePhysicalAddress, vmmSetFrame, BitVec.and_or_distrib_right,
    BitVec.and_assoc, masks]
  rfl

end HobbyOS
