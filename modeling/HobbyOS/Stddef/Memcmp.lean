import Mathlib.Data.Nat.Find
import HobbyOS.Stddef

namespace HobbyOS

open Library

/-!
# The order of byte strings

`memcmp` returns the difference of the first bytes that differ, in the 8 bits
of an `int8_t`.  The difference of two bytes has 9 bits, so it keeps its sign
only if the bytes are near each other.
-/

/-! ## Differences of machine words -/

section Differences

variable
  {width : Nat}
  {x y : BitVec width}

/-- The difference of two words, as numbers. -/
def exactDifference (x y : BitVec width) : Int :=
  x.toNat - y.toNat

/-- The difference the other way round. -/
theorem exactDifference_neg (x y : BitVec width) :
    exactDifference y x = -exactDifference x y := by
  rw [exactDifference, exactDifference, Int.neg_sub]

/-- A difference within half the range is kept. -/
theorem toInt_sub_of_near
    (near : 2 * (exactDifference x y).natAbs < 2 ^ width) :
    (x - y).toInt = exactDifference x y := by
  have xBound := x.isLt
  have yBound := y.isLt
  rw [exactDifference] at near ⊢
  rw [BitVec.toInt_eq_toNat_cond, BitVec.toNat_sub]
  generalize 2 ^ width = range at *
  rcases Nat.lt_or_ge x.toNat y.toNat with below | above
  · rw [Nat.mod_eq_of_lt (by omega)]
    split
    · omega
    · omega
  · have sum : range - y.toNat + x.toNat = x.toNat - y.toNat + range := by
      omega
    rw [sum, Nat.add_mod_right, Nat.mod_eq_of_lt (by omega)]
    split
    · omega
    · omega

/-- A difference beyond half the range has the wrong sign one way round. -/
theorem sign_sub_of_far
    (far : 2 ^ width ≤ 2 * (exactDifference x y).natAbs)
    (sign : (x - y).toInt.sign = (exactDifference x y).sign) :
    (y - x).toInt.sign ≠ (exactDifference y x).sign := by
  have xBound := x.isLt
  have yBound := y.isLt
  rw [exactDifference] at far sign
  rw [exactDifference]
  rw [BitVec.toInt_eq_toNat_cond, BitVec.toNat_sub] at sign ⊢
  generalize 2 ^ width = range at *
  rcases Nat.lt_or_ge x.toNat y.toNat with below | above
  · have positive : ((y.toNat : Int) - x.toNat).sign = 1 :=
      Int.sign_eq_one_of_pos (by omega)
    have sum : range - x.toNat + y.toNat = y.toNat - x.toNat + range := by
      omega
    rw [positive, sum, Nat.add_mod_right, Nat.mod_eq_of_lt (by omega),
      if_neg (by omega), Int.sign_eq_neg_one_of_neg (by omega)]
    decide
  · have positive : ((x.toNat : Int) - y.toNat).sign = 1 :=
      Int.sign_eq_one_of_pos (by omega)
    have sum : range - y.toNat + x.toNat = x.toNat - y.toNat + range := by
      omega
    rw [positive, sum, Nat.add_mod_right, Nat.mod_eq_of_lt (by omega),
      if_neg (by omega), Int.sign_eq_neg_one_of_neg (by omega)] at sign
    cases sign

end Differences

/-! ## The first bytes that differ -/

/-- The bytes at an offset are the first ones that differ. -/
structure FirstDifference
    (memory : Memory)
    (a b : PtrT)
    (length : SizeT)
    (offset : Nat) :
    Prop where
  inside : offset < length.toNat
  before :
    ∀ earlier < offset,
      memory (a + BitVec.ofNat 32 earlier) =
        memory (b + BitVec.ofNat 32 earlier)
  differ :
    memory (a + BitVec.ofNat 32 offset) ≠ memory (b + BitVec.ofNat 32 offset)

section Comparison

variable
  {memory : Memory}
  {a b : PtrT}
  {length : SizeT}
  {offset : Nat}

/-- The first difference of two strings is that of the strings exchanged. -/
theorem FirstDifference.symm
    (first : FirstDifference memory a b length offset) :
    FirstDifference memory b a length offset where
  inside := first.inside
  before := fun earlier inside => (first.before earlier inside).symm
  differ := first.differ.symm

/-- Strings that do not agree have a first difference. -/
theorem exists_firstDifference
    (differ :
      ¬∀ offset < length.toNat,
        memory (a + BitVec.ofNat 32 offset) =
          memory (b + BitVec.ofNat 32 offset)) :
    ∃ offset, FirstDifference memory a b length offset := by
  have somewhere :
      ∃ offset,
        offset < length.toNat ∧
          memory (a + BitVec.ofNat 32 offset) ≠
            memory (b + BitVec.ofNat 32 offset) := by
    simpa only [not_forall, exists_prop] using differ
  classical
  obtain ⟨inside, different⟩ := Nat.find_spec somewhere
  refine ⟨Nat.find somewhere, inside, fun earlier before => ?_, different⟩
  by_contra unequal
  exact Nat.find_min somewhere before ⟨Nat.lt_trans before inside, unequal⟩

/-- The loop returns the difference at the first offset where there is one. -/
theorem memcmpLoop_of_differ
    {length : Nat}
    (diff : Byte)
    (inside : offset < length)
    (before :
      ∀ earlier < offset,
        memory (a + BitVec.ofNat 32 earlier) =
          memory (b + BitVec.ofNat 32 earlier))
    (differ :
      memory (a + BitVec.ofNat 32 offset) ≠
        memory (b + BitVec.ofNat 32 offset)) :
    memcmpLoop memory length a b diff =
      memory (a + BitVec.ofNat 32 offset) -
        memory (b + BitVec.ofNat 32 offset) := by
  have nonzero {x y : Byte} (different : x ≠ y) : x - y ≠ 0 := by
    intro zero
    apply different
    bv_omega
  induction length generalizing a b offset diff with
  | zero =>
      cases inside
  | succ length inductionHypothesis =>
      have start (address : PtrT) : address + BitVec.ofNat 32 0 = address :=
        BitVec.add_zero address
      rw [memcmpLoop]
      cases offset with
      | zero =>
          rw [start, start] at differ ⊢
          rw [if_pos (nonzero differ)]
      | succ offset =>
          have equal := before 0 (Nat.succ_pos offset)
          rw [start, start] at equal
          have none : memory a - memory b = 0 := by
            rw [equal, BitVec.sub_self]
            rfl
          rw [if_neg (not_not.mpr none), ← add_one_add_ofNat,
            ← add_one_add_ofNat]
          refine
            inductionHypothesis _ (Nat.lt_of_succ_lt_succ inside)
              (fun earlier ahead => ?_) ?_
          · rw [add_one_add_ofNat, add_one_add_ofNat]
            exact before (earlier + 1) (Nat.succ_lt_succ ahead)
          · rw [add_one_add_ofNat, add_one_add_ofNat]
            exact differ

/-- `memcmp` returns the difference of the first bytes that differ. -/
theorem FirstDifference.memcmp_eq
    (first : FirstDifference memory a b length offset) :
    memcmp memory a b length =
      memory (a + BitVec.ofNat 32 offset) -
        memory (b + BitVec.ofNat 32 offset) :=
  memcmpLoop_of_differ 0 first.inside first.before first.differ

end Comparison

/--
`memcmp` orders the strings: 0 is returned for equal ones, and otherwise the
sign is that of the first difference, so that it changes with the arguments.
-/
structure OrdersBytes
    (memory : Memory)
    (a b : PtrT)
    (length : SizeT) :
    Prop where
  zero :
    memcmp memory a b length = 0 ↔
      ∀ offset < length.toNat,
        memory (a + BitVec.ofNat 32 offset) =
          memory (b + BitVec.ofNat 32 offset)
  sign :
    ∀ offset,
      FirstDifference memory a b length offset →
      (memcmp memory a b length).toInt.sign =
        (exactDifference (memory (a + BitVec.ofNat 32 offset))
          (memory (b + BitVec.ofNat 32 offset))).sign
  opposite :
    (memcmp memory b a length).toInt.sign =
      -(memcmp memory a b length).toInt.sign

/-- Near bytes leave their exact difference. -/
theorem FirstDifference.toInt_memcmp
    {memory : Memory}
    {a b : PtrT}
    {length : SizeT}
    {offset : Nat}
    (first : FirstDifference memory a b length offset)
    (near :
      (exactDifference (memory (a + BitVec.ofNat 32 offset))
        (memory (b + BitVec.ofNat 32 offset))).natAbs ≤ 127) :
    (memcmp memory a b length).toInt =
      exactDifference (memory (a + BitVec.ofNat 32 offset))
        (memory (b + BitVec.ofNat 32 offset)) := by
  rw [first.memcmp_eq]
  exact toInt_sub_of_near (by omega)

/-- Strings whose first differing bytes are near are ordered. -/
theorem ordersBytes_of_near
    {memory : Memory}
    {a b : PtrT}
    {length : SizeT}
    (near :
      ∀ offset,
        FirstDifference memory a b length offset →
        (exactDifference (memory (a + BitVec.ofNat 32 offset))
          (memory (b + BitVec.ofNat 32 offset))).natAbs ≤ 127) :
    OrdersBytes memory a b length := by
  refine ⟨memcmp_eq_zero_iff memory a b length, fun offset first => ?_, ?_⟩
  · rw [first.toInt_memcmp (near offset first)]
  · by_cases same :
        ∀ offset < length.toNat,
          memory (a + BitVec.ofNat 32 offset) =
            memory (b + BitVec.ofNat 32 offset)
    · rw [(memcmp_eq_zero_iff memory a b length).mpr same,
        (memcmp_eq_zero_iff memory b a length).mpr
          fun offset inside => (same offset inside).symm]
      rfl
    · obtain ⟨offset, first⟩ := exists_firstDifference same
      have small := near offset first
      have exchanged :=
        exactDifference_neg (memory (a + BitVec.ofNat 32 offset))
          (memory (b + BitVec.ofNat 32 offset))
      rw [first.toInt_memcmp small,
        first.symm.toInt_memcmp (by rwa [exchanged, Int.natAbs_neg]),
        exchanged, Int.sign_neg]

/--
`memcmp` orders two strings exactly if the first bytes that differ, if there
are any, differ by at most 127.
-/
theorem memcmp_ordersBytes_iff
    (memory : Memory)
    (a b : PtrT)
    (length : SizeT) :
    OrdersBytes memory a b length ↔
      ∀ offset,
        FirstDifference memory a b length offset →
        (exactDifference (memory (a + BitVec.ofNat 32 offset))
          (memory (b + BitVec.ofNat 32 offset))).natAbs ≤ 127 := by
  constructor
  · intro orders offset first
    by_contra far
    have sign := orders.sign offset first
    have opposite := orders.opposite
    rw [first.memcmp_eq] at sign opposite
    rw [first.symm.memcmp_eq, sign, ← Int.sign_neg,
      ← exactDifference_neg] at opposite
    exact sign_sub_of_far (by omega) sign opposite
  · exact ordersBytes_of_near

/-- The bytes 0x80 and 0 are each the smaller one. -/
theorem memcmp_ordersBytes_fails :
    ¬∀ (memory : Memory) (a b : PtrT) (length : SizeT),
      OrdersBytes memory a b length := by
  intro orders
  have opposite :=
    (orders (fun address => if address = 0 then 0x80 else 0) 0 1 1).opposite
  revert opposite
  decide

end HobbyOS
