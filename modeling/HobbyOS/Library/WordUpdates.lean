import Mathlib.Data.List.Count
import Mathlib.Logic.Function.Iterate
import HobbyOS.Library.ByteMemory

namespace HobbyOS.Library

/-!
# The same update to many words

A list of words that are updated alike, one after the other.  Words of the
list may be the same or lie apart, but do not overlap otherwise.  Each word
then goes through the update as often as it occurs in the list.
-/

/-- Two words lie apart. -/
def WordsApart (first second : BitVec 32) : Prop :=
  first.toNat + 4 ≤ second.toNat ∨ second.toNat + 4 ≤ first.toNat

/-- Replace the word at each address of a list by a function of it. -/
def modifyWords
    (memory : Memory)
    (change : BitVec 32 → BitVec 32)
    (addresses : List (BitVec 32)) :
    Memory :=
  addresses.foldl (fun memory address => modifyWord memory address change)
    memory

section Updates

variable
  {change : BitVec 32 → BitVec 32}
  {addresses : List (BitVec 32)}

/-- A word goes through the update as often as it is listed. -/
theorem readWord_modifyWords
    (memory : Memory)
    {address : BitVec 32}
    (room : address.toNat + 4 ≤ 2 ^ 32)
    (rooms : ∀ other ∈ addresses, other.toNat + 4 ≤ 2 ^ 32)
    (apart :
      ∀ other ∈ addresses, other ≠ address → WordsApart other address) :
    readWord (modifyWords memory change addresses) address =
      change^[addresses.count address] (readWord memory address) := by
  induction addresses generalizing memory with
  | nil =>
      rfl
  | cons first rest inductionHypothesis =>
      rw [List.forall_mem_cons] at rooms apart
      have behind :=
        inductionHypothesis (modifyWord memory first change) rooms.2 apart.2
      rw [modifyWords] at behind
      rw [modifyWords, List.foldl_cons, behind]
      by_cases same : first = address
      · subst same
        rw [List.count_cons_self, Function.iterate_succ_apply, modifyWord,
          readWord_writeWord_self]
      · have untouched :
            readWord (modifyWord memory first change) address =
              readWord memory address := by
          refine readWord_writeWord_of_apart memory _ rooms.1 room ?_
          exact (apart.1 same).symm
        rw [List.count_cons_of_ne same, untouched]

/-- Bytes outside of the listed words stay. -/
theorem modifyWords_outside
    (memory : Memory)
    (rooms : ∀ other ∈ addresses, other.toNat + 4 ≤ 2 ^ 32)
    {target : BitVec 32}
    (outside :
      ∀ other ∈ addresses,
        target.toNat < other.toNat ∨ other.toNat + 4 ≤ target.toNat) :
    modifyWords memory change addresses target = memory target := by
  induction addresses generalizing memory with
  | nil =>
      rfl
  | cons first rest inductionHypothesis =>
      rw [List.forall_mem_cons] at rooms outside
      rw [modifyWords, List.foldl_cons]
      refine (inductionHypothesis _ rooms.2 outside.2).trans ?_
      exact writeWord_agreeOutside memory _ rooms.1 target outside.1

end Updates

end HobbyOS.Library
