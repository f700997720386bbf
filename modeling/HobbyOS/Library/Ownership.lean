import Mathlib.Data.List.Basic
import Mathlib.Data.List.Perm.Lattice
import HobbyOS.Library.TransitionSystem

namespace HobbyOS.Library

/-!
# Ledgers of exclusively owned resources

An allocator of any kind hands out entries, and every entry owns some of the
resources of an arena.  A ledger is a list of entries that carries the proof
that no resource has two owners and that only resources of the arena are
owned.  Its transition system is what an allocator is for: a request is
granted fresh resources or refused, and a granted entry can be returned.
-/

/-- The granted entries, with exclusive ownership inside the arena. -/
structure Ledger
    {Entry Resource : Type}
    (owns : Entry → Resource → Prop)
    (arena : Resource → Prop) where
  entries : List Entry
  exclusive :
    entries.Pairwise fun first second =>
      ∀ resource, owns first resource → ¬owns second resource
  inside :
    ∀ entry ∈ entries,
      ∀ resource, owns entry resource → arena resource

/-- The requests and returns a ledger answers. -/
inductive LedgerEvent (Request Entry : Type) where
  | request : Request → LedgerEvent Request Entry
  | release : Entry → LedgerEvent Request Entry

namespace Ledger

variable
  {Entry Resource Request : Type}
  {owns : Entry → Resource → Prop}
  {arena : Resource → Prop}

/-- A resource is owned when some granted entry owns it. -/
def Owned
    (ledger : Ledger owns arena)
    (resource : Resource) :
    Prop :=
  ∃ entry ∈ ledger.entries, owns entry resource

/-- Nothing has been granted yet. -/
def empty : Ledger owns arena where
  entries := []
  exclusive := .nil
  inside := by
    intro entry member
    simp at member

/-- Grant an entry whose resources are in the arena and have no owner. -/
def grant
    (ledger : Ledger owns arena)
    (entry : Entry)
    (fresh :
      ∀ resource,
        owns entry resource →
        arena resource ∧ ¬ledger.Owned resource) :
    Ledger owns arena where
  entries := entry :: ledger.entries
  exclusive := by
    refine List.pairwise_cons.mpr ⟨?_, ledger.exclusive⟩
    intro other member resource owned otherOwned
    exact (fresh resource owned).2 ⟨other, member, otherOwned⟩
  inside := by
    intro other member resource owned
    rcases List.mem_cons.mp member with rfl | granted
    · exact (fresh resource owned).1
    · exact ledger.inside other granted resource owned

/-- Take back one granted entry. -/
def release
    [DecidableEq Entry]
    (ledger : Ledger owns arena)
    (entry : Entry) :
    Ledger owns arena where
  entries := ledger.entries.erase entry
  exclusive := ledger.exclusive.sublist List.erase_sublist
  inside := by
    intro other member
    exact ledger.inside other (List.mem_of_mem_erase member)

@[simp] theorem owned_empty
    (resource : Resource) :
    ¬(empty : Ledger owns arena).Owned resource := by
  simp [Owned, empty]

/-- Granting adds exactly the resources of the new entry. -/
theorem owned_grant
    (ledger : Ledger owns arena)
    {entry : Entry}
    (fresh :
      ∀ resource,
        owns entry resource →
        arena resource ∧ ¬ledger.Owned resource)
    (resource : Resource) :
    (ledger.grant entry fresh).Owned resource ↔
      owns entry resource ∨ ledger.Owned resource := by
  simp [Owned, grant]

/-- Releasing gives back exactly the resources of the released entry. -/
theorem owned_release
    [DecidableEq Entry]
    (ledger : Ledger owns arena)
    {entry : Entry}
    (granted : entry ∈ ledger.entries)
    (resource : Resource) :
    (ledger.release entry).Owned resource ↔
      ledger.Owned resource ∧ ¬owns entry resource := by
  have arranged :
      (entry :: ledger.entries.erase entry).Pairwise
        fun first second =>
          ∀ resource, owns first resource → ¬owns second resource := by
    refine (List.Perm.pairwise_iff ?_
      (List.perm_cons_erase granted)).mp ledger.exclusive
    intro first second apart resource owned other
    exact apart resource other owned
  have others := (List.pairwise_cons.mp arranged).1
  constructor
  · rintro ⟨other, member, owned⟩
    refine ⟨⟨other, List.mem_of_mem_erase member, owned⟩, ?_⟩
    intro entryOwns
    exact others other member resource entryOwns owned
  · rintro ⟨⟨other, member, owned⟩, notEntry⟩
    have different : other ≠ entry := by
      rintro rfl
      exact notEntry owned
    exact ⟨other, (List.mem_erase_of_ne different).mpr member, owned⟩

/-- The abstract allocator: grant what `fits` the request, or refuse. -/
inductive Step
    [DecidableEq Entry]
    (fits : Request → Entry → Prop) :
    LedgerEvent Request Entry →
    Ledger owns arena →
    Ledger owns arena →
    Prop where
  | grant
      {request : Request}
      {entry : Entry}
      {ledger : Ledger owns arena}
      (fitting : fits request entry)
      (fresh :
        ∀ resource,
          owns entry resource →
          arena resource ∧ ¬ledger.Owned resource) :
      Step fits (.request request) ledger
        (ledger.grant entry fresh)
  | refuse
      {request : Request}
      {ledger : Ledger owns arena} :
      Step fits (.request request) ledger ledger
  | release
      {entry : Entry}
      {ledger : Ledger owns arena}
      (granted : entry ∈ ledger.entries) :
      Step fits (.release entry) ledger (ledger.release entry)

end Ledger

end HobbyOS.Library
