import HobbyOS.Heap.Release
import HobbyOS.PhysicalMemory.Allocation

namespace HobbyOS

open Library

/-!
# Live allocations in a tiled heap

An allocation is either the payload of a used cell of the block list, or it
lies on pages behind the end of the list, where `vmm_malloc_next_block` puts
blocks that it never links.  Two allocations that are not apart can only be
two holders of the last cell, which the search hands out whether it is used
or not.
-/

/-- The address of the first block of the heap. -/
def heapStart : Nat := 0xF00000

/-- The end of a block list that starts where the heap does. -/
def listEnd (cells : List Cell) : Nat :=
  heapStart + totalSpan cells

namespace Allocation

/-- The end of an allocation. -/
def endAddress (allocation : Allocation) : Nat :=
  allocation.pointer.toNat + allocation.size.toNat

/-- The bytes of two allocations are disjoint. -/
def Apart (first second : Allocation) : Prop :=
  first.endAddress ≤ second.pointer.toNat ∨
    second.endAddress ≤ first.pointer.toNat

/-- The bytes of an allocation lie in a range. -/
def Inside (low high : Nat) (allocation : Allocation) : Prop :=
  low ≤ allocation.pointer.toNat ∧ allocation.endAddress ≤ high

/-- An allocation is the payload of a used cell. -/
def InCell (cells : List Cell) (allocation : Allocation) : Prop :=
  ∃ address,
    allocation.pointer.toNat = address + 12 ∧
      CellAt heapStart cells address ⟨allocation.size.toNat, false⟩

/-- Apart, or the same holder of the last cell twice, where that may be. -/
def Compatible
    (sharing : Prop)
    (cells : List Cell)
    (first second : Allocation) :
    Prop :=
  first.Apart second ∨
    (sharing ∧ first = second ∧ first.endAddress = listEnd cells)

/-- Being compatible is symmetric. -/
theorem Compatible.symm
    {sharing : Prop}
    {cells : List Cell}
    {first second : Allocation}
    (compatible : Compatible sharing cells first second) :
    Compatible sharing cells second first := by
  rcases compatible with apart | ⟨shares, rfl, last⟩
  · exact Or.inl apart.symm
  · exact Or.inr ⟨shares, rfl, last⟩

/-- The payload of a cell lies inside the list. -/
theorem InCell.inside
    {cells : List Cell}
    {allocation : Allocation}
    (inCell : allocation.InCell cells) :
    heapStart + 12 ≤ allocation.pointer.toNat ∧
      allocation.endAddress ≤ listEnd cells := by
  obtain ⟨address, position, located⟩ := inCell
  have inside := located.inside
  simp only [Cell.span] at inside
  unfold endAddress listEnd
  omega

end Allocation

/-- A cell away from a replaced one stays where it is. -/
theorem CellAt.replace
    {start address : Nat}
    {front back : List Cell}
    {cell other : Cell}
    (middle : List Cell)
    (located : CellAt start (front ++ cell :: back) address other)
    (elsewhere : address ≠ start + totalSpan front)
    (aligned : back = [] ∨ totalSpan middle = cell.span) :
    CellAt start (front ++ (middle ++ back)) address other := by
  rw [cellAt_append] at located ⊢
  rcases located with inFront | ⟨here, _⟩ | inBack
  · exact Or.inl inFront
  · exact (elsewhere here).elim
  · rcases aligned with rfl | span
    · exact inBack.elim
    · rw [cellAt_append, span]
      exact Or.inr (Or.inr inBack)

/-- The cell between the front and the back of a list. -/
theorem cellAt_middle
    (start : Nat)
    (front : List Cell)
    (cell : Cell)
    (back : List Cell) :
    CellAt start (front ++ cell :: back) (start + totalSpan front)
      cell :=
  cellAt_append.mpr (Or.inr (Or.inl ⟨rfl, rfl⟩))

/-- The only cell at its address. -/
theorem CellAt.eq_middle
    {start : Nat}
    {front back : List Cell}
    {cell other : Cell}
    (located :
      CellAt start (front ++ cell :: back) (start + totalSpan front)
        other) :
    other = cell := by
  rcases located.apart (cellAt_middle start front cell back) with
    ⟨_, same⟩ | before | behind
  · exact same
  · unfold Cell.span at before
    omega
  · unfold Cell.span at behind
    omega

/--
The live allocations have their places, in cells or between the list and the
end of the heap, and are compatible.
-/
structure LivePlaced
    (sharing : Prop)
    (cells : List Cell)
    (heapEnd : Nat)
    (live : List Allocation) :
    Prop where
  positive : ∀ allocation ∈ live, 1 ≤ allocation.size.toNat
  placed :
    ∀ allocation ∈ live,
      allocation.InCell cells ∨
        allocation.Inside (listEnd cells) heapEnd
  compatible : live.Pairwise (Allocation.Compatible sharing cells)

/-- No live allocation starts at an address. -/
def NoneAt (live : List Allocation) (address : Nat) : Prop :=
  ∀ allocation ∈ live, allocation.pointer.toNat ≠ address

namespace LivePlaced

variable
  {sharing : Prop}
  {cells : List Cell}
  {heapEnd : Nat}
  {live : List Allocation}

/-- Nothing is live. -/
theorem nil : LivePlaced sharing cells heapEnd [] :=
  ⟨by simp, by simp, List.Pairwise.nil⟩

/-- More pages behind the list. -/
theorem growEnd
    (live' : LivePlaced sharing cells heapEnd live)
    {higher : Nat}
    (above : heapEnd ≤ higher) :
    LivePlaced sharing cells higher live := by
  refine ⟨live'.positive, ?_, live'.compatible⟩
  intro allocation member
  rcases live'.placed allocation member with inCell | ⟨low, high⟩
  · exact Or.inl inCell
  · exact Or.inr ⟨low, Nat.le_trans high above⟩

/-- An allocation is forgotten. -/
theorem erase
    (live' : LivePlaced sharing cells heapEnd live)
    (allocation : Allocation) :
    LivePlaced sharing cells heapEnd (live.erase allocation) := by
  refine ⟨?_, ?_, live'.compatible.sublist List.erase_sublist⟩
  · intro other member
    exact live'.positive other (List.mem_of_mem_erase member)
  · intro other member
    exact live'.placed other (List.mem_of_mem_erase member)

/-- A held allocation is compatible with the others. -/
theorem compatible_of_erase
    (live' : LivePlaced sharing cells heapEnd live)
    {allocation other : Allocation}
    (held : allocation ∈ live)
    (member : other ∈ live.erase allocation) :
    Allocation.Compatible sharing cells allocation other := by
  have arranged :=
    ((List.perm_cons_erase held).pairwise_iff
      fun compatible => Allocation.Compatible.symm compatible).mp
      live'.compatible
  exact (List.pairwise_cons.mp arranged).1 other member

/-- A list with the same end in which the allocations keep their cells. -/
theorem relist
    (live' : LivePlaced sharing cells heapEnd live)
    {later : List Cell}
    (span : totalSpan later = totalSpan cells)
    (kept :
      ∀ allocation ∈ live,
        allocation.InCell cells →
        allocation.InCell later) :
    LivePlaced sharing later heapEnd live := by
  have sameEnd : listEnd later = listEnd cells := by
    rw [listEnd, span, listEnd]
  refine ⟨live'.positive, ?_, ?_⟩
  · intro allocation member
    rw [sameEnd]
    exact (live'.placed allocation member).imp_left
      (kept allocation member)
  · refine live'.compatible.imp ?_
    intro first second compatible
    rw [Allocation.Compatible, sameEnd]
    exact compatible

/-- A cell without a holder is replaced by cells of the same span. -/
theorem replace
    {front middle back : List Cell}
    {cell : Cell}
    (live' :
      LivePlaced sharing (front ++ cell :: back) heapEnd live)
    (dead : NoneAt live (heapStart + totalSpan front + 12))
    (span : totalSpan middle = cell.span) :
    LivePlaced sharing (front ++ (middle ++ back)) heapEnd live := by
  refine live'.relist (by simp [span]) ?_
  rintro allocation member ⟨address, position, located⟩
  refine ⟨address, position, located.replace middle ?_ (Or.inr span)⟩
  rintro rfl
  exact dead allocation member position

/-- A cell is marked as used, which it may have been before. -/
theorem mark
    {front back : List Cell}
    {cell : Cell}
    (live' :
      LivePlaced sharing (front ++ cell :: back) heapEnd live) :
    LivePlaced sharing (front ++ ⟨cell.size, false⟩ :: back) heapEnd
      live := by
  refine live'.relist (by simp [Cell.span]) ?_
  rintro allocation member ⟨address, position, located⟩
  refine ⟨address, position, ?_⟩
  by_cases here : address = heapStart + totalSpan front
  · subst here
    rw [← located.eq_middle]
    exact cellAt_middle heapStart front _ back
  · exact located.replace [⟨cell.size, false⟩] here (Or.inr rfl)

/-- Nobody holds the payload of a free cell. -/
theorem noneAt_free
    {front back : List Cell}
    {cell : Cell}
    (live' :
      LivePlaced sharing (front ++ cell :: back) heapEnd live)
    (inhabited : 1 ≤ cell.size)
    (free : cell.free = true) :
    NoneAt live (heapStart + totalSpan front + 12) := by
  intro allocation member here
  rcases live'.placed allocation member with
    ⟨address, position, located⟩ | ⟨low, _⟩
  · have there : address = heapStart + totalSpan front := by omega
    subst there
    rw [← located.eq_middle] at free
    exact Bool.noConfusion free
  · simp only [listEnd, totalSpan_append, totalSpan_cons, Cell.span]
      at low
    omega

/-- A free last cell grows into pages without allocations. -/
theorem extend
    {front : List Cell}
    {cell : Cell}
    (live' : LivePlaced sharing (front ++ [cell]) heapEnd live)
    (free : cell.free = true)
    {more : Nat}
    (clear :
      ∀ allocation ∈ live,
        allocation.pointer.toNat < listEnd (front ++ [cell]) ∨
          listEnd (front ++ [cell]) + more ≤
            allocation.pointer.toNat) :
    LivePlaced sharing (front ++ [⟨cell.size + more, true⟩]) heapEnd
      live := by
  have ends :
      listEnd (front ++ [⟨cell.size + more, true⟩]) =
        listEnd (front ++ [cell]) + more := by
    simp only [listEnd, totalSpan_append, totalSpan_cons, totalSpan_nil,
      Cell.span]
    omega
  -- Nothing live is in the free cell, or ends where the list does.
  have notLast
      {allocation : Allocation}
      {address : Nat}
      (located :
        CellAt heapStart (front ++ [cell]) address
          ⟨allocation.size.toNat, false⟩) :
      address ≠ heapStart + totalSpan front ∧
        address + 12 + allocation.size.toNat ≠
          listEnd (front ++ [cell]) := by
    have elsewhere : address ≠ heapStart + totalSpan front := by
      rintro rfl
      rw [← located.eq_middle] at free
      exact Bool.noConfusion free
    refine ⟨elsewhere, ?_⟩
    rcases located.apart (cellAt_middle heapStart front cell []) with
      ⟨here, _⟩ | before | behind
    · exact (elsewhere here).elim
    · simp only [listEnd, totalSpan_append, totalSpan_cons, Cell.span]
        at before ⊢
      omega
    · have inside := located.inside
      simp only [totalSpan_append, totalSpan_cons, totalSpan_nil,
        Cell.span] at behind inside
      omega
  refine ⟨live'.positive, ?_, ?_⟩
  · intro allocation member
    rcases live'.placed allocation member with inCell | ⟨low, high⟩
    · obtain ⟨address, position, located⟩ := inCell
      exact Or.inl ⟨address, position,
        located.replace [⟨cell.size + more, true⟩] (notLast located).1
          (Or.inl rfl)⟩
    · refine Or.inr ⟨?_, high⟩
      have above := (clear allocation member).resolve_left (by omega)
      omega
  · refine live'.compatible.imp_of_mem ?_
    intro first second firstMember _ compatible
    rcases compatible with apart | ⟨_, _, last⟩
    · exact Or.inl apart
    · exfalso
      rcases live'.placed first firstMember with inCell | ⟨low, _⟩
      · obtain ⟨address, position, located⟩ := inCell
        have notEnd := (notLast located).2
        rw [Allocation.endAddress, position] at last
        exact notEnd last
      · have size := live'.positive first firstMember
        rw [Allocation.endAddress] at last
        omega

/-- A new holder of a used cell. -/
theorem holdCell
    (live' : LivePlaced sharing cells heapEnd live)
    {allocation : Allocation}
    (size : 1 ≤ allocation.size.toNat)
    (inCell : allocation.InCell cells)
    (others :
      NoneAt live allocation.pointer.toNat ∨
        (sharing ∧ allocation.endAddress = listEnd cells)) :
    LivePlaced sharing cells heapEnd (allocation :: live) := by
  have within := inCell.inside
  obtain ⟨address, position, located⟩ := inCell
  refine ⟨?_, ?_, List.pairwise_cons.mpr ⟨?_, live'.compatible⟩⟩
  · intro other member
    rcases List.mem_cons.mp member with rfl | older
    · exact size
    · exact live'.positive other older
  · intro other member
    rcases List.mem_cons.mp member with rfl | older
    · exact Or.inl ⟨address, position, located⟩
    · exact live'.placed other older
  · intro other member
    rcases live'.placed other member with otherCell | ⟨low, _⟩
    · obtain ⟨otherAddress, otherPosition, otherLocated⟩ := otherCell
      rcases located.apart otherLocated with ⟨here, same⟩ | before | behind
      · have pointers : allocation.pointer = other.pointer :=
          BitVec.eq_of_toNat_eq (by omega)
        rcases others with dead | ⟨shares, last⟩
        · exact (dead other member (by rw [pointers])).elim
        · have sizes : allocation.size.toNat = other.size.toNat :=
            congrArg Cell.size same
          refine Or.inr ⟨shares, ?_, last⟩
          cases allocation
          cases other
          simp only [Allocation.mk.injEq]
          exact ⟨pointers, BitVec.eq_of_toNat_eq sizes⟩
      · simp only [Cell.span] at before
        refine Or.inl (Or.inl ?_)
        unfold Allocation.endAddress
        omega
      · simp only [Cell.span] at behind
        refine Or.inl (Or.inr ?_)
        unfold Allocation.endAddress
        omega
    · exact Or.inl (Or.inl (Nat.le_trans within.2 low))

/-- A new allocation on new pages behind the list. -/
theorem holdBehind
    (live' : LivePlaced sharing cells heapEnd live)
    (behind : listEnd cells ≤ heapEnd)
    {allocation : Allocation}
    (size : 1 ≤ allocation.size.toNat)
    {higher : Nat}
    (inside : allocation.Inside heapEnd higher) :
    LivePlaced sharing cells higher (allocation :: live) := by
  have low := inside.1
  have high := inside.2
  have ends : heapEnd ≤ higher := by
    unfold Allocation.endAddress at high
    omega
  have grown := live'.growEnd ends
  refine ⟨?_, ?_, List.pairwise_cons.mpr ⟨?_, grown.compatible⟩⟩
  · intro other member
    rcases List.mem_cons.mp member with rfl | older
    · exact size
    · exact grown.positive other older
  · intro other member
    rcases List.mem_cons.mp member with rfl | older
    · exact Or.inr ⟨Nat.le_trans behind low, high⟩
    · exact grown.placed other older
  · intro other member
    refine Or.inl (Or.inr ?_)
    rcases live'.placed other member with inCell | ⟨_, below⟩
    · have within := inCell.inside.2
      omega
    · omega

/-- A release that frees no cell of a live allocation. -/
theorem release
    (live' : LivePlaced sharing cells heapEnd live)
    {freed : Nat}
    {later : List Cell}
    (released : Released heapStart freed cells later)
    (dead : NoneAt live (freed + 12)) :
    LivePlaced sharing later heapEnd live := by
  refine live'.relist released.span ?_
  rintro allocation member ⟨address, position, located⟩
  refine ⟨address, position, released.used ?_ rfl located⟩
  rintro rfl
  exact dead allocation member position

/-- Where sharing is excluded, live allocations are apart. -/
theorem apart
    (live' : LivePlaced False cells heapEnd live) :
    live.Pairwise Allocation.Apart := by
  refine live'.compatible.imp ?_
  rintro first second (apart | ⟨shares, _⟩)
  · exact apart
  · exact shares.elim

/-- Every live allocation lies inside the heap. -/
theorem inside
    (live' : LivePlaced sharing cells heapEnd live)
    (behind : listEnd cells ≤ heapEnd)
    {allocation : Allocation}
    (member : allocation ∈ live) :
    allocation.Inside heapStart heapEnd := by
  rcases live'.placed allocation member with inCell | ⟨low, high⟩
  · have within := inCell.inside
    exact ⟨by omega, by omega⟩
  · refine ⟨?_, high⟩
    unfold listEnd at low
    omega

end LivePlaced

end HobbyOS
