import HobbyOS.Heap.PageMapping

namespace HobbyOS

open Library

/-!
# The block list tiles the heap

The list ends where the pages of the heap do, as long as no request grows the
heap behind a used block: the block that is put there is never linked.  The
last block may be handed out several times as a whole, but a split of it must
not find a holder.
-/

/--
The list that starts at the first page ends with the last one, and every live
allocation is the payload of a used block.
-/
structure HeapTiled (client : HeapClient) (cells : List Cell) : Prop where
  nonempty : cells ≠ []
  head : client.kernel.heap.mallocHead = client.kernel.heap.mallocVaddr
  segment :
    Segment client.kernel.heap.memory 0
      client.kernel.heap.mallocVaddr.toNat cells
  ends :
    client.kernel.heap.mallocVaddr.toNat + totalSpan cells =
      client.kernel.heap.endAddress
  live :
    ∀ allocation ∈ client.live,
      ∃ address,
        allocation.pointer.toNat = address + 12 ∧
          CellAt client.kernel.heap.mallocVaddr.toNat cells address
            ⟨allocation.size.toNat, false⟩

/-- For the tiling, the last block may be shared, but nothing detached. -/
def tiling : Tolerance where
  sharing := True
  detached := False

/-- A list that reaches the end of the heap tiles it. -/
theorem HeapLayout.tiled
    {client : HeapClient}
    {cells : List Cell}
    (layout : HeapLayout tiling client cells) :
    HeapTiled client cells := by
  have start : client.kernel.heap.mallocVaddr.toNat = heapStart := by
    rw [layout.vaddr]
    rfl
  have ends : listEnd cells = client.kernel.heap.endAddress :=
    layout.reaches.resolve_left id
  refine
    { nonempty := layout.nonempty
      head := layout.head.trans layout.vaddr.symm
      segment := by rw [start]; exact layout.segment
      ends := by rw [start]; exact ends
      live := ?_ }
  intro allocation member
  rw [start]
  rcases layout.live.placed allocation member with inCell | ⟨low, high⟩
  · exact inCell
  · -- There is no room behind the end of the list.
    have positive := layout.live.positive allocation member
    unfold Allocation.endAddress at high
    omega

/-- Every run whose calls meet the condition keeps the heap tiled. -/
theorem heapRun_tiled
    {kernel : Kernel}
    {size : SizeT}
    (fresh : KeepsFresh size)
    {calls : List HeapCall}
    {client : HeapClient}
    (run :
      Run (Guarded (KeepsLayout tiling) HeapStep)
        (freshHeap kernel size) calls client) :
    ∃ cells, HeapTiled client cells := by
  obtain ⟨cells, layout⟩ := heapRun_layout fresh run
  exact ⟨cells, layout.tiled⟩

/-- Three splits and a free of the first block keep the heap tiled. -/
theorem heapRun_tiled_split :
    ∃ client,
      Run (Guarded (KeepsLayout tiling) HeapStep)
          (freshHeap ⟨bootedPaging, noHeap⟩ 1)
          [.malloc 100, .malloc 200, .malloc 300, .free ⟨0xF0000C, 100⟩]
          client ∧
        client.live = [⟨0xF00150, 300⟩, ⟨0xF0007C, 200⟩] ∧
        ∃ cells, HeapTiled client cells := by
  have fresh : KeepsFresh 1 := by decide
  obtain ⟨client, run, live⟩ :=
    @HeapLayout.splitsAndFrees tiling ⟨bootedPaging, noHeap⟩ 1 100 200 300
      fresh (by decide) (by decide) bootedPaging_canServe
  exact ⟨client, run, live.trans (by decide), heapRun_tiled fresh run⟩

/-- An allocation at the first block is backed by a used block there. -/
theorem HeapTiled.head_used
    {client : HeapClient}
    {cells : List Cell}
    (tiled : HeapTiled client cells)
    (start : client.kernel.heap.mallocVaddr = pointer heapStart)
    {allocation : Allocation}
    (member : allocation ∈ client.live)
    (first : allocation.pointer.toNat = heapStart + 12) :
    blockFree client.kernel.heap.memory (pointer heapStart) = false := by
  have value : (pointer heapStart).toNat = heapStart := rfl
  have segment := tiled.segment
  obtain ⟨address, position, located⟩ := tiled.live allocation member
  obtain ⟨cell, rest, rfl⟩ := List.exists_cons_of_ne_nil tiled.nonempty
  rw [start, value] at segment located
  have here : address = heapStart := by omega
  rw [here] at located
  have same : (⟨allocation.size.toNat, false⟩ : Cell) = cell :=
    CellAt.eq_middle
      (show CellAt heapStart ([] ++ cell :: rest)
        (heapStart + totalSpan []) _ from located)
  rw [← same] at segment
  exact segment.1.2.free

/-- A single block is handed out as a whole, and then split. -/
theorem heapRun_splitsHeld
    {client : HeapClient}
    {size whole : SizeT}
    {free : Bool}
    (positive : 1 ≤ size.toNat)
    (header :
      Header client.kernel.heap.memory client.kernel.heap.mallocHead whole
        free 0)
    (other : whole ≠ size)
    (larger : size + headerSize < whole)
    (notNull : client.kernel.heap.mallocHead + headerSize ≠ 0)
    (served : client.kernel.CanServe) :
    Run HeapStep client [.malloc whole, .malloc size]
      { kernel :=
          { client.kernel with
            heap :=
              { client.kernel.heap with
                memory :=
                  vmmMallocSplit
                    (setBlockFree client.kernel.heap.memory
                      client.kernel.heap.mallocHead false)
                    client.kernel.heap.mallocHead size } }
        live :=
          ⟨client.kernel.heap.mallocHead + headerSize, size⟩ ::
            ⟨client.kernel.heap.mallocHead + headerSize, whole⟩ ::
            client.live } := by
  have wholePositive : 1 ≤ whole.toNat :=
    Nat.lt_of_le_of_lt (Nat.zero_le _) (BitVec.lt_def.mp larger)
  have first := vmmMallocNextBlock_exactly wholePositive header 0
  obtain ⟨⟨paging, heap⟩, live⟩ := client
  have second :=
    @vmmMallocNextBlock_splits
      ⟨paging,
        { heap with
          memory := setBlockFree heap.memory heap.mallocHead false }⟩
      size whole false positive (header.setFree false) other larger 0
  have run :=
    (Run.nil.snoc
      (HeapStep.malloc wholePositive first (served.withHeap _))).snoc
      (HeapStep.malloc positive second (served.withHeap _))
  simp only [HeapClient.keep, if_neg notNull] at run
  exact run

/--
The only block is split under its holder, and becomes free although the
holder is still live.
-/
theorem heapRun_tiled_fails :
    ¬∀ (kernel : Kernel) (size : SizeT) (calls : List HeapCall)
        (client : HeapClient),
        1 ≤ size.toNat →
        (vmmMallocInit kernel size).CanServe →
        Run HeapStep (freshHeap kernel size) calls client →
        ∃ cells, HeapTiled client cells := by
  intro claimed
  have header := vmmMallocInit_header ⟨bootedPaging, noHeap⟩ 1
  have whole : initialPages 1 * 4096 - headerSize = 4084 := by decide
  rw [whole] at header
  have run :=
    @heapRun_splitsHeld (freshHeap ⟨bootedPaging, noHeap⟩ 1) 1 4084 true
      (by decide) header (by decide) (by decide) (by decide)
      bootedPaging_canServe
  have freed :
      (freeFrom 0xF0000C 3
          (vmmMallocSplit
            (setBlockFree
              (vmmMallocInit ⟨bootedPaging, noHeap⟩ 1).heap.memory
              (pointer heapStart) false)
            (pointer heapStart) 1)
          (pointer heapStart) 0).any
        (fun memory => blockFree memory (pointer heapStart)) =
        true := by
    decide +kernel
  obtain ⟨memory, returned, free⟩ := (Option.any_eq_true _ _).mp freed
  obtain ⟨cells, tiled⟩ :=
    claimed _ 1 _ _ (by decide) bootedPaging_canServe
      (run.snoc
        (HeapStep.free List.mem_cons_self
          (vmmMallocFree_of_freeFrom returned)))
  have held :
      (⟨0xF0000C, 4084⟩ : Allocation) ∈
        ([⟨0xF0000C, 1⟩, ⟨0xF0000C, 4084⟩] : List Allocation).erase
          ⟨0xF0000C, 1⟩ := by
    decide
  have used := tiled.head_used rfl held rfl
  exact absurd (used.symm.trans free) (by decide)

end HobbyOS
