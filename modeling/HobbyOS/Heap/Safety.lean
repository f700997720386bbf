import HobbyOS.Heap.PageMapping

namespace HobbyOS

open Library

/-!
# Heap safety

Live allocations are disjoint and lie inside the heap, in every run that
avoids the branches of `vmm_malloc_next_block` and the loops of the releasing
functions that go wrong.  The search may stop at the last block although it
is used; then an exact fit or a split hands it out a second time.
-/

/-- Live allocations are disjoint and lie inside the pages of the heap. -/
structure HeapSafe (client : HeapClient) : Prop where
  apart : client.live.Pairwise Allocation.Apart
  inside :
    ∀ allocation ∈ client.live,
      allocation.Inside client.kernel.heap.mallocVaddr.toNat
        client.kernel.heap.endAddress

/-- For safety, blocks may be detached, but not shared. -/
def safety : Tolerance where
  sharing := False
  detached := True

/-- Every run whose calls meet the condition is safe. -/
theorem heapRun_safe
    {kernel : Kernel}
    {size : SizeT}
    (fresh : KeepsFresh size)
    {calls : List HeapCall}
    {client : HeapClient}
    (run :
      Run (Guarded (KeepsLayout safety) HeapStep)
        (freshHeap kernel size) calls client) :
    HeapSafe client := by
  obtain ⟨cells, layout⟩ := heapRun_layout fresh run
  refine ⟨layout.live.apart, ?_⟩
  intro allocation member
  have start : (pointer heapStart).toNat = heapStart := rfl
  rw [layout.vaddr, start]
  exact layout.live.inside layout.behind member

/-- Three splits and a free of the first block are safe. -/
theorem heapRun_safe_split :
    ∃ client,
      Run (Guarded (KeepsLayout safety) HeapStep)
          (freshHeap ⟨bootedPaging, noHeap⟩ 1)
          [.malloc 100, .malloc 200, .malloc 300, .free ⟨0xF0000C, 100⟩]
          client ∧
        client.live = [⟨0xF00150, 300⟩, ⟨0xF0007C, 200⟩] ∧
        HeapSafe client := by
  have fresh : KeepsFresh 1 := by decide
  obtain ⟨client, run, live⟩ :=
    @HeapLayout.splitsAndFrees safety ⟨bootedPaging, noHeap⟩ 1 100 200 300
      fresh (by decide) (by decide) bootedPaging_canServe
  exact ⟨client, run, live.trans (by decide), heapRun_safe fresh run⟩

/-- Two requests for the whole of a single block are given the same one. -/
theorem heapRun_exactlyTwice
    {client : HeapClient}
    {size : SizeT}
    {free : Bool}
    (positive : 1 ≤ size.toNat)
    (header :
      Header client.kernel.heap.memory client.kernel.heap.mallocHead size
        free 0)
    (notNull : client.kernel.heap.mallocHead + headerSize ≠ 0)
    (served : client.kernel.CanServe) :
    ∃ after,
      Run HeapStep client [.malloc size, .malloc size] after ∧
        after.live =
          ⟨client.kernel.heap.mallocHead + headerSize, size⟩ ::
            ⟨client.kernel.heap.mallocHead + headerSize, size⟩ ::
            client.live := by
  have first := vmmMallocNextBlock_exactly positive header 0
  obtain ⟨⟨paging, heap⟩, live⟩ := client
  have second :=
    @vmmMallocNextBlock_exactly
      ⟨paging,
        { heap with
          memory := setBlockFree heap.memory heap.mallocHead false }⟩
      size false positive (header.setFree false) 0
  have run :=
    (Run.nil.snoc (HeapStep.malloc positive first (served.withHeap _))).snoc
      (HeapStep.malloc positive second (served.withHeap _))
  refine ⟨_, run, ?_⟩
  simp only [HeapClient.keep, if_neg notNull]

/-- Two requests for the whole of a heap of one page return one block. -/
theorem heapRun_safe_fails :
    ¬∀ (kernel : Kernel) (size : SizeT) (calls : List HeapCall)
        (client : HeapClient),
        1 ≤ size.toNat →
        (vmmMallocInit kernel size).CanServe →
        (∀ call ∈ calls, call ≠ .defrag) →
        Run HeapStep (freshHeap kernel size) calls client →
        HeapSafe client := by
  intro claimed
  have header := vmmMallocInit_header ⟨bootedPaging, noHeap⟩ 1
  have whole : initialPages 1 * 4096 - headerSize = 4084 := by decide
  rw [whole] at header
  obtain ⟨client, run, live⟩ :=
    @heapRun_exactlyTwice (freshHeap ⟨bootedPaging, noHeap⟩ 1) 4084 true
      (by decide) header (by decide) bootedPaging_canServe
  have safe :=
    claimed _ 1 _ _ (by decide) bootedPaging_canServe (by decide) run
  have apart := safe.apart
  rw [live] at apart
  have overlap := (List.pairwise_cons.mp apart).1 _ List.mem_cons_self
  have size : (4084 : SizeT).toNat = 4084 := rfl
  unfold Allocation.Apart Allocation.endAddress at overlap
  dsimp only at overlap
  omega

end HobbyOS
