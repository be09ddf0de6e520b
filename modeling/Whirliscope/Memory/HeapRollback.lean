import Whirliscope.Memory.HeapRefusal
import Whirliscope.Memory.PageUndo
import Whirliscope.Memory.SpaceCoherence

/-
  The kernel heap fails to grow.

  When a frame or a page table is missing in the middle of an
  expansion, the pages mapped so far are unmapped again and
  their frames go back to the free list. The heap is as it
  was, and the request succeeds once there are enough frames.

  Key definitions include:
    * `Clear`
    * `Attempt`, `RolledBack`
    * `Event`, `HeapRun`
    * `FailsDuring`, `Restored`

  Main theorem:
    * `failed_growth_restored`
-/

------------------------------------------------------------
-- Above the Heap
------------------------------------------------------------

namespace Whirliscope

namespace Vmm

open ByteMemory FaultProgram KernelHeap

/-
  The heap ends at the end of a page, and above its end no
  address of its range is mapped.
-/
structure Clear
    (created : List Nat)
    (heap : Heap Spaces) : Prop where
  aligned : heap.heapEnd % 4096 = 0
  above :
    ∀ root ∈ heap.machine.kernelCr3 :: created, ∀ v,
      heap.heapEnd ≤ v → v < kheapBase + kheapMaxSize →
        leafOf heap.machine.paging.tables root v = none

theorem clear_light
    (created : List Nat) :
    Light (Clear created) where
  memory := fun _ _ h => ⟨h.aligned, h.above⟩
  lastBlock := fun _ _ h => ⟨h.aligned, h.above⟩
  allocated := fun _ _ h => ⟨h.aligned, h.above⟩

/- An address behind some heap pages is in none of them. -/
theorem not_inPages_above
    {start count v : Nat}
    (hLow : kheapBase ≤ start)
    (hAligned : start % 4096 = 0)
    (hAbove : start + 4096 * count ≤ v)
    (hHigh : v < kheapBase + kheapMaxSize) :
    ¬ InPages v start count := by
  rintro ⟨k, hk, hIn⟩
  unfold InPage at hIn
  simp only [kheapBase, kheapMaxSize] at hLow hHigh
  omega

/- A heap whose pages were mapped up to a higher end. -/
theorem Clear.grown
    {created frames : List Nat}
    {heap final : Heap Spaces}
    {bytes : Nat}
    (hClear : Clear created heap)
    (hLow : kheapBase ≤ heap.heapEnd)
    (hProgress :
      Progress (heap.machine.kernelCr3 :: created)
        heap.heapEnd frames heap.machine.paging
        final.machine.paging)
    (hKernel :
      final.machine.kernelCr3 = heap.machine.kernelCr3)
    (hBytes : bytes = 4096 * frames.length)
    (hEnd : final.heapEnd = heap.heapEnd + bytes) :
    Clear created final where
  aligned := by
    have hAligned := hClear.aligned
    omega
  above := by
    intro root hRoot v hAbove hHigh
    rw [hKernel] at hRoot
    rw [hEnd, hBytes] at hAbove
    rw [hProgress.kept root hRoot v
      (not_inPages_above hLow hClear.aligned hAbove hHigh)]
    exact hClear.above root hRoot v (by omega) hHigh

end Vmm

end Whirliscope

------------------------------------------------------------
-- Attempts to Grow
------------------------------------------------------------

namespace Whirliscope

namespace Vmm

open ByteMemory FaultProgram KernelHeap

/- The state in `expand_heap` after it mapped some frames. -/
structure Attempt
    (created : List Nat)
    (before : Heap Spaces)
    (frames : List Nat)
    (heap : Heap Spaces) : Prop where
  growing :
    Growing created before.heapEnd before.firstBlock frames
      heap
  progress :
    Progress (before.machine.kernelCr3 :: created)
      before.heapEnd frames before.machine.paging
      heap.machine.paging
  kernelCr3 :
    heap.machine.kernelCr3 = before.machine.kernelCr3

/-
  The translations are as before, the frames of some pages
  are free again, and so are the others that have not become
  page tables.
-/
structure RolledBack
    (created : List Nat)
    (before : Heap Spaces)
    (pages : List Nat)
    (final : Heap Spaces) : Prop where
  heapEnd : final.heapEnd = before.heapEnd
  kernelCr3 :
    final.machine.kernelCr3 = before.machine.kernelCr3
  leaves :
    SameLeaves (before.machine.kernelCr3 :: created)
      before.machine.paging final.machine.paging
  frames :
    UsesFree (before.machine.kernelCr3 :: created)
      before.machine.paging final.machine.paging
  freed : ∀ page ∈ pages, page ∈ final.machine.paging.free

theorem RolledBack.clear
    {created pages : List Nat}
    {before final : Heap Spaces}
    (hBack : RolledBack created before pages final)
    (hClear : Clear created before) :
    Clear created final where
  aligned := by
    rw [hBack.heapEnd]
    exact hClear.aligned
  above := by
    intro root hRoot v hAbove hHigh
    rw [hBack.kernelCr3] at hRoot
    rw [hBack.heapEnd] at hAbove
    rw [hBack.leaves root hRoot v]
    exact hClear.above root hRoot v hAbove hHigh

/- The state while the frames of an attempt go back. -/
structure Undoing
    (created : List Nat)
    (before heap : Heap Spaces)
    (frames : List Nat)
    (target : Nat)
    (rest : List Nat)
    (final : Heap Spaces) : Prop where
  progress :
    Progress (before.machine.kernelCr3 :: created) target
      rest before.machine.paging final.machine.paging
  aligned : target % 4096 = 0
  heapEnd : final.heapEnd = before.heapEnd
  kernelCr3 :
    final.machine.kernelCr3 = before.machine.kernelCr3
  kept :
    heap.machine.paging.free ⊆ final.machine.paging.free
  freed :
    ∀ page ∈ frames,
      page ∈ rest ∨ page ∈ final.machine.paging.free

section

variable {created frames rest : List Nat}
variable {before heap final : Heap Spaces}

/- One frame of the attempt goes back. -/
theorem Undoing.release
    {target page : Nat}
    (hUndoing :
      Undoing created before heap frames target
        (page :: rest) final)
    (hCoherent : Coherent created final)
    (hFrames :
      Outstanding (final.machine.kernelCr3 :: created)
        final.machine.paging (page :: rest))
    (hHolds :
      HoldsFrames final.machine target (page :: rest))
    (hLow : kheapBase ≤ target)
    (hHigh : target ≤ kheapBase + kheapMaxSize) :
    Undoing created before heap frames (target + 4096) rest
      { final with
        machine :=
          spaceSource.pmmFreePage page
            (spaceSource.vmmUnmapPage target
              final.machine) } := by
  have hFrame := hFrames.frame page List.mem_cons_self
  have hShared : Shared target := by
    unfold Shared
    rw [levelIndex_heap hLow hHigh]
    decide
  have hLeaf := hHolds 0 page rfl
  rw [Nat.mul_zero, Nat.add_zero] at hLeaf
  have hRoot := hCoherent.active
  have hForest := hCoherent.forest
  have hOutcome :
      UnmapOutcome (final.machine.kernelCr3 :: created)
        final.machine.pml4 target final.machine.paging
        (vmmUnmapPage final.machine.pml4 target
          final.machine.paging).1
        (vmmUnmapPage final.machine.pml4 target
          final.machine.paging).2 :=
    vmmUnmapPage_outcome hForest hRoot
  rw [hUndoing.kernelCr3] at hRoot hForest
  have hFree :
      (spaceSource.pmmFreePage page
          (spaceSource.vmmUnmapPage target
            final.machine)).paging.free =
        page :: final.machine.paging.free := by
    change (pmmFreePage page _).free = _
    rw [pmmFreePage_of_frame hFrame]
    exact congrArg (page :: ·) hOutcome.free
  refine
    { progress :=
        hUndoing.progress.unmap hRoot hForest hFrame hShared
          hUndoing.aligned hLeaf
      aligned := ?_
      heapEnd := hUndoing.heapEnd
      kernelCr3 := hUndoing.kernelCr3
      kept := ?_
      freed := ?_ }
  · have hAligned := hUndoing.aligned
    omega
  · intro other hOther
    change other ∈ (spaceSource.pmmFreePage _ _).paging.free
    rw [hFree]
    exact List.mem_cons_of_mem page (hUndoing.kept hOther)
  · intro other hOther
    change
      _ ∨ other ∈ (spaceSource.pmmFreePage _ _).paging.free
    rw [hFree, List.mem_cons]
    rcases hUndoing.freed other hOther with hIn | hBack
    · rcases List.mem_cons.mp hIn with rfl | hRest
      · exact .inr (.inl rfl)
      · exact .inl hRest
    · exact .inr (.inr hBack)

/- `rollback_heap_mapping` undoes an attempt. -/
theorem Attempt.rollback
    (hAttempt : Attempt created before frames heap)
    (hAligned : before.heapEnd % 4096 = 0)
    (hHigh :
      before.heapEnd + 4096 * frames.length ≤
        kheapBase + kheapMaxSize) :
    Ensures (fun _ => True)
      (rollbackHeapMapping spaceSource before.heapEnd
        (4096 * frames.length)) heap
      fun _ final =>
        RolledBack created before
          (frames ++ heap.machine.paging.free) final := by
  have hGrowing := hAttempt.growing
  have hLow : kheapBase ≤ before.heapEnd := by
    rw [← hGrowing.heapEnd]
    exact hGrowing.coherent.low
  apply (ensures_rollback_invariant
    (Undoing created before heap frames)
    hGrowing.coherent hGrowing.outstanding hGrowing.holds
    hLow hHigh
    { progress := hAttempt.progress
      aligned := hAligned
      heapEnd := hGrowing.heapEnd
      kernelCr3 := hAttempt.kernelCr3
      kept := List.Subset.refl _
      freed := fun _ hPage => .inl hPage }
    fun target page rest final hCoherent hFrames hHolds hLow
        hHigh hUndoing =>
      hUndoing.release hCoherent hFrames hHolds hLow
        (Nat.le_of_add_right_le hHigh)).mono
  rintro _ final ⟨-, hDone⟩
  rcases hDone.progress.undone with ⟨hLeaves, hUses⟩
  refine
    { heapEnd := hDone.heapEnd
      kernelCr3 := hDone.kernelCr3
      leaves := hLeaves
      frames := hUses
      freed := ?_ }
  intro page hPage
  rcases List.mem_append.mp hPage with hFrame | hFree
  · exact (hDone.freed page hFrame).resolve_left
      List.not_mem_nil
  · exact hDone.kept hFree

/- The first pass has done nothing yet. -/
theorem Attempt.start
    (hCoherent : Coherent created heap) :
    Attempt created heap [] heap where
  growing :=
    { coherent := hCoherent
      heapEnd := rfl
      firstBlock := rfl
      outstanding := Outstanding.nil _ _
      holds := by simp [HoldsFrames]
      slot := fun hSome => absurd rfl hSome }
  progress := Progress.refl _ _ _
  kernelCr3 := rfl

/- The next frame is mapped, or it goes back. -/
theorem Attempt.map
    {page : Nat}
    (hAttempt : Attempt created before frames heap)
    (hFree : heap.machine.paging.free = page :: rest)
    (hHigh :
      before.heapEnd + 4096 * (frames.length + 1) ≤
        kheapBase + kheapMaxSize) :
    let target := before.heapEnd + 4096 * frames.length
    let call :=
      spaceSource.vmmMapPage target page
        KernelHeap.vmmWritable
        (heap.machine.withPaging
          { heap.machine.paging with free := rest })
    (call.1 = true →
      Attempt created before (frames ++ [page])
        (mappedHeap heap target page call.2)) ∧
    (call.1 = false →
      Attempt created before frames
        { heap with
          machine :=
            spaceSource.pmmFreePage page call.2 }) := by
  intro target call
  rcases hAttempt.growing.alloc hFree with ⟨hTaken, hOut⟩
  have hMapped := hTaken.map hOut hHigh rfl
  have hLow : kheapBase ≤ target := by
    have hStart := hTaken.coherent.low
    rw [hTaken.heapEnd] at hStart
    exact Nat.le_trans hStart (Nat.le_add_right _ _)
  have hTarget : target ≤ kheapBase + kheapMaxSize := by
    refine Nat.le_trans ?_ hHigh
    exact Nat.add_le_add_left
      (Nat.mul_le_mul_left 4096 (Nat.le_succ _)) _
  have hShared : Shared target := by
    unfold Shared
    rw [levelIndex_heap hLow hTarget]
    decide
  have hFrame :=
    hAttempt.growing.coherent.forest.free_frame page
      (by rw [hFree]; exact List.mem_cons_self)
  have hRoot := hTaken.coherent.active
  have hForest := hTaken.coherent.forest
  have hLinkable := hTaken.coherent.linkable hLow hTarget
  change _ ∈ heap.machine.kernelCr3 :: _ at hRoot
  rw [hAttempt.kernelCr3] at hRoot
  change PageForest (heap.machine.kernelCr3 :: _) _ at hForest
  rw [hAttempt.kernelCr3] at hForest
  change
    Linkable (heap.machine.kernelCr3 :: _) _ _ _ at hLinkable
  rw [hAttempt.kernelCr3] at hLinkable
  have hPages :=
    hAttempt.progress.map rfl hFree hRoot hForest hFrame
      (by decide : KernelHeap.vmmWritable < 2 ^ 64) hShared
      hLinkable
  constructor
  · intro hOk
    exact
      { growing := (hMapped _).2 hOk
        progress := hPages.1 hOk
        kernelCr3 := hAttempt.kernelCr3 }
  · intro hRefused
    rcases (hMapped heap.memory).1 hRefused with
      ⟨hKept, hStill⟩
    exact
      { growing := hKept.giveBack hStill
        progress := hPages.2 hRefused
        kernelCr3 := hAttempt.kernelCr3 }

/- A frame is back after a failed mapping. -/
theorem Attempt.refused_free
    {page : Nat}
    (hAttempt : Attempt created before frames heap)
    (hFree : heap.machine.paging.free = page :: rest)
    (machine : Spaces) :
    page ∈
      (spaceSource.pmmFreePage page machine).paging.free := by
  have hFrame :=
    hAttempt.growing.coherent.forest.free_frame page
      (by rw [hFree]; exact List.mem_cons_self)
  change page ∈ (pmmFreePage page _).free
  rw [pmmFreePage_of_frame hFrame]
  exact List.mem_cons_self

/-
  One pass: another frame is mapped, there are no more pages,
  or the attempt is rolled back, and the frame that the pass
  was given goes back, too.
-/
theorem Attempt.visit
    {bytes : Nat}
    (hAttempt : Attempt created before frames heap)
    (hAligned : before.heapEnd % 4096 = 0)
    (hBytes : bytes % 4096 = 0)
    (hFrames : 4096 * frames.length ≤ bytes)
    (hHigh :
      before.heapEnd + bytes ≤ kheapBase + kheapMaxSize) :
    Ensures (fun _ => True)
      (mapVisit spaceSource before.heapEnd bytes
        (4096 * frames.length)) heap
      (Continues
        (fun next final =>
          ∃ page,
            next = 4096 * (frames ++ [page]).length ∧
            4096 * (frames ++ [page]).length ≤ bytes ∧
            Attempt created before (frames ++ [page]) final)
        (fun ok final =>
          (ok = true ∧ final = heap ∧
            bytes = 4096 * frames.length) ∨
          (ok = false ∧
            RolledBack created before
              (frames ++ heap.machine.paging.free.take 1)
              final))) := by
  have hGrowing := hAttempt.growing
  by_cases hInside : 4096 * frames.length < bytes
  · rcases nextPage hInside hBytes hHigh with
      ⟨hTarget, hWrap, hRoom, hNext, hNow⟩
    have hFrom :
        wrap 64 (heap.heapEnd + 4096 * frames.length) =
          before.heapEnd + 4096 * frames.length := by
      rw [hGrowing.heapEnd]
      exact hTarget
    have hNonzero :
        ∀ page ∈ heap.machine.paging.free, page ≠ 0 :=
      fun page hPage =>
        (hGrowing.coherent.forest.free_frame page hPage).1
    rw [ensures_spaceMapVisit_iff hInside hFrom hNonzero]
    split
    · rename_i hFree
      apply (hAttempt.rollback hAligned hNow).mono
      intro _ final hBack
      rw [hFree] at hBack ⊢
      exact .inr ⟨rfl, hBack⟩
    · rename_i page rest hFree
      have hMapped := hAttempt.map hFree hNext
      dsimp only at hMapped ⊢
      split
      · rename_i hOk
        rw [continues_inl, hWrap]
        refine ⟨page, ?_, ?_, hMapped.1 hOk⟩
        · rw [List.length_append]
          rfl
        · rw [List.length_append]
          exact hRoom
      · rename_i hFailed
        have hRefused :=
          hMapped.2 (Bool.eq_false_iff.mpr hFailed)
        apply (hRefused.rollback hAligned hNow).mono
        intro _ final hBack
        refine .inr ⟨rfl, ?_⟩
        rw [hFree]
        exact
          { hBack with
            freed := by
              intro other hOther
              apply hBack.freed
              rw [List.mem_append] at hOther ⊢
              refine hOther.imp id fun hPage => ?_
              rw [List.mem_singleton.mp hPage]
              exact hAttempt.refused_free hFree _ }
  · unfold mapVisit
    rw [if_neg hInside, ensures_pure_iff, continues_inr]
    exact .inl ⟨rfl, rfl, by omega⟩

end

end Vmm

end Whirliscope

------------------------------------------------------------
-- Nothing Above the Heap
------------------------------------------------------------

namespace Whirliscope

namespace Vmm

open ByteMemory FaultProgram KernelHeap

section

variable {created : List Nat} {heap : Heap Spaces}

/- The mapping loop maps every page, or is rolled back. -/
theorem ensures_attemptLoop
    {bytes : Nat}
    (hCoherent : Coherent created heap)
    (hAligned : heap.heapEnd % 4096 = 0)
    (hBytes : bytes % 4096 = 0)
    (hHigh :
      heap.heapEnd + bytes ≤ kheapBase + kheapMaxSize) :
    Ensures (fun _ => True)
      (loop (throw .noReturn)
        (mapVisit spaceSource heap.heapEnd bytes) (2 ^ 64) 0)
      heap
      fun ok final =>
        (ok = true ∧
          ∃ frames : List Nat,
            bytes = 4096 * frames.length ∧
              Attempt created heap frames final) ∨
        (ok = false ∧
          ∃ pages, RolledBack created heap pages final) := by
  apply ensures_loop fun _ offset final =>
    ∃ frames : List Nat,
      offset = 4096 * frames.length ∧
      4096 * frames.length ≤ bytes ∧
      Attempt created heap frames final
  · intro _ _ _
    exact (ensures_throw_iff _ _ _ _).mpr trivial
  · rintro _ _ middle ⟨frames, rfl, hRoom, hAttempt⟩
    apply (hAttempt.visit hAligned hBytes hRoom hHigh).mono
    intro result final hResult
    cases result with
    | inl next =>
        rcases hResult with ⟨page, hNext, hMore, hLater⟩
        exact ⟨frames ++ [page], hNext, hMore, hLater⟩
    | inr ok =>
        rcases hResult with ⟨hOk, rfl, hAll⟩ | ⟨hOk, hBack⟩
        · exact .inl ⟨hOk, frames, hAll, hAttempt⟩
        · exact .inr ⟨hOk, _, hBack⟩
  · exact ⟨[], rfl, Nat.zero_le _, .start hCoherent⟩

/- What `expand_heap` does not refuse at once. -/
theorem ensures_expandHeap_space
    {size : Nat}
    {post : Bool → Heap Spaces → Prop}
    (hStart : heap.heapStart = kheapBase)
    (hHigh : heap.heapEnd ≤ kheapBase + kheapMaxSize)
    (hRefused :
      kheapBase + kheapMaxSize <
          heap.heapEnd +
            alignUpSize (wrap 64 (size + blockOverhead))
              kheapChunkSize →
        post false heap)
    (hLoop :
      ∀ bytes,
        bytes =
          alignUpSize (wrap 64 (size + blockOverhead))
            kheapChunkSize →
        heap.heapEnd + bytes ≤ kheapBase + kheapMaxSize →
          Ensures (fun _ => True)
            (loop (throw .noReturn)
              (mapVisit spaceSource heap.heapEnd bytes)
              (2 ^ 64) 0)
            heap
            fun ok middle =>
              (ok = false → post false middle) ∧
                (ok = true →
                  Ensures (fun _ => True)
                    (addChunk heap.heapEnd bytes) middle
                    fun _ final => post true final)) :
    Ensures (fun _ => True) (expandHeap spaceSource size) heap
      post := by
  have hBytes :=
    alignUpSize_chunk (wrap 64 (size + blockOverhead))
  unfold expandHeap
  simp only [ensures_bind_iff, ensures_get_iff]
  generalize hGrowth :
    alignUpSize (wrap 64 (size + blockOverhead))
      kheapChunkSize = bytes at *
  rw [ensures_ite_iff]
  constructor
  · intro hFull
    rw [ensures_pure_iff]
    apply hRefused
    have hWord := hBytes.2
    simp only [kheapBase, kheapMaxSize, wrap] at *
    omega
  · intro hFits
    have hRoom :
        heap.heapEnd + bytes ≤ kheapBase + kheapMaxSize := by
      simp only [kheapBase, kheapMaxSize, wrap] at *
      omega
    rw [ensures_bind_iff]
    apply (hLoop bytes rfl hRoom).mono
    rintro mapped middle ⟨hFailed, hMapped⟩
    cases mapped with
    | false =>
        simp only [Bool.not_false, if_true, ensures_pure_iff]
        exact hFailed rfl
    | true =>
        simp only [Bool.not_true, Bool.false_eq_true,
          if_false, ensures_bind_iff, ensures_pure_iff]
        exact hMapped rfl

/- Growing keeps what is above the heap unmapped. -/
theorem ensures_expandHeap_clear
    (size : Nat)
    (hCoherent : Coherent created heap)
    (hClear : Clear created heap) :
    Ensures (fun _ => True) (expandHeap spaceSource size) heap
      fun _ final => Clear created final := by
  apply ensures_expandHeap_space hCoherent.start
    hCoherent.high fun _ => hClear
  rintro bytes hGrowth hHigh
  have hBytes : bytes % 4096 = 0 := by
    rw [hGrowth]
    exact (alignUpSize_chunk _).1
  apply (ensures_attemptLoop hCoherent hClear.aligned hBytes
    hHigh).mono
  intro ok middle hMiddle
  constructor
  · rintro rfl
    rcases hMiddle with ⟨hTrue, -⟩ | ⟨-, pages, hBack⟩
    · cases hTrue
    · exact hBack.clear hClear
  · rintro rfl
    rcases hMiddle with ⟨-, frames, hAll, hAttempt⟩ | ⟨hNot, -⟩
    · apply (clear_light created).ensures_addChunk fun _ h =>
        ⟨h.aligned, h.above⟩
      have hEnd : middle.heapEnd = heap.heapEnd :=
        hAttempt.growing.heapEnd
      refine hClear.grown hCoherent.low hAttempt.progress
        hAttempt.kernelCr3 hAll ?_
      rw [hEnd]
      apply wrap_of_lt
      simp only [kheapBase, kheapMaxSize] at hHigh
      omega
    · cases hNot

end

/- The heap is coherent, and clear above its end. -/
def Contained
    (created : List Nat)
    (heap : Heap Spaces) : Prop :=
  Coherent created heap ∧ Clear created heap

theorem contained_light
    (created : List Nat) :
    Light (Contained created) where
  memory := fun heap memory h =>
    ⟨(coherent_light created).memory heap memory h.1,
      (clear_light created).memory heap memory h.2⟩
  lastBlock := fun heap block h =>
    ⟨(coherent_light created).lastBlock heap block h.1,
      (clear_light created).lastBlock heap block h.2⟩
  allocated := fun heap count h =>
    ⟨(coherent_light created).allocated heap count h.1,
      (clear_light created).allocated heap count h.2⟩

theorem keeps_kmalloc_contained
    (created : List Nat)
    (size : Nat) :
    Keeps (Contained created) (kmalloc spaceSource size) := by
  intro heap hHeap
  have hLight := clear_light created
  have hCoherent :=
    ensures_kmalloc_ready size
      (⟨hHeap.1, False.elim⟩ : Ready created False heap)
  have hClear :
      Ensures (fun _ => True) (kmalloc spaceSource size) heap
        fun _ final => Clear created final := by
    unfold kmalloc
    rw [ensures_bind_iff, ensures_get_iff, ensures_ite_iff]
    constructor
    · intro _
      exact (ensures_pure_iff _ _ _ _).mpr hHeap.2
    · intro _
      rw [ensures_bind_iff]
      apply (Light.preserves_findFreeBlock _ heap hHeap).mono
      intro found middle hMiddle
      rw [ensures_ite_iff]
      constructor
      · intro _
        exact hLight.preserves_takeBlock found _ middle
          hMiddle.2
      · intro _
        rw [ensures_bind_iff]
        apply (ensures_expandHeap_clear _ hMiddle.1
          hMiddle.2).mono
        intro grown large hLarge
        have hRest :
            Keeps (Clear created)
              (do
                if !grown then return 0
                let block ← findFreeBlock
                  (alignUpSize size heapAlign)
                if block = 0 then return 0
                takeBlock block
                  (alignUpSize size heapAlign)) := by
          refine Preserves.ite (Preserves.of_pure _ _) ?_
          refine (Light.preserves_findFreeBlock _).bind
            fun block => ?_
          exact Preserves.ite (Preserves.of_pure _ _)
            (hLight.preserves_takeBlock _ _)
        exact hRest large hLarge
  exact (hCoherent.and hClear).mono fun _ _ hBoth =>
    ⟨hBoth.1.1, hBoth.2⟩

end Vmm

end Whirliscope

------------------------------------------------------------
-- Runs of the Kernel
------------------------------------------------------------

namespace Whirliscope

namespace KernelHeap

open ByteMemory FaultProgram

variable {σ : Type}

namespace Light

variable {source : PageSource σ} {invariant : Heap σ → Prop}

theorem preserves_kcalloc
    (hLight : Light invariant)
    (hMalloc :
      ∀ size, Keeps invariant (kmalloc source size))
    (count size : Nat) :
    Keeps invariant (kcalloc source count size) := by
  unfold kcalloc
  refine Preserves.ite (Preserves.of_pure _ _) ?_
  refine (hMalloc _).bind fun ptr => ?_
  exact Preserves.ite
    ((hLight.preserves_clearRange _ _).bind fun _ =>
      Preserves.of_pure _ _)
    (Preserves.of_pure _ _)

theorem preserves_krealloc
    (hLight : Light invariant)
    (hMalloc :
      ∀ size, Keeps invariant (kmalloc source size))
    (ptr size : Nat) :
    Keeps invariant (krealloc source ptr size) := by
  unfold krealloc
  refine Preserves.ite (hMalloc size) ?_
  refine Preserves.ite
    ((hLight.preserves_kfree ptr).bind fun _ =>
      Preserves.of_pure _ _) ?_
  refine (preserves_loadField .magic _).bind fun _ => ?_
  refine (preserves_assert _).bind fun _ => ?_
  refine (preserves_loadField .size _).bind fun _ => ?_
  refine Preserves.ite
    ((hLight.preserves_shrinkBlock _ _).bind fun _ =>
      Preserves.of_pure _ _) ?_
  refine (hMalloc size).bind fun newPtr => ?_
  refine Preserves.ite (Preserves.of_pure _ _) ?_
  refine (preserves_loadField .size _).bind fun _ => ?_
  refine (hLight.preserves_copyRange _ _ _).bind fun _ => ?_
  exact (hLight.preserves_kfree ptr).bind fun _ =>
    Preserves.of_pure _ _

end Light

/- The other parts of the kernel leave the blocks alone. -/
theorem Valid.withMachine
    {heap : Heap σ}
    {live : Live}
    (hValid : Valid heap live)
    (machine : σ) :
    Valid { heap with machine := machine } live := by
  rcases hValid with ⟨blocks, hSound, hOwns⟩
  exact ⟨blocks,
    { layout :=
        hSound.layout.of_sameBelow
          (sameBelow_machine heap machine)
      noAdjacentFree := hSound.noAdjacentFree
      allocated := hSound.allocated },
    hOwns⟩

end KernelHeap

namespace Vmm

open ByteMemory FaultProgram KernelHeap

/- The call as an operation of a client of the heap. -/
def HeapCall.op : HeapCall → Op
| .kmalloc size => .malloc size
| .kcalloc count size => .calloc count size
| .krealloc ptr size => .realloc ptr size
| .kfree ptr => .free ptr

theorem HeapCall.run_op
    (call : HeapCall) :
    call.op.run spaceSource = call.run := by
  cases call <;> rfl

/- What other parts of the kernel do. -/
inductive Event where
| allocPage
| freePage (page : Nat)
| create
| activate (space : Nat)
| mapUser (space target physical flags : Nat)
deriving DecidableEq

def Event.run
    (system : System) : Event → System
| .allocPage =>
    system.withSpaces
      (system.spaces.withPaging
        (pmmAllocPage system.spaces.paging).2)
| .freePage page =>
    system.withSpaces
      (system.spaces.withPaging
        (pmmFreePage page system.spaces.paging))
| .create =>
    let result := vmmCreateAddressSpace system.spaces
    { system.withSpaces result.2 with
      created :=
        if result.1 = 0 then system.created
        else result.1 :: system.created }
| .activate space =>
    system.withSpaces
      (vmmActivateAddressSpace space system.spaces)
| .mapUser space target physical flags =>
    system.withSpaces
      (system.spaces.withPaging
        (vmmMapPageInSpace space target physical flags
          system.spaces.paging).2)

/-
  A page that is freed was in use for data. A space is created
  after the first allocation, and pages are mapped for users
  in the lower half of a space.
-/
def Event.Allowed
    (system : System) : Event → Prop
| .allocPage => True
| .freePage page =>
    Outstanding system.roots system.spaces.paging [page]
| .create => system.warmed = true
| .activate space => space = 0 ∨ space ∈ system.created
| .mapUser space target physical flags =>
    space ∈ system.created ∧ levelIndex target 0 < 256 ∧
      physical < 2 ^ 64 ∧ flags < 2 ^ 64

/- The states of runs, with the live pointers of the heap. -/
inductive HeapRun
    (first : System) :
    System → Live → Prop
| start :
    HeapRun first first fun _ => none
| event
    {system : System}
    {live : Live}
    (event : Event)
    (hRun : HeapRun first system live)
    (hAllowed : event.Allowed system) :
    HeapRun first (event.run system) live
| call
    {system : System}
    {live : Live}
    {ptr : Nat}
    {heap : Heap Spaces}
    (call : HeapCall)
    (hRun : HeapRun first system live)
    (hAllowed : call.op.Allowed live)
    (hReturns : Returns call.run system.heap ptr heap) :
    HeapRun first
      { system with
        heap := heap
        warmed := system.warmed || call.allocates ptr }
      (call.op.track live ptr)
| store
    {system : System}
    {live : Live}
    {heap : Heap Spaces}
    (ptr offset : Nat)
    (byte : UInt8)
    (hRun : HeapRun first system live)
    (hAllowed : (Op.store ptr offset byte).Allowed live)
    (hReturns :
      Returns (storeByte (ptr + offset) byte) system.heap ()
        heap) :
    HeapRun first { system with heap := heap } live

/- At start nothing is mapped in the range of the heap. -/
structure System.Booted
    (system : System) : Prop where
  initial : system.Initial
  clear :
    ∀ v, kheapBase ≤ v → v < kheapBase + kheapMaxSize →
      leafOf system.spaces.paging.tables
        system.spaces.kernelCr3 v = none

/- The invariant of such runs. -/
structure System.Steady
    (system : System)
    (live : Live) : Prop where
  sound : system.Sound
  clear : Clear system.created system.heap
  valid : Valid system.heap live

/- The kernel root decides what is mapped above the heap. -/
theorem clear_of_kernel
    {created : List Nat}
    {heap : Heap Spaces}
    (hCoherent : Coherent created heap)
    (hAligned : heap.heapEnd % 4096 = 0)
    (hKernel :
      ∀ v, heap.heapEnd ≤ v → v < kheapBase + kheapMaxSize →
        leafOf heap.machine.paging.tables
          heap.machine.kernelCr3 v = none) :
    Clear created heap where
  aligned := hAligned
  above := by
    intro root hRoot v hAbove hHigh
    have hShared : Shared v := by
      unfold Shared
      rw [levelIndex_heap
        (Nat.le_trans hCoherent.low hAbove)
        (Nat.le_of_lt hHigh)]
      decide
    rw [hCoherent.forest.leafOf_shared List.mem_cons_self
      hRoot hShared]
    exact hKernel v hAbove hHigh

/- An event that leaves the kernel half of its root alone. -/
theorem Clear.of_event
    {created later : List Nat}
    {heap : Heap Spaces}
    {machine : Spaces}
    (hClear : Clear created heap)
    (hBefore : Coherent created heap)
    (hAfter :
      Coherent later { heap with machine := machine })
    (hKernel : machine.kernelCr3 = heap.machine.kernelCr3)
    (hLeaves :
      ∀ v, Shared v →
        leafOf machine.paging.tables
            heap.machine.kernelCr3 v =
          leafOf heap.machine.paging.tables
            heap.machine.kernelCr3 v) :
    Clear later { heap with machine := machine } := by
  apply clear_of_kernel hAfter hClear.aligned
  intro v hAbove hHigh
  have hShared : Shared v := by
    unfold Shared
    rw [levelIndex_heap (Nat.le_trans hBefore.low hAbove)
      (Nat.le_of_lt hHigh)]
    decide
  change leafOf machine.paging.tables machine.kernelCr3 v = _
  rw [hKernel, hLeaves v hShared]
  exact hClear.above _ List.mem_cons_self v hAbove hHigh

end Vmm

end Whirliscope

------------------------------------------------------------
-- The Invariant of Runs
------------------------------------------------------------

namespace Whirliscope

namespace Vmm

open ByteMemory FaultProgram KernelHeap

/- Freeing a page that is in use for data. -/
theorem System.Sound.freePage
    {system : System}
    {page : Nat}
    (hSound : system.Sound)
    (hPage :
      Outstanding system.roots system.spaces.paging
        [page]) :
    (system.withSpaces
      (system.spaces.withPaging
        (pmmFreePage page system.spaces.paging))).Sound := by
  refine ⟨hSound.1.withPaging
    (hSound.1.forest.free hPage).1 ?_, hSound.2⟩
  intro root _ v table hTable
  rw [pmmFreePage_of_frame
    (hPage.frame page List.mem_cons_self)]
  exact hTable

/- Every event keeps the spaces coherent. -/
theorem Event.sound
    {system : System}
    (event : Event)
    (hSound : system.Sound)
    (hAllowed : event.Allowed system) :
    (event.run system).Sound := by
  cases event with
  | allocPage => exact hSound.allocPage
  | freePage page => exact hSound.freePage hAllowed
  | create => exact hSound.create hAllowed
  | activate space => exact hSound.activate hAllowed
  | mapUser space target physical flags =>
      exact hSound.mapUser hAllowed.1 hAllowed.2.1
        hAllowed.2.2

/- What an event does below the kernel root. -/
theorem Event.kernel
    {system : System}
    (event : Event)
    (hSound : system.Sound)
    (hAllowed : event.Allowed system) :
    (event.run system).spaces.kernelCr3 =
        system.spaces.kernelCr3 ∧
      ∀ v, Shared v →
        leafOf (event.run system).spaces.paging.tables
            system.spaces.kernelCr3 v =
          leafOf system.spaces.paging.tables
            system.spaces.kernelCr3 v := by
  have hForest := hSound.1.forest
  cases event with
  | allocPage =>
      refine ⟨rfl, fun v _ => ?_⟩
      change leafOf (pmmAllocPage _).2.tables _ v = _
      unfold pmmAllocPage
      split <;> rfl
  | freePage page =>
      refine ⟨rfl, fun v _ => ?_⟩
      change leafOf (pmmFreePage page _).tables _ v = _
      rw [pmmFreePage_of_frame
        (hAllowed.frame page List.mem_cons_self)]
  | activate space => exact ⟨rfl, fun _ _ => rfl⟩
  | create =>
      change
        (vmmCreateAddressSpace system.spaces).2.kernelCr3 =
            _ ∧
          ∀ v, Shared v →
            leafOf
                (vmmCreateAddressSpace
                  system.spaces).2.paging.tables _ v =
              _
      cases hFree : system.spaces.paging.free with
      | nil =>
          simp only [vmmCreateAddressSpace, pmmAllocPage,
            hFree, if_true]
          exact ⟨rfl, fun _ _ => rfl⟩
      | cons page rest =>
          have hPage :=
            (hForest.free_frame page
              (hFree ▸ List.mem_cons_self)).1
          rcases hForest.create hSound.1.active hFree with
            ⟨-, -, -, hLeaves⟩
          simp only [vmmCreateAddressSpace, pmmAllocPage,
            hFree, hPage, if_false]
          exact ⟨rfl, fun v _ =>
            hLeaves _ List.mem_cons_self v⟩
  | mapUser space target physical flags =>
      rcases hAllowed with ⟨hSpace, hUser, hWord⟩
      have hOutcome :=
        mapUser_outcome hForest
          (List.mem_cons_of_mem _ hSpace) hUser hWord
      refine ⟨rfl, fun v hShared => ?_⟩
      change
        leafOf
            (vmmMapPageInSpace space target physical flags
              system.heap.machine.paging).2.tables
            system.heap.machine.kernelCr3 v =
          _
      cases hOk :
          (vmmMapPageInSpace space target physical flags
            system.heap.machine.paging).1 with
      | false =>
          exact hOutcome.refused hOk _ List.mem_cons_self v
      | true =>
          apply hOutcome.kept hOk _ List.mem_cons_self v
          rintro ⟨-, hIn⟩
          have hPath :=
            (samePath_iff (.inr (.inr rfl)) v target).mpr hIn
          have hIndex := hPath 0 (by decide)
          unfold Shared at hShared
          omega

/- An event is not a change of the heap. -/
theorem Event.heap_eq
    (event : Event)
    (system : System) :
    (event.run system).heap =
      { system.heap with
        machine := (event.run system).spaces } := by
  cases event <;> rfl

theorem System.Steady.event
    {system : System}
    {live : Live}
    (hSteady : system.Steady live)
    (event : Event)
    (hAllowed : event.Allowed system) :
    (event.run system).Steady live := by
  have hSound := event.sound hSteady.sound hAllowed
  rcases event.kernel hSteady.sound hAllowed with
    ⟨hKernel, hLeaves⟩
  have hHeap := event.heap_eq system
  refine
    { sound := hSound
      clear := ?_
      valid := ?_ }
  · have hAfter := hSound.1
    rw [hHeap] at hAfter ⊢
    exact hSteady.clear.of_event hSteady.sound.1 hAfter
      hKernel hLeaves
  · rw [hHeap]
    exact hSteady.valid.withMachine _

theorem keeps_call_contained
    (created : List Nat)
    (call : HeapCall) :
    Keeps (Contained created) call.run := by
  have hLight := contained_light created
  have hMalloc := keeps_kmalloc_contained created
  cases call with
  | kmalloc size => exact hMalloc size
  | kcalloc count size =>
      exact hLight.preserves_kcalloc hMalloc count size
  | krealloc ptr size =>
      exact hLight.preserves_krealloc hMalloc ptr size
  | kfree ptr =>
      exact (hLight.preserves_kfree ptr).bind fun _ =>
        Preserves.of_pure _ _

theorem System.Steady.call
    {system : System}
    {live : Live}
    {call : HeapCall}
    {ptr : Nat}
    {heap : Heap Spaces}
    (hSteady : system.Steady live)
    (hAllowed : call.op.Allowed live)
    (hReturns : Returns call.run system.heap ptr heap) :
    ({ system with
      heap := heap
      warmed :=
        system.warmed || call.allocates ptr } :
      System).Steady (call.op.track live ptr) where
  sound :=
    (SpaceStep.heap system call ptr heap hReturns).sound
      hSteady.sound
  clear := by
    have hContained : Contained system.created system.heap :=
      ⟨hSteady.sound.1, hSteady.clear⟩
    have hKept :=
      keeps_call_contained system.created call system.heap
        hContained
    exact (hKept.of_returns hReturns).2
  valid := by
    rw [← call.run_op] at hReturns
    exact (ensures_op spaceSource hSteady.valid
      hAllowed).of_returns hReturns

theorem System.Steady.store
    {system : System}
    {live : Live}
    {ptr offset : Nat}
    {byte : UInt8}
    {heap : Heap Spaces}
    (hSteady : system.Steady live)
    (hAllowed : (Op.store ptr offset byte).Allowed live)
    (hReturns :
      Returns (storeByte (ptr + offset) byte) system.heap ()
        heap) :
    ({ system with heap := heap } : System).Steady live := by
  have hKeeps :
      ∀ {invariant : Heap Spaces → Prop}, Light invariant →
        invariant system.heap → invariant heap := by
    intro invariant hLight hStart
    have hStore :
        Keeps invariant (storeByte (ptr + offset) byte) := by
      intro state hState
      unfold storeByte
      rw [ensures_bind_iff, ensures_get_iff, ensures_ite_iff]
      constructor
      · intro _
        rw [ensures_set_iff]
        exact hLight.memory state _ hState
      · intro _
        exact (ensures_throw_iff _ _ _ _).mpr trivial
    exact (hStore system.heap hStart).of_returns hReturns
  have hOp :
      Returns ((Op.store ptr offset byte).run spaceSource)
        system.heap 0 heap :=
    (returns_bind_iff _ _ _ _ _).mpr ⟨(), heap, hReturns, rfl⟩
  exact
    { sound := hKeeps (ready_light _ _) hSteady.sound
      clear := hKeeps (clear_light _) hSteady.clear
      valid :=
        (ensures_op spaceSource hSteady.valid
          hAllowed).of_returns hOp }

theorem System.Booted.steady
    {system : System}
    (hBooted : system.Booted) :
    system.Steady fun _ => none := by
  have hSound := hBooted.initial.sound
  rcases hBooted.initial.heap with ⟨memory, hHeap⟩
  refine
    { sound := hSound
      clear := ?_
      valid := ?_ }
  · apply clear_of_kernel hSound.1
    · rw [hHeap]
      change kheapBase % 4096 = 0
      decide
    · intro v hAbove hHigh
      exact hBooted.clear v
        (Nat.le_trans hSound.1.low hAbove) hHigh
  · rw [hHeap]
    exact (Reachable.init memory system.spaces :
      Reachable spaceSource _ _).valid

theorem HeapRun.steady
    {first system : System}
    {live : Live}
    (hRun : HeapRun first system live)
    (hBooted : first.Booted) :
    system.Steady live := by
  induction hRun with
  | start => exact hBooted.steady
  | event event _ hAllowed ih => exact ih.event event hAllowed
  | call call _ hAllowed hReturns ih =>
      exact ih.call hAllowed hReturns
  | store ptr offset byte _ hAllowed hReturns ih =>
      exact ih.store hAllowed hReturns

end Vmm

end Whirliscope

------------------------------------------------------------
-- A Failed Expansion
------------------------------------------------------------

namespace Whirliscope

namespace KernelHeap

open ByteMemory FaultProgram

variable {σ : Type}

/- The bytes by which `kmalloc` grows the heap. -/
def growth
    (size : Nat) : Nat :=
  alignUpSize
    (wrap 64 (alignUpSize size heapAlign + blockOverhead))
    kheapChunkSize

/- A call of the next pass of the mapping loop fails. -/
def PageFails
    (source : PageSource σ)
    (offset : Nat)
    (heap : Heap σ) : Prop :=
  let taken := source.pmmAllocPage heap.machine
  taken.1 = 0 ∨
    (source.vmmMapPage (wrap 64 (heap.heapEnd + offset))
      taken.1 vmmWritable taken.2).1 = false

instance
    (source : PageSource σ)
    (offset : Nat)
    (heap : Heap σ) :
    Decidable (PageFails source offset heap) :=
  inferInstanceAs (Decidable (_ ∨ _))

/-
  `kmalloc` finds no block for the request, and after `k`
  pages of the expansion, in `middle`, a call fails.
-/
structure FailsDuring
    (source : PageSource σ)
    (heap : Heap σ)
    (size k : Nat)
    (middle : Heap σ) : Prop where
  nonzero : size ≠ 0
  search :
    Returns (findFreeBlock (alignUpSize size heapAlign)) heap
      0 heap
  room :
    heap.heapEnd + growth size ≤ kheapBase + kheapMaxSize
  inside : 4096 * k < growth size
  passes :
    passes (mapVisit source heap.heapEnd (growth size)) k 0
        heap =
      some (4096 * k, middle)
  fails : PageFails source (4096 * k) middle

end KernelHeap

namespace Vmm

open ByteMemory FaultProgram KernelHeap

/-
  The heap after an expansion that failed in `middle`. Its
  block list, end and counters are as before, and nothing is
  mapped above its end. The frames that were mapped, and the
  one that the failing call was given, are free again; any
  other frame is free again or has become a page table.
-/
structure Restored
    (created : List Nat)
    (heap : Heap Spaces)
    (k : Nat)
    (middle final : Heap Spaces) : Prop where
  same : SameBelow heap final
  blocks :
    ∀ blocks, Layout heap blocks → Layout final blocks
  unmapped :
    ∀ root ∈ final.machine.kernelCr3 :: created, ∀ v,
      final.heapEnd ≤ v → v < kheapBase + kheapMaxSize →
        vmmVirtToPhys final.machine.paging.tables root v =
          none
  mapped :
    ∀ j, j < k →
      ∃ page,
        spaceSource.vmmVirtToPhys (heap.heapEnd + 4096 * j)
            middle.machine =
          some page ∧
        page ∈ final.machine.paging.free
  given :
    ∀ page,
      page = (spaceSource.pmmAllocPage middle.machine).1 →
        page ≠ 0 → page ∈ final.machine.paging.free
  frames :
    ∀ page ∈ heap.machine.paging.free,
      page ∈ final.machine.paging.free ∨
        IsTableOf (final.machine.kernelCr3 :: created)
          final.machine.paging page

/- With four frames for each page, the request succeeds. -/
def SucceedsLater
    (created : List Nat)
    (size : Nat)
    (final : Heap Spaces) : Prop :=
  ∀ free,
    PageForest (final.machine.kernelCr3 :: created)
      { final.machine.paging with free := free } →
    4 * (growth size / 4096) ≤ free.length →
      ∃ ptr last,
        ptr ≠ 0 ∧
          Returns (kmalloc spaceSource size)
            { final with
              machine :=
                final.machine.withPaging
                  { final.machine.paging with
                    free := free } }
            ptr last

section

variable {created frames : List Nat}
variable {before heap : Heap Spaces}

/- A failing call ends the loop. -/
theorem Attempt.visit_fails
    {bytes : Nat}
    (hAttempt : Attempt created before frames heap)
    (hBytes : bytes % 4096 = 0)
    (hInside : 4096 * frames.length < bytes)
    (hHigh :
      before.heapEnd + bytes ≤ kheapBase + kheapMaxSize)
    (hFails :
      PageFails spaceSource (4096 * frames.length) heap) :
    Ensures (fun _ => False)
      (mapVisit spaceSource before.heapEnd bytes
        (4096 * frames.length)) heap
      fun result _ => result = .inr false := by
  have hGrowing := hAttempt.growing
  rcases nextPage hInside hBytes hHigh with
    ⟨hTarget, -, -, -, hNow⟩
  have hFrom :
      wrap 64 (heap.heapEnd + 4096 * frames.length) =
        before.heapEnd + 4096 * frames.length := by
    rw [hGrowing.heapEnd]
    exact hTarget
  have hNonzero :
      ∀ page ∈ heap.machine.paging.free, page ≠ 0 :=
    fun page hPage =>
      (hGrowing.coherent.forest.free_frame page hPage).1
  have hLow : kheapBase ≤ before.heapEnd := by
    rw [← hGrowing.heapEnd]
    exact hGrowing.coherent.low
  have hSmall : 4096 * frames.length ≤ 2 ^ 32 := by
    simp only [kheapBase, kheapMaxSize] at hLow hNow
    omega
  unfold PageFails at hFails
  rw [hFrom] at hFails
  rw [ensures_spaceMapVisit_iff hInside hFrom hNonzero]
  split
  · exact (KernelHeap.ensures_rollbackHeapMapping spaceSource
      before.heapEnd hSmall heap).mono fun _ _ _ => rfl
  · rename_i page rest hFree
    have hAlloc :
        spaceSource.pmmAllocPage heap.machine =
          (page,
            heap.machine.withPaging
              { heap.machine.paging with free := rest }) := by
      simp only [spaceSource, pmmAllocPage, hFree]
    rw [hAlloc] at hFails
    have hPage : page ≠ 0 :=
      hNonzero page (by rw [hFree]; exact List.mem_cons_self)
    have hRefused := hFails.resolve_left hPage
    dsimp only at hRefused ⊢
    rw [if_neg (Bool.eq_false_iff.mp hRefused)]
    exact (KernelHeap.ensures_rollbackHeapMapping spaceSource
      before.heapEnd hSmall _).mono fun _ _ _ => rfl

/- The attempt after some passes of the loop. -/
theorem attempt_of_passes
    {bytes k offset : Nat}
    {middle : Heap Spaces}
    (hCoherent : Coherent created heap)
    (hAligned : heap.heapEnd % 4096 = 0)
    (hBytes : bytes % 4096 = 0)
    (hHigh :
      heap.heapEnd + bytes ≤ kheapBase + kheapMaxSize)
    (hPasses :
      passes (mapVisit spaceSource heap.heapEnd bytes) k 0
          heap =
        some (offset, middle)) :
    ∃ frames : List Nat,
      frames.length = k ∧
        Attempt created heap frames middle := by
  have hLast :=
    passes_invariant
      (fun k offset middle =>
        ∃ frames : List Nat,
          frames.length = k ∧
          offset = 4096 * frames.length ∧
          4096 * frames.length ≤ bytes ∧
          Attempt created heap frames middle)
      (by
        rintro _ _ state next final
          ⟨frames, rfl, rfl, hRoom, hAttempt⟩ hReturns
        have hVisit :=
          (hAttempt.visit hAligned hBytes hRoom
            hHigh).of_returns hReturns
        rcases hVisit with ⟨page, hNext, hMore, hLater⟩
        exact ⟨frames ++ [page],
          List.length_append, hNext, hMore, hLater⟩)
      (⟨[], rfl, rfl, Nat.zero_le _, .start hCoherent⟩ :
        ∃ frames : List Nat,
          frames.length = 0 ∧ 0 = 4096 * frames.length ∧
          4096 * frames.length ≤ bytes ∧
          Attempt created heap frames heap)
      hPasses
  rcases hLast with ⟨frames, hLength, -, -, hAttempt⟩
  rw [Nat.zero_add] at hLength
  exact ⟨frames, hLength, hAttempt⟩

/- A loop that fails makes `kmalloc` return `NULL`. -/
theorem returns_kmalloc_of_loop
    {size : Nat}
    {final : Heap Spaces}
    (hInitialized : heap.initialized = true)
    (hStart : heap.heapStart = kheapBase)
    (hNonzero : size ≠ 0)
    (hSearch :
      Returns (findFreeBlock (alignUpSize size heapAlign))
        heap 0 heap)
    (hRoom :
      heap.heapEnd + growth size ≤ kheapBase + kheapMaxSize)
    (hLoop :
      Returns
        (loop (throw .noReturn)
          (mapVisit spaceSource heap.heapEnd (growth size))
          (2 ^ 64) 0)
        heap false final) :
    Returns (kmalloc spaceSource size) heap 0 final := by
  have hExpand :
      Returns
        (expandHeap spaceSource (alignUpSize size heapAlign))
        heap false final := by
    have hFits :
        ¬ (wrap 64 (heap.heapEnd + growth size) <
              heap.heapEnd ∨
            wrap 64 (heap.heapEnd + growth size) >
              wrap 64 (heap.heapStart + kheapMaxSize)) := by
      rw [hStart]
      simp only [kheapBase, kheapMaxSize, wrap] at *
      omega
    unfold growth at hFits hLoop
    unfold expandHeap
    rw [returns_bind_iff]
    refine ⟨heap, heap, rfl, ?_⟩
    rw [if_neg hFits, returns_bind_iff]
    exact ⟨false, final, hLoop, rfl⟩
  unfold kmalloc
  rw [returns_bind_iff]
  refine ⟨heap, heap, rfl, ?_⟩
  have hGoes : (!heap.initialized || size == 0) = false := by
    simp [hInitialized, hNonzero]
  rw [hGoes, if_neg Bool.false_ne_true, returns_bind_iff]
  refine ⟨0, heap, hSearch, ?_⟩
  rw [if_neg (not_not_intro rfl), returns_bind_iff]
  exact ⟨false, final, hExpand, rfl⟩

/- A sound heap of which only the part above changed. -/
theorem sound_of_sameBelow
    {final : Heap Spaces}
    {blocks : List Tiling.Block}
    (hSound : Sound heap blocks)
    (hSame : SameBelow heap final) :
    Sound final blocks where
  layout := hSound.layout.of_sameBelow hSame
  noAdjacentFree := hSound.noAdjacentFree
  allocated := by
    rw [hSame.allocatedBytes]
    exact hSound.allocated

/- A failing call undoes the whole allocation. -/
theorem restored_of_fails
    {live : Live}
    {size k : Nat}
    {middle : Heap Spaces}
    (hContained : Contained created heap)
    (hValid : Valid heap live)
    (hSize : size ≤ kheapMaxSize)
    (hFails : FailsDuring spaceSource heap size k middle) :
    ∃ final,
      Returns (kmalloc spaceSource size) heap 0 final ∧
        Restored created heap k middle final := by
  rcases hContained with ⟨hCoherent, hClear⟩
  rcases hValid with ⟨blocks, hSound, -⟩
  have hBytes : growth size % 4096 = 0 :=
    (alignUpSize_chunk _).1
  have hWord : growth size < 2 ^ 64 := (alignUpSize_chunk _).2
  have hInside := hFails.inside
  rcases attempt_of_passes hCoherent hClear.aligned hBytes
      hFails.room hFails.passes with
    ⟨frames, rfl, hAttempt⟩
  have hVisit :=
    (hAttempt.visit_fails hBytes hInside hFails.room
      hFails.fails).and
      (hAttempt.visit hClear.aligned hBytes
        (Nat.le_of_lt hInside) hFails.room)
  rcases hVisit.exists_returns with
    ⟨_, final, hExit, rfl, hBoth⟩
  rcases hBoth with ⟨hTrue, -⟩ | ⟨-, hBack⟩
  · cases hTrue
  have hFuel : frames.length < 2 ^ 64 := by omega
  have hLoop :
      Returns
        (loop (throw .noReturn)
          (mapVisit spaceSource heap.heapEnd (growth size))
          (2 ^ 64) 0)
        heap false final :=
    returns_loop_of_passes hFails.passes hExit hFuel
  have hReturns :=
    returns_kmalloc_of_loop hSound.layout.initialized
      hCoherent.start hFails.nonzero hFails.search hFails.room
      hLoop
  have hSame : SameBelow heap final :=
    ((ensures_kmalloc spaceSource hSound hSize).of_returns
      hReturns).2.2 rfl
  refine ⟨final, hReturns, ?_⟩
  exact
    { same := hSame
      blocks := fun _ hLayout => hLayout.of_sameBelow hSame
      unmapped := by
        intro root hRoot v hAbove hHigh
        rw [vmmVirtToPhys_eq_leafOf,
          (hBack.clear hClear).above root hRoot v hAbove hHigh]
        rfl
      mapped := by
        intro j hj
        have hFrame :
            frames[j]? = some frames[j] :=
          List.getElem?_eq_getElem hj
        refine ⟨frames[j], ?_, hBack.freed _ ?_⟩
        · change vmmVirtToPhys _ _ _ = _
          rw [vmmVirtToPhys_eq_leafOf,
            hAttempt.growing.holds j _ hFrame]
          rfl
        · exact List.mem_append_left _ (List.getElem_mem hj)
      given := by
        rintro _ rfl hNonzero
        apply hBack.freed
        refine List.mem_append_right _ ?_
        cases hFree : middle.machine.paging.free with
        | nil =>
            simp [spaceSource, pmmAllocPage, hFree] at hNonzero
        | cons page rest =>
            simp [spaceSource, pmmAllocPage, hFree]
      frames := by
        rw [hBack.kernelCr3]
        exact hBack.frames }

/- With three frames left, the next page is mapped. -/
theorem Attempt.map_succeeds
    {rest : List Nat}
    {page : Nat}
    (hAttempt : Attempt created before frames heap)
    (hLow : kheapBase ≤ before.heapEnd)
    (hClear : Clear created before)
    (hFree : heap.machine.paging.free = page :: rest)
    (hBelow :
      before.heapEnd + 4096 * frames.length <
        kheapBase + kheapMaxSize)
    (hRoom : 3 ≤ rest.length) :
    let call :=
      spaceSource.vmmMapPage
        (before.heapEnd + 4096 * frames.length) page
        KernelHeap.vmmWritable
        (heap.machine.withPaging
          { heap.machine.paging with free := rest })
    call.1 = true ∧
      rest.length ≤ call.2.paging.free.length + 3 := by
  intro call
  have hTaken := (hAttempt.growing.alloc hFree).1.coherent
  have hRoot :
      heap.machine.pml4 ∈ heap.machine.kernelCr3 :: created :=
    hTaken.active
  have hForest :
      PageForest (heap.machine.kernelCr3 :: created)
        { heap.machine.paging with free := rest } :=
    hTaken.forest
  have hAbove :
      before.heapEnd ≤
        before.heapEnd + 4096 * frames.length :=
    Nat.le_add_right _ _
  have hLinkable :
      Linkable (heap.machine.kernelCr3 :: created)
        heap.machine.pml4
        (before.heapEnd + 4096 * frames.length)
        { heap.machine.paging with free := rest } :=
    hTaken.linkable (Nat.le_trans hLow hAbove)
      (Nat.le_of_lt hBelow)
  have hSame := hRoot
  rw [hAttempt.kernelCr3] at hSame
  have hNone :
      leafOf heap.machine.paging.tables heap.machine.pml4
          (before.heapEnd + 4096 * frames.length) =
        none := by
    rw [hAttempt.progress.kept _ hSame _
      (not_inPages_above hLow hClear.aligned (Nat.le_refl _)
        hBelow)]
    exact hClear.above _ hSame _ hAbove hBelow
  have hPage :=
    hAttempt.growing.coherent.forest.free_frame page
      (by rw [hFree]; exact List.mem_cons_self)
  have hAligned :
      (before.heapEnd + 4096 * frames.length) % 4096 = 0 ∧
        page % 4096 = 0 := by
    have hEnd := hClear.aligned
    exact ⟨by omega, hPage.2.1⟩
  exact
    mapAtLevelInRoot_succeeds hRoot hForest hLinkable hNone
      hAligned hRoom

/- With enough frames every page is mapped. -/
theorem ensures_mapLoop_succeeds
    {bytes : Nat}
    (hContained : Contained created heap)
    (hBytes : bytes % 4096 = 0)
    (hHigh :
      heap.heapEnd + bytes ≤ kheapBase + kheapMaxSize)
    (hFrames :
      4 * (bytes / 4096) ≤ heap.machine.paging.free.length) :
    Ensures (fun _ => False)
      (loop (throw .noReturn)
        (mapVisit spaceSource heap.heapEnd bytes) (2 ^ 64) 0)
      heap fun ok _ => ok = true := by
  rcases hContained with ⟨hCoherent, hClear⟩
  have hSmall : bytes < 2 ^ 64 := by
    simp only [kheapBase, kheapMaxSize] at hHigh
    omega
  apply ensures_loop fun fuel offset middle =>
    ∃ frames : List Nat,
      offset = 4096 * frames.length ∧
      4096 * frames.length ≤ bytes ∧
      bytes < 4096 * (frames.length + fuel) ∧
      4 * (bytes / 4096) ≤
        middle.machine.paging.free.length +
          4 * frames.length ∧
      Attempt created heap frames middle
  · rintro _ _ ⟨frames, -, hRoom, hFuel, -, -⟩
    rw [Nat.add_zero] at hFuel
    exact absurd hRoom (Nat.not_le_of_lt hFuel)
  · rintro fuel _ middle
      ⟨frames, rfl, hRoom, hFuel, hLeft, hAttempt⟩
    have hGrowing := hAttempt.growing
    by_cases hInside : 4096 * frames.length < bytes
    · rcases nextPage hInside hBytes hHigh with
        ⟨hTarget, hWrap, hNextRoom, hNext, -⟩
      have hFrom :
          wrap 64 (middle.heapEnd + 4096 * frames.length) =
            heap.heapEnd + 4096 * frames.length := by
        rw [hGrowing.heapEnd]
        exact hTarget
      have hNonzero :
          ∀ page ∈ middle.machine.paging.free, page ≠ 0 :=
        fun page hPage =>
          (hGrowing.coherent.forest.free_frame page hPage).1
      have hBelow :
          heap.heapEnd + 4096 * frames.length <
            kheapBase + kheapMaxSize :=
        Nat.lt_of_lt_of_le
          (Nat.add_lt_add_left hInside _) hHigh
      have hPages : frames.length < bytes / 4096 := by omega
      have hLength :
          ∀ page : Nat,
            (frames ++ [page]).length = frames.length + 1 :=
        fun page => List.length_append
      rw [ensures_spaceMapVisit_iff hInside hFrom hNonzero]
      cases hFree : middle.machine.paging.free with
      | nil =>
          rw [hFree, List.length_nil] at hLeft
          omega
      | cons page rest =>
          rw [hFree, List.length_cons] at hLeft
          have hMapped := hAttempt.map hFree hNext
          have hSucceeds :=
            hAttempt.map_succeeds hCoherent.low hClear hFree
              hBelow (by omega)
          dsimp only at hMapped hSucceeds ⊢
          rw [if_pos hSucceeds.1, continues_inl, hWrap]
          refine ⟨frames ++ [page], ?_, ?_, ?_, ?_,
            hMapped.1 hSucceeds.1⟩
          · rw [hLength]
          · rw [hLength]
            exact hNextRoom
          · rw [hLength]
            omega
          · rw [hLength]
            have hKept := hSucceeds.2
            unfold mappedHeap
            dsimp only
            omega
    · unfold mapVisit
      rw [if_neg hInside, ensures_pure_iff, continues_inr]
  · refine ⟨[], rfl, Nat.zero_le _, ?_, hFrames,
      .start hCoherent⟩
    rw [List.length_nil]
    omega

/- The end of the heap is moved by `expand_heap` only. -/
theorem heapEnd_light
    (limit : Nat) :
    Light fun state : Heap Spaces =>
      state.heapEnd = limit where
  memory := fun _ _ h => h
  lastBlock := fun _ _ h => h
  allocated := fun _ _ h => h

/- With enough frames the end of the heap is moved. -/
theorem ensures_expandHeap_grows
    {size : Nat}
    (hContained : Contained created heap)
    (hHigh :
      heap.heapEnd + growth size ≤ kheapBase + kheapMaxSize)
    (hFrames :
      4 * (growth size / 4096) ≤
        heap.machine.paging.free.length) :
    Ensures (fun _ => True)
      (expandHeap spaceSource (alignUpSize size heapAlign))
      heap
      fun grown last =>
        grown = true ∧
          last.heapEnd = heap.heapEnd + growth size := by
  apply ensures_expandHeap_space hContained.1.start
    hContained.1.high
  · intro hFull
    exact absurd hHigh (Nat.not_le_of_lt hFull)
  · intro bytes hGrowth hRoom
    have hSame : bytes = growth size := hGrowth
    have hBytes : bytes % 4096 = 0 := by
      rw [hGrowth]
      exact (alignUpSize_chunk _).1
    rw [← hSame] at hFrames ⊢
    apply ((ensures_attemptLoop hContained.1
      hContained.2.aligned hBytes hRoom).and
      (ensures_mapLoop_succeeds hContained hBytes hRoom
        hFrames)).mono
    rintro ok middle ⟨hMiddle, rfl⟩
    refine ⟨fun hFalse => absurd hFalse.symm
      Bool.false_ne_true, fun _ => ?_⟩
    rcases hMiddle with ⟨-, frames, -, hAttempt⟩ | ⟨hNot, -⟩
    · have hEnd : middle.heapEnd = heap.heapEnd :=
        hAttempt.growing.heapEnd
      have hWrap :
          wrap 64 (middle.heapEnd + bytes) =
            heap.heapEnd + bytes := by
        rw [hEnd]
        apply wrap_of_lt
        simp only [kheapBase, kheapMaxSize] at hRoom
        omega
      apply ((heapEnd_light (heap.heapEnd +
        bytes)).ensures_addChunk (fun _ h => h) hWrap).mono
      exact fun _ _ hFinal => ⟨rfl, hFinal⟩
    · cases hNot

/- A request without a block, but with enough frames. -/
theorem ensures_kmalloc_grows
    {blocks : List Tiling.Block}
    {size : Nat}
    (hContained : Contained created heap)
    (hLayout : Layout heap blocks)
    (hNonzero : size ≠ 0)
    (hNone :
      ∀ block ∈ blocks,
        ¬ Suits (alignUpSize size heapAlign) block)
    (hHigh :
      heap.heapEnd + growth size ≤ kheapBase + kheapMaxSize)
    (hFrames :
      4 * (growth size / 4096) ≤
        heap.machine.paging.free.length) :
    Ensures (fun _ => True) (kmalloc spaceSource size) heap
      fun _ last =>
        last.heapEnd = heap.heapEnd + growth size := by
  have hLight := heapEnd_light (heap.heapEnd + growth size)
  have hGoes : (!heap.initialized || size == 0) = false := by
    simp [hLayout.initialized, hNonzero]
  unfold kmalloc
  rw [ensures_bind_iff, ensures_get_iff, hGoes,
    if_neg Bool.false_ne_true, ensures_bind_iff]
  apply ((ensures_findFreeBlock hLayout _).allow
    fun _ _ => trivial).mono
  rintro found middle ⟨hMiddle, hFound⟩
  rw [hMiddle]
  rcases hFound with
    ⟨rfl, -⟩ | ⟨earlier, block, later, hBlocks, hSuits, -⟩
  · rw [if_neg (not_not_intro rfl), ensures_bind_iff]
    apply (ensures_expandHeap_grows hContained hHigh
      hFrames).mono
    rintro grown large ⟨rfl, hLarge⟩
    have hRest :
        Keeps
          (fun state : Heap Spaces =>
            state.heapEnd = heap.heapEnd + growth size)
          (do
            if !true then return 0
            let block ← findFreeBlock
              (alignUpSize size heapAlign)
            if block = 0 then return 0
            takeBlock block (alignUpSize size heapAlign)) := by
      refine Preserves.ite (Preserves.of_pure _ _) ?_
      refine (Light.preserves_findFreeBlock _).bind
        fun block => ?_
      exact Preserves.ite (Preserves.of_pure _ _)
        (hLight.preserves_takeBlock _ _)
    exact hRest large hLarge
  · refine absurd hSuits (hNone block ?_)
    rw [hBlocks]
    exact List.mem_append_right _ List.mem_cons_self

/- After a failed attempt the request succeeds later. -/
theorem succeedsLater_of_restored
    {live : Live}
    {size k : Nat}
    {middle final : Heap Spaces}
    (hContained : Contained created heap)
    (hValid : Valid heap live)
    (hSize : size ≤ kheapMaxSize)
    (hFails : FailsDuring spaceSource heap size k middle)
    (hReturns : Returns (kmalloc spaceSource size) heap 0 final)
    (hRestored : Restored created heap k middle final) :
    SucceedsLater created size final := by
  intro free hForest hFrames
  rcases hValid with ⟨blocks, hSound, -⟩
  have hFinal : Contained created final :=
    (keeps_kmalloc_contained created size heap
      hContained).of_returns hReturns
  have hNone :
      ∀ block ∈ blocks,
        ¬ Suits (alignUpSize size heapAlign) block := by
    rcases ((ensures_findFreeBlock hSound.layout
        _).of_returns hFails.search).2 with
      ⟨-, hNone⟩ | ⟨earlier, -, -, -, -, hZero⟩
    · exact hNone
    · have hAddress :
          kheapBase ≤ Tiling.stop 32 kheapBase earlier :=
        Tiling.le_stop _ _
      rw [← hZero] at hAddress
      exact absurd hAddress (by decide)
  obtain ⟨later, hLater⟩ :
      ∃ later : Heap Spaces,
        later =
          { final with
            machine :=
              final.machine.withPaging
                { final.machine.paging with free := free } } :=
    ⟨_, rfl⟩
  have hLaterContained : Contained created later := by
    rw [hLater]
    exact ⟨hFinal.1.withPaging hForest
      fun _ _ _ _ hTable => hTable,
      hFinal.2.aligned, hFinal.2.above⟩
  have hSame : SameBelow heap later := by
    rw [hLater]
    exact hRestored.same.trans (sameBelow_machine final _)
  have hLaterSound := sound_of_sameBelow hSound hSame
  have hHigh :
      later.heapEnd + growth size ≤
        kheapBase + kheapMaxSize := by
    rw [hSame.range.heapEnd]
    exact hFails.room
  have hEnough :
      4 * (growth size / 4096) ≤
        later.machine.paging.free.length := by
    rw [hLater]
    exact hFrames
  rcases (ensures_kmalloc spaceSource hLaterSound
      hSize).exists_returns with
    ⟨ptr, last, hLast, -, -, hNull⟩
  rw [← hLater]
  refine ⟨ptr, last, ?_, hLast⟩
  intro hZero
  have hGrown :=
    (ensures_kmalloc_grows hLaterContained hLaterSound.layout
      hFails.nonzero hNone hHigh hEnough).of_returns hLast
  have hStill := (hNull hZero).range.heapEnd
  have hInside := hFails.inside
  omega

end

/-
  In every run, when a frame or a page table is missing during
  an expansion, `kmalloc` returns `NULL` and the expansion is
  undone; later the same request succeeds.
-/
theorem failed_growth_restored
    {first system : System}
    {live : Live}
    (hBooted : first.Booted)
    (hRun : HeapRun first system live)
    {size k : Nat}
    {middle : Heap Spaces}
    (hSize : size ≤ kheapMaxSize)
    (hFails :
      FailsDuring spaceSource system.heap size k middle) :
    ∃ final,
      Returns (kmalloc spaceSource size) system.heap 0 final ∧
        Restored system.created system.heap k middle final ∧
        SucceedsLater system.created size final := by
  have hSteady := hRun.steady hBooted
  have hContained : Contained system.created system.heap :=
    ⟨hSteady.sound.1, hSteady.clear⟩
  rcases restored_of_fails hContained hSteady.valid hSize
      hFails with
    ⟨final, hReturns, hRestored⟩
  exact ⟨final, hReturns, hRestored,
    succeedsLater_of_restored hContained hSteady.valid hSize
      hFails hReturns hRestored⟩

/- A kernel with ten free frames. -/
def shortSystem : System where
  heap :=
    kheapInit zeros
      { paging :=
          { tables := zeros
            free :=
              (List.range 10).map fun k =>
                0x2000 + 0x1000 * k }
        kernelCr3 := 0x1000
        pml4 := 0x1000 }
  created := []
  warmed := false

theorem shortSystem_booted : shortSystem.Booted where
  initial :=
    { heap := ⟨zeros, rfl⟩
      created := rfl
      warmed := rfl
      active := rfl
      tree :=
        pageTree_zeros (by decide) (by decide) (by decide)
          (by decide) }
  clear := by
    intro v _ _
    change leafOf zeros 0x1000 v = none
    simp [leafOf, walkToExistingMapping, loadEntry,
      getLE_zeros]

/- Three frames become tables, seven are mapped. -/
def shortMiddle : Heap Spaces :=
  match
    passes
      (mapVisit spaceSource shortSystem.heap.heapEnd
        (growth 24)) 7 0 shortSystem.heap with
  | some (_, middle) => middle
  | none => shortSystem.heap

theorem shortSystem_fails :
    FailsDuring spaceSource shortSystem.heap 24 7
      shortMiddle where
  nonzero := by decide
  search := by
    have hLayout : Layout shortSystem.heap [] :=
      (sound_kheapInit zeros shortSystem.spaces).layout
    rcases (ensures_findFreeBlock hLayout
        (alignUpSize 24 heapAlign)).exists_returns with
      ⟨result, final, hReturns, rfl, hFound⟩
    rcases hFound with ⟨rfl, -⟩ | ⟨_, _, _, hNil, -⟩
    · exact hReturns
    · exact absurd hNil.symm (by simp)
  room := by decide
  inside := by decide
  passes := by
    have hSome :
        (passes
            (mapVisit spaceSource shortSystem.heap.heapEnd
              (growth 24)) 7 0 shortSystem.heap).map
          Prod.fst =
            some (4096 * 7) := by
      decide
    unfold shortMiddle
    split
    · rename_i offset middle hPasses
      rw [hPasses] at hSome ⊢
      have hOffset : offset = 4096 * 7 := Option.some.inj hSome
      rw [hOffset]
    · rename_i hPasses
      rw [hPasses] at hSome
      cases hSome
  fails := by decide

theorem shortSystem_restored :
    ∃ final,
      Returns (kmalloc spaceSource 24) shortSystem.heap 0
          final ∧
        Restored shortSystem.created shortSystem.heap 7
          shortMiddle final ∧
        SucceedsLater shortSystem.created 24 final :=
  failed_growth_restored shortSystem_booted .start (by decide)
    shortSystem_fails

end Vmm

end Whirliscope
