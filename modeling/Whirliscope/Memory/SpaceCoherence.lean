import Whirliscope.Memory.SpaceFrames

/-
  The kernel half is the same in every address space.

  The first successful allocation of the kernel heap gives
  the heap its entry in the kernel root. Every space that is
  created later has the same entry, so pages that the heap
  maps afterwards appear in all spaces at once.

  Key definitions include:
    * `Coherent`
    * `Growing`

  Main theorem:
    * `spaceRun_coherent`
-/

------------------------------------------------------------
-- Coherent Spaces
------------------------------------------------------------

namespace Whirliscope

namespace Vmm

open ByteMemory FaultProgram KernelHeap

/- The kernel root has an entry for the kernel heap. -/
def HeapSlot
    (s : Spaces) : Prop :=
  ∃ table,
    tableAt s.paging.tables s.kernelCr3 kheapBase 1 =
      some table

/-
  The spaces form a forest below their roots, the active one
  is among them, and once there is a block in the heap or a
  space besides the kernel's, the heap has its entry.
-/
structure Coherent
    (created : List Nat)
    (heap : Heap Spaces) : Prop where
  start : heap.heapStart = kheapBase
  low : kheapBase ≤ heap.heapEnd
  high : heap.heapEnd ≤ kheapBase + kheapMaxSize
  forest :
    PageForest (heap.machine.kernelCr3 :: created)
      heap.machine.paging
  active :
    heap.machine.pml4 ∈ heap.machine.kernelCr3 :: created
  slot :
    created ≠ [] ∨ heap.firstBlock ≠ 0 →
      HeapSlot heap.machine

theorem coherent_light
    (created : List Nat) :
    Light (Coherent created) where
  memory := fun _ _ h =>
    ⟨h.start, h.low, h.high, h.forest, h.active, h.slot⟩
  lastBlock := fun _ _ h =>
    ⟨h.start, h.low, h.high, h.forest, h.active, h.slot⟩
  allocated := fun _ _ h =>
    ⟨h.start, h.low, h.high, h.forest, h.active, h.slot⟩

/- The addresses of the heap are in the shared half. -/
theorem levelIndex_heap
    {virtualAddress : Nat}
    (hLow : kheapBase ≤ virtualAddress)
    (hHigh : virtualAddress ≤ kheapBase + kheapMaxSize) :
    levelIndex virtualAddress 0 = 384 := by
  rw [levelIndex_eq]
  simp only [kheapBase, kheapMaxSize, levelShift] at *
  omega

/- A change of the tables that keeps the heap coherent. -/
theorem Coherent.withPaging
    {created : List Nat}
    {heap : Heap Spaces}
    {paging : Paging}
    (hCoherent : Coherent created heap)
    (hForest :
      PageForest (heap.machine.kernelCr3 :: created) paging)
    (hTop :
      KeepsTop (heap.machine.kernelCr3 :: created)
        heap.machine.paging paging) :
    Coherent created
      { heap with
        machine := heap.machine.withPaging paging } where
  start := hCoherent.start
  low := hCoherent.low
  high := hCoherent.high
  forest := hForest
  active := hCoherent.active
  slot := by
    intro hNeeds
    rcases hCoherent.slot hNeeds with ⟨table, hTable⟩
    exact ⟨table,
      hTop _ List.mem_cons_self kheapBase table hTable⟩

/- Heap pages need no new entry in a shared root. -/
theorem Coherent.linkable
    {created : List Nat}
    {heap : Heap Spaces}
    (hCoherent : Coherent created heap)
    {target : Nat}
    (hLow : kheapBase ≤ target)
    (hHigh : target ≤ kheapBase + kheapMaxSize) :
    Linkable (heap.machine.kernelCr3 :: created)
      heap.machine.pml4 target heap.machine.paging := by
  by_cases hOnly : created = []
  · have hActive := hCoherent.active
    rw [hOnly] at hActive ⊢
    rw [List.mem_singleton.mp hActive]
    exact .inl fun other hOther => List.mem_singleton.mp hOther
  · right; right
    rcases hCoherent.slot (.inl hOnly) with ⟨table, hTable⟩
    have hIndex := levelIndex_heap hLow hHigh
    have hBase : levelIndex kheapBase 0 = 384 :=
      levelIndex_heap (Nat.le_refl _) (Nat.le_add_right _ _)
    have hShared : Shared kheapBase := by
      unfold Shared
      omega
    rw [hIndex, ← hBase,
      hCoherent.forest.shared _ _ kheapBase hCoherent.active
        List.mem_cons_self hShared]
    intro hAbsent
    rw [tableAt_succ] at hTable
    simp only [tableAt, Option.bind_some] at hTable
    rw [if_neg (fun h => h.1 hAbsent)] at hTable
    cases hTable

/- The frames of consecutive heap pages. -/
def HoldsFrames
    (s : Spaces)
    (start : Nat)
    (frames : List Nat) : Prop :=
  ∀ k page, frames[k]? = some page →
    leafOf s.paging.tables s.pml4 (start + 4096 * k) =
      some { physical := page, shift := 12 }

/- Pages at different offsets of the heap are different. -/
theorem not_inPage_heap
    {start j k count : Nat}
    (hLow : kheapBase ≤ start)
    (hHigh :
      start + 4096 * count ≤ kheapBase + kheapMaxSize)
    (hj : j < count)
    (hk : k < count)
    (hNe : j ≠ k) :
    ¬ InPage (start + 4096 * j) (start + 4096 * k) 12 := by
  unfold InPage
  simp only [kheapBase, kheapMaxSize] at hLow hHigh
  omega

/- One page is unmapped and its frame is freed. -/
theorem Coherent.release
    {created frames : List Nat}
    {heap : Heap Spaces}
    {page target : Nat}
    (hCoherent : Coherent created heap)
    (hFrames :
      Outstanding (heap.machine.kernelCr3 :: created)
        heap.machine.paging (page :: frames))
    (hHolds :
      HoldsFrames heap.machine target (page :: frames))
    (hLow : kheapBase ≤ target)
    (hHigh :
      target + 4096 * (page :: frames).length ≤
        kheapBase + kheapMaxSize) :
    let machine :=
      spaceSource.pmmFreePage page
        (spaceSource.vmmUnmapPage target heap.machine)
    Coherent created { heap with machine := machine } ∧
      Outstanding (machine.kernelCr3 :: created)
        machine.paging frames ∧
      HoldsFrames machine (target + 4096) frames := by
  intro machine
  have hOutcome :
      UnmapOutcome (heap.machine.kernelCr3 :: created)
        heap.machine.pml4 target heap.machine.paging
        (vmmUnmapPage heap.machine.pml4 target
          heap.machine.paging).1
        (vmmUnmapPage heap.machine.pml4 target
          heap.machine.paging).2 :=
    vmmUnmapPage_outcome hCoherent.forest hCoherent.active
  have hAfter :=
    hFrames.of_adds hOutcome.adds
      (by rw [hOutcome.free]; exact List.Subset.refl _)
  rcases hOutcome.forest.free hAfter with
    ⟨hForest, hRest⟩
  have hTables :
      machine.paging.tables =
        (vmmUnmapPage heap.machine.pml4 target
          heap.machine.paging).2.tables := by
    change (pmmFreePage page _).tables = _
    unfold pmmFreePage
    split_ifs <;> rfl
  refine ⟨hCoherent.withPaging hForest ?_, hRest, ?_⟩
  · intro root hRoot v table hTable
    change tableAt machine.paging.tables root v 1 = _
    rw [hTables]
    exact hOutcome.top root hRoot v table hTable
  · intro k frame hFrame
    have hOld :=
      hHolds (k + 1) frame (by simpa using hFrame)
    have hk : k < frames.length := by
      by_contra hOut
      rw [List.getElem?_eq_none (by omega)] at hFrame
      cases hFrame
    rw [List.length_cons] at hHigh
    have hAddress :
        target + 4096 + 4096 * k =
          target + 4096 * (k + 1) := by
      omega
    rw [hTables, hAddress]
    cases hOk :
        (vmmUnmapPage heap.machine.pml4 target
          heap.machine.paging).1 with
    | false =>
        rw [hOutcome.refused hOk]
        exact hOld
    | true =>
        rcases hOutcome.unmapped hOk with
          ⟨leaf, hLeaf, -, hKept⟩
        have hFirst := hHolds 0 page rfl
        rw [Nat.mul_zero, Nat.add_zero, hLeaf] at hFirst
        refine (hKept heap.machine.pml4 hCoherent.active _
          ?_).trans hOld
        rintro ⟨-, hIn⟩
        rw [Option.some.inj hFirst] at hIn
        exact not_inPage_heap hLow hHigh (Nat.succ_lt_succ hk)
          (Nat.succ_pos _) (Nat.succ_ne_zero k) hIn

/-
  `rollback_heap_mapping` gives the frames back one by one;
  whatever holds of the remaining frames is kept.
-/
theorem ensures_rollback_invariant
    {created frames : List Nat}
    {heap : Heap Spaces}
    {start : Nat}
    (invariant : Nat → List Nat → Heap Spaces → Prop)
    (hCoherent : Coherent created heap)
    (hFrames :
      Outstanding (heap.machine.kernelCr3 :: created)
        heap.machine.paging frames)
    (hHolds : HoldsFrames heap.machine start frames)
    (hLow : kheapBase ≤ start)
    (hHigh :
      start + 4096 * frames.length ≤
        kheapBase + kheapMaxSize)
    (hStart : invariant start frames heap)
    (hStep :
      ∀ target page rest final,
        Coherent created final →
        Outstanding (final.machine.kernelCr3 :: created)
          final.machine.paging (page :: rest) →
        HoldsFrames final.machine target (page :: rest) →
        kheapBase ≤ target →
        target + 4096 * (page :: rest).length ≤
          kheapBase + kheapMaxSize →
        invariant target (page :: rest) final →
          invariant (target + 4096) rest
            { final with
              machine :=
                spaceSource.pmmFreePage page
                  (spaceSource.vmmUnmapPage target
                    final.machine) }) :
    Ensures (fun _ => True)
      (rollbackHeapMapping spaceSource start
        (4096 * frames.length)) heap
      fun _ final =>
        Coherent created final ∧
          invariant (start + 4096 * frames.length) []
            final := by
  unfold rollbackHeapMapping
  apply ensures_loop fun _ offset final =>
    ∃ rest : List Nat,
      offset + 4096 * rest.length = 4096 * frames.length ∧
      Coherent created final ∧
      invariant (start + offset) rest final ∧
      Outstanding (final.machine.kernelCr3 :: created)
        final.machine.paging rest ∧
      HoldsFrames final.machine (start + offset) rest
  · intro _ _ _
    exact (ensures_throw_iff _ _ _ _).mpr trivial
  · rintro _ offset final
      ⟨rest, hLength, hNow, hKept, hOut, hHeld⟩
    unfold rollbackVisit
    rw [ensures_ite_iff]
    constructor
    · intro hInside
      cases rest with
      | nil => simp at hLength; omega
      | cons page rest =>
          rw [List.length_cons] at hLength
          have hWithin :
              start + offset + 4096 * (page :: rest).length ≤
                kheapBase + kheapMaxSize := by
            rw [List.length_cons]
            refine Nat.le_trans ?_ hHigh
            omega
          have hAbove : kheapBase ≤ start + offset :=
            Nat.le_trans hLow (Nat.le_add_right _ _)
          have hNow' := hNow.release hOut hHeld hAbove hWithin
          have hKept' :=
            hStep _ page rest final hNow hOut hHeld hAbove
              hWithin hKept
          simp only [kheapBase, kheapMaxSize] at hLow hHigh
          have hAddress :
              wrap 64 (start + offset) = start + offset :=
            wrap_of_lt (by omega)
          have hNext :
              wrap 64 (offset + KernelHeap.vmmPageSize) =
                offset + 4096 :=
            wrap_of_lt
              (by unfold KernelHeap.vmmPageSize; omega)
          have hPhysical :
              spaceSource.vmmVirtToPhys (start + offset)
                final.machine = some page := by
            have hFirst := hHeld 0 page rfl
            rw [Nat.mul_zero, Nat.add_zero] at hFirst
            change vmmVirtToPhys _ _ _ = _
            rw [vmmVirtToPhys_eq_leafOf, hFirst]
            rfl
          simp only [ensures_bind_iff, ensures_modify_iff,
            ensures_pure_iff, hAddress, hPhysical, hNext,
            continues_inl]
          rw [← Nat.add_assoc]
          exact ⟨rest, by omega, hNow'.1, hKept', hNow'.2⟩
    · intro hDone
      rw [ensures_pure_iff, continues_inr]
      have hNone : rest = [] := by
        apply List.length_eq_zero_iff.mp
        omega
      have hEnd : offset = 4096 * frames.length := by
        rw [hNone] at hLength
        exact hLength
      rw [hNone, hEnd] at hKept
      exact ⟨hNow, hKept⟩
  · exact ⟨frames, Nat.zero_add _, hCoherent, hStart, hFrames,
      hHolds⟩

/- `rollback_heap_mapping` keeps the heap coherent. -/
theorem ensures_rollbackHeapMapping
    {created frames : List Nat}
    {heap : Heap Spaces}
    {start : Nat}
    (hCoherent : Coherent created heap)
    (hFrames :
      Outstanding (heap.machine.kernelCr3 :: created)
        heap.machine.paging frames)
    (hHolds : HoldsFrames heap.machine start frames)
    (hLow : kheapBase ≤ start)
    (hHigh :
      start + 4096 * frames.length ≤
        kheapBase + kheapMaxSize) :
    Ensures (fun _ => True)
      (rollbackHeapMapping spaceSource start
        (4096 * frames.length)) heap
      fun _ final =>
        Coherent created final ∧
          final.firstBlock = heap.firstBlock :=
  ensures_rollback_invariant
    (fun _ _ final => final.firstBlock = heap.firstBlock)
    hCoherent hFrames hHolds hLow hHigh rfl
    fun _ _ _ _ _ _ _ _ _ hSame => hSame

end Vmm

end Whirliscope

------------------------------------------------------------
-- Growing the Heap
------------------------------------------------------------

namespace Whirliscope

namespace Vmm

open ByteMemory FaultProgram KernelHeap

/- The state of `expand_heap` after some of its pages. -/
structure Growing
    (created : List Nat)
    (start firstBlock : Nat)
    (frames : List Nat)
    (heap : Heap Spaces) : Prop where
  coherent : Coherent created heap
  heapEnd : heap.heapEnd = start
  firstBlock : heap.firstBlock = firstBlock
  outstanding :
    Outstanding (heap.machine.kernelCr3 :: created)
      heap.machine.paging frames
  holds : HoldsFrames heap.machine start frames
  slot : frames ≠ [] → HeapSlot heap.machine

/- The heap's entry is in the kernel root when it is in another. -/
theorem HeapSlot.of_linked
    {created : List Nat}
    {s : Spaces}
    {target table : Nat}
    (hForest : PageForest (s.kernelCr3 :: created) s.paging)
    (hActive : s.pml4 ∈ s.kernelCr3 :: created)
    (hLow : kheapBase ≤ target)
    (hHigh : target ≤ kheapBase + kheapMaxSize)
    (hTable :
      tableAt s.paging.tables s.pml4 target 1 =
        some table) :
    HeapSlot s := by
  have hIndex := levelIndex_heap hLow hHigh
  have hBase : levelIndex kheapBase 0 = 384 :=
    levelIndex_heap (Nat.le_refl _) (Nat.le_add_right _ _)
  have hShared : Shared target := by
    unfold Shared
    omega
  have hPath : SamePath target kheapBase 1 := by
    intro k hk
    have hZero : k = 0 := by omega
    rw [hZero, hIndex, hBase]
  refine ⟨table, ?_⟩
  rw [tableAt_samePath _ _ hPath,
    hForest.tableAt_shared hActive List.mem_cons_self hShared
      Nat.one_pos]
  exact hTable

/- A heap page that is mapped to a frame in use. -/
theorem Growing.map
    {created frames : List Nat}
    {heap : Heap Spaces}
    {start firstBlock page : Nat}
    (hGrowing :
      Growing created start firstBlock frames heap)
    (hFrames :
      Outstanding (heap.machine.kernelCr3 :: created)
        heap.machine.paging (frames ++ [page]))
    (hHigh :
      start + 4096 * (frames.length + 1) ≤
        kheapBase + kheapMaxSize)
    {ok : Bool}
    {machine : Spaces}
    (hMap :
      spaceSource.vmmMapPage (start + 4096 * frames.length)
        page KernelHeap.vmmWritable heap.machine =
          (ok, machine))
    (memory : Bytes) :
    (ok = false →
      Growing created start firstBlock frames
        { heap with machine := machine } ∧
      Outstanding (machine.kernelCr3 :: created)
        machine.paging (frames ++ [page])) ∧
    (ok = true →
      Growing created start firstBlock (frames ++ [page])
        { heap with machine := machine, memory := memory }) := by
  have hCoherent := hGrowing.coherent
  have hStart : kheapBase ≤ start := by
    rw [← hGrowing.heapEnd]
    exact hCoherent.low
  have hLow : kheapBase ≤ start + 4096 * frames.length :=
    Nat.le_trans hStart (Nat.le_add_right _ _)
  have hTarget :
      start + 4096 * frames.length ≤
        kheapBase + kheapMaxSize := by
    refine Nat.le_trans ?_ hHigh
    omega
  have hShared : Shared (start + 4096 * frames.length) := by
    unfold Shared
    rw [levelIndex_heap hLow hTarget]
    decide
  have hFrame :=
    hFrames.frame page
      (List.mem_append_right frames List.mem_cons_self)
  have hArguments :
      MapArguments page KernelHeap.vmmWritable :=
    ⟨hFrame.2.2, by decide, by decide⟩
  have hWord : page < 2 ^ 64 := by
    have hSmall := hFrame.2.2
    omega
  have hOutcome :=
    mapAtLevelInRoot_outcome hCoherent.forest hCoherent.active
      (.inr (.inr rfl)) ⟨hWord, hArguments.flags_lt⟩
      (.inl rfl) (hCoherent.linkable hLow hTarget)
  have hParts :
      mapAtLevelInRoot heap.machine.pml4
          (start + 4096 * frames.length) page
          (2 ^ levelShift 3) (levelShift 3)
          KernelHeap.vmmWritable heap.machine.paging =
        (ok, machine.paging) ∧
      machine = heap.machine.withPaging machine.paging := by
    have hOk := congrArg Prod.fst hMap
    have hMachine := congrArg Prod.snd hMap
    subst hOk hMachine
    exact ⟨rfl, rfl⟩
  rcases hParts with ⟨hPaging, hMachine⟩
  rw [hPaging] at hOutcome
  have hNow :
      ∀ bytes,
        Coherent created
          { heap with machine := machine, memory := bytes } := by
    intro bytes
    rw [hMachine]
    exact (coherent_light created).memory _ bytes
      (hCoherent.withPaging hOutcome.forest hOutcome.top)
  have hAfter :
      Outstanding (machine.kernelCr3 :: created)
        machine.paging (frames ++ [page]) := by
    rw [hMachine]
    exact hFrames.of_adds hOutcome.adds hOutcome.free.subset
  have hRoot : machine.pml4 = heap.machine.pml4 := by
    rw [hMachine]
    rfl
  have hKernel : machine.kernelCr3 = heap.machine.kernelCr3 := by
    rw [hMachine]
    rfl
  constructor
  · intro hRefused
    refine ⟨?_, hAfter⟩
    refine
      { coherent := hNow heap.memory
        heapEnd := hGrowing.heapEnd
        firstBlock := hGrowing.firstBlock
        outstanding :=
          hAfter.subset (List.sublist_append_left frames _)
        holds := ?_
        slot := ?_ }
    · intro k frame hk
      rw [hRoot]
      exact (hOutcome.refused hRefused _ hCoherent.active
        _).trans (hGrowing.holds k frame hk)
    · intro hSome
      rcases hGrowing.slot hSome with ⟨table, hTable⟩
      refine ⟨table, ?_⟩
      change tableAt _ machine.kernelCr3 _ _ = _
      rw [hKernel]
      exact hOutcome.top _ List.mem_cons_self _ table hTable
  · intro hOk
    refine
      { coherent := hNow memory
        heapEnd := hGrowing.heapEnd
        firstBlock := hGrowing.firstBlock
        outstanding := hAfter
        holds := ?_
        slot := ?_ }
    · intro k frame hk
      rw [hRoot]
      rcases Nat.lt_trichotomy k frames.length with
        hOld | hNew | hOut
      · rw [List.getElem?_append_left hOld] at hk
        refine (hOutcome.kept hOk _ hCoherent.active _
          ?_).trans (hGrowing.holds k frame hk)
        rintro ⟨-, hIn⟩
        exact not_inPage_heap hStart hHigh
          (Nat.lt_succ_of_lt hOld) (Nat.lt_succ_self _)
          (Nat.ne_of_lt hOld) hIn
      · subst hNew
        rw [List.getElem?_append_right (Nat.le_refl _),
          Nat.sub_self] at hk
        cases hk
        have hAligned := hOutcome.aligned hOk
        refine (hOutcome.mapped hOk hArguments _
          hCoherent.active _ (.inr hShared) rfl).trans ?_
        rw [hAligned]
        rfl
      · rw [List.getElem?_eq_none
          (by rw [List.length_append]; exact hOut)] at hk
        cases hk
    · intro _
      rcases hOutcome.linked hOk with ⟨table, hTable⟩
      rw [← hRoot] at hTable
      exact HeapSlot.of_linked (hNow memory).forest
        (hNow memory).active hLow hTarget hTable

/- A frame that is taken from the free list. -/
theorem Growing.alloc
    {created frames rest : List Nat}
    {heap : Heap Spaces}
    {start firstBlock page : Nat}
    (hGrowing :
      Growing created start firstBlock frames heap)
    (hFree : heap.machine.paging.free = page :: rest) :
    let machine :=
      heap.machine.withPaging
        { heap.machine.paging with free := rest }
    Growing created start firstBlock frames
        { heap with machine := machine } ∧
      Outstanding (machine.kernelCr3 :: created)
        machine.paging (frames ++ [page]) := by
  intro machine
  rcases hGrowing.coherent.forest.alloc hGrowing.outstanding
    hFree with ⟨hForest, hFrames⟩
  refine ⟨?_, hFrames⟩
  exact
    { coherent :=
        hGrowing.coherent.withPaging hForest
          fun _ _ _ _ hTable => hTable
      heapEnd := hGrowing.heapEnd
      firstBlock := hGrowing.firstBlock
      outstanding :=
        hFrames.subset (List.sublist_append_left frames _)
      holds := hGrowing.holds
      slot := hGrowing.slot }

/- A frame that could not be mapped is freed again. -/
theorem Growing.giveBack
    {created frames : List Nat}
    {heap : Heap Spaces}
    {start firstBlock page : Nat}
    (hGrowing :
      Growing created start firstBlock frames heap)
    (hFrames :
      Outstanding (heap.machine.kernelCr3 :: created)
        heap.machine.paging (frames ++ [page])) :
    Growing created start firstBlock frames
      { heap with
        machine :=
          spaceSource.pmmFreePage page heap.machine } := by
  rcases hGrowing.coherent.forest.free
      (hFrames.perm
        (List.perm_append_singleton page frames)) with
    ⟨hForest, hRest⟩
  have hTables :
      (pmmFreePage page heap.machine.paging).tables =
        heap.machine.paging.tables := by
    unfold pmmFreePage
    split_ifs <;> rfl
  refine
    { coherent := hGrowing.coherent.withPaging hForest ?_
      heapEnd := hGrowing.heapEnd
      firstBlock := hGrowing.firstBlock
      outstanding := hRest
      holds := ?_
      slot := ?_ }
  · intro root _ v table hTable
    rw [hTables]
    exact hTable
  · intro k frame hk
    have hOld := hGrowing.holds k frame hk
    rw [← hTables] at hOld
    exact hOld
  · intro hSome
    rcases hGrowing.slot hSome with ⟨table, hTable⟩
    rw [← hTables] at hTable
    exact ⟨table, hTable⟩

/- The failure exits of the mapping loop. -/
theorem Growing.rollback
    {created frames : List Nat}
    {heap : Heap Spaces}
    {start firstBlock : Nat}
    (hGrowing :
      Growing created start firstBlock frames heap)
    (hHigh :
      start + 4096 * frames.length ≤
        kheapBase + kheapMaxSize) :
    Ensures (fun _ => True)
      (rollbackHeapMapping spaceSource start
        (4096 * frames.length)) heap
      fun _ final =>
        Coherent created final ∧
          final.firstBlock = firstBlock := by
  have hLow : kheapBase ≤ start := by
    rw [← hGrowing.heapEnd]
    exact hGrowing.coherent.low
  rw [← hGrowing.firstBlock]
  exact ensures_rollbackHeapMapping hGrowing.coherent
    hGrowing.outstanding hGrowing.holds hLow hHigh

/- What the mapping loop leaves behind. -/
def MapLoopPost
    (created : List Nat)
    (start firstBlock bytes : Nat)
    (ok : Bool)
    (final : Heap Spaces) : Prop :=
  Coherent created final ∧
    final.firstBlock = firstBlock ∧
    (ok = true →
      final.heapEnd = start ∧
        (0 < bytes → HeapSlot final.machine))

/- The state after a page was mapped. -/
def mappedHeap
    (heap : Heap Spaces)
    (target page : Nat)
    (machine : Spaces) : Heap Spaces :=
  { heap with
    machine := machine
    memory :=
      write heap.memory target KernelHeap.vmmPageSize
        (spaceSource.contents page machine) }

/-
  One pass of the mapping loop of `expand_heap`: there is no
  frame, the frame is mapped, or it is given back.
-/
theorem ensures_spaceMapVisit_iff
    {stops : HeapFault → Prop}
    {heap : Heap Spaces}
    {start bytes offset target : Nat}
    {post : Nat ⊕ Bool → Heap Spaces → Prop}
    (hInside : offset < bytes)
    (hTarget : wrap 64 (heap.heapEnd + offset) = target)
    (hFrames : ∀ page ∈ heap.machine.paging.free, page ≠ 0) :
    Ensures stops (mapVisit spaceSource start bytes offset)
        heap post ↔
      match heap.machine.paging.free with
      | [] =>
          Ensures stops
            (rollbackHeapMapping spaceSource start offset) heap
            fun _ final => post (.inr false) final
      | page :: rest =>
          let call :=
            spaceSource.vmmMapPage target page
              KernelHeap.vmmWritable
              (heap.machine.withPaging
                { heap.machine.paging with free := rest })
          if call.1 = true then
            post
              (.inl
                (wrap 64 (offset + KernelHeap.vmmPageSize)))
              (mappedHeap heap target page call.2)
          else
            Ensures stops
              (rollbackHeapMapping spaceSource start offset)
              { heap with
                machine :=
                  spaceSource.pmmFreePage page call.2 }
              fun _ final => post (.inr false) final := by
  unfold mapVisit
  rw [if_pos hInside]
  cases hFree : heap.machine.paging.free with
  | nil =>
      have hAlloc :
          spaceSource.pmmAllocPage heap.machine =
            (0, heap.machine) := by
        simp only [spaceSource, pmmAllocPage, hFree]
        rfl
      simp only [KernelHeap.pmmAllocPage, ensures_bind_iff,
        ensures_get_iff, ensures_set_iff, ensures_pure_iff,
        hAlloc, if_true]
  | cons page rest =>
      have hAlloc :
          spaceSource.pmmAllocPage heap.machine =
            (page,
              heap.machine.withPaging
                { heap.machine.paging with free := rest }) := by
        simp only [spaceSource, pmmAllocPage, hFree]
      have hPage :=
        hFrames page (by rw [hFree]; exact List.mem_cons_self)
      simp only [KernelHeap.pmmAllocPage, ensures_bind_iff,
        ensures_get_iff, ensures_set_iff, ensures_pure_iff,
        hAlloc, hPage, if_false, KernelHeap.vmmMapPage,
        hTarget]
      cases hMap :
          spaceSource.vmmMapPage target page
            KernelHeap.vmmWritable
            (heap.machine.withPaging
              { heap.machine.paging with free := rest }) with
      | mk ok machine =>
          cases ok with
          | false =>
              simp only [Bool.false_eq_true, if_false,
                ensures_set_iff, ensures_pure_iff,
                Bool.not_false, if_true,
                KernelHeap.pmmFreePage, ensures_bind_iff,
                ensures_modify_iff]
          | true =>
              simp only [if_true, ensures_bind_iff,
                ensures_set_iff, ensures_pure_iff,
                Bool.not_true, Bool.false_eq_true, if_false]
              rfl

/- The next page of the heap is below its limit. -/
theorem nextPage
    {start k bytes : Nat}
    (hInside : 4096 * k < bytes)
    (hBytes : bytes % 4096 = 0)
    (hHigh : start + bytes ≤ kheapBase + kheapMaxSize) :
    wrap 64 (start + 4096 * k) = start + 4096 * k ∧
      wrap 64 (4096 * k + KernelHeap.vmmPageSize) =
        4096 * (k + 1) ∧
      4096 * (k + 1) ≤ bytes ∧
      start + 4096 * (k + 1) ≤ kheapBase + kheapMaxSize ∧
      start + 4096 * k ≤ kheapBase + kheapMaxSize := by
  have hRoom : 4096 * (k + 1) ≤ bytes := by omega
  have hNext :
      start + 4096 * (k + 1) ≤ kheapBase + kheapMaxSize :=
    Nat.le_trans (Nat.add_le_add_left hRoom start) hHigh
  have hNow :
      start + 4096 * k ≤ kheapBase + kheapMaxSize :=
    Nat.le_trans
      (Nat.add_le_add_left
        (Nat.mul_le_mul_left 4096 (Nat.le_succ k)) start)
      hNext
  refine ⟨wrap_of_lt ?_, ?_, hRoom, hNext, hNow⟩
  · simp only [kheapBase, kheapMaxSize] at hNow
    omega
  · unfold KernelHeap.vmmPageSize
    refine wrap_of_lt ?_
    simp only [kheapBase, kheapMaxSize] at hNext
    omega

theorem Growing.visit
    {created frames : List Nat}
    {heap : Heap Spaces}
    {start firstBlock bytes : Nat}
    (hGrowing :
      Growing created start firstBlock frames heap)
    (hBytes : bytes % 4096 = 0)
    (hFrames : 4096 * frames.length ≤ bytes)
    (hHigh : start + bytes ≤ kheapBase + kheapMaxSize) :
    Ensures (fun _ => True)
      (mapVisit spaceSource start bytes
        (4096 * frames.length)) heap
      (Continues
        (fun next final =>
          ∃ frames' : List Nat,
            next = 4096 * frames'.length ∧
            4096 * frames'.length ≤ bytes ∧
            Growing created start firstBlock frames' final)
        (MapLoopPost created start firstBlock bytes)) := by
  by_cases hInside : 4096 * frames.length < bytes
  · rcases nextPage hInside hBytes hHigh with
      ⟨hTarget, hWrap, hRoom, hNext, hNow⟩
    have hRefused :
        ∀ final : Heap Spaces,
          Coherent created final ∧
            final.firstBlock = firstBlock →
          MapLoopPost created start firstBlock bytes false
            final :=
      fun final hFinal =>
        ⟨hFinal.1, hFinal.2,
          fun hTrue => absurd hTrue Bool.false_ne_true⟩
    have hFrom :
        wrap 64 (heap.heapEnd + 4096 * frames.length) =
          start + 4096 * frames.length := by
      rw [hGrowing.heapEnd]
      exact hTarget
    have hFrames :
        ∀ page ∈ heap.machine.paging.free, page ≠ 0 :=
      fun page hPage =>
        (hGrowing.coherent.forest.free_frame page hPage).1
    rw [ensures_spaceMapVisit_iff hInside hFrom hFrames]
    split
    · apply (hGrowing.rollback hNow).mono
      exact fun _ final hFinal => hRefused final hFinal
    · rename_i page rest hFree
      rcases hGrowing.alloc hFree with ⟨hTaken, hOut⟩
      have hMapped := hTaken.map hOut hNext rfl
      dsimp only
      split
      · rename_i hOk
        rw [continues_inl, hWrap]
        refine ⟨frames ++ [page], ?_, ?_,
          (hMapped _).2 hOk⟩
        · rw [List.length_append]
          rfl
        · rw [List.length_append]
          exact hRoom
      · rename_i hFailed
        rcases (hMapped heap.memory).1
            (Bool.eq_false_iff.mpr hFailed) with
          ⟨hKept, hStill⟩
        apply ((hKept.giveBack hStill).rollback hNow).mono
        exact fun _ final hFinal => hRefused final hFinal
  · unfold mapVisit
    rw [if_neg hInside, ensures_pure_iff, continues_inr]
    refine ⟨hGrowing.coherent, hGrowing.firstBlock, fun _ =>
      ⟨hGrowing.heapEnd, fun hPos => hGrowing.slot ?_⟩⟩
    rintro rfl
    simp at hInside
    omega

theorem ensures_spaceMapLoop
    {created : List Nat}
    {heap : Heap Spaces}
    {bytes : Nat}
    (hCoherent : Coherent created heap)
    (hBytes : bytes % 4096 = 0)
    (hHigh :
      heap.heapEnd + bytes ≤ kheapBase + kheapMaxSize) :
    Ensures (fun _ => True)
      (loop (throw .noReturn)
        (mapVisit spaceSource heap.heapEnd bytes) (2 ^ 64) 0)
      heap
      (MapLoopPost created heap.heapEnd heap.firstBlock
        bytes) := by
  apply ensures_loop fun _ offset final =>
    ∃ frames : List Nat,
      offset = 4096 * frames.length ∧
      4096 * frames.length ≤ bytes ∧
      Growing created heap.heapEnd heap.firstBlock frames
        final
  · intro _ _ _
    exact (ensures_throw_iff _ _ _ _).mpr trivial
  · rintro _ _ final ⟨frames, rfl, hRoom, hGrowing⟩
    exact hGrowing.visit hBytes hRoom hHigh
  · refine ⟨[], rfl, Nat.zero_le _, ?_⟩
    exact
      { coherent := hCoherent
        heapEnd := rfl
        firstBlock := rfl
        outstanding := Outstanding.nil _ _
        holds := by simp [HoldsFrames]
        slot := fun hSome => absurd rfl hSome }

/- The heap, coherent; if `known` holds, it has a block. -/
def Ready
    (created : List Nat)
    (known : Prop)
    (heap : Heap Spaces) : Prop :=
  Coherent created heap ∧ (known → heap.firstBlock ≠ 0)

theorem ready_light
    (created : List Nat)
    (known : Prop) :
    Light (Ready created known) where
  memory := fun heap memory h =>
    ⟨(coherent_light created).memory heap memory h.1, h.2⟩
  lastBlock := fun heap block h =>
    ⟨(coherent_light created).lastBlock heap block h.1, h.2⟩
  allocated := fun heap count h =>
    ⟨(coherent_light created).allocated heap count h.1, h.2⟩

/- Then the heap has its entry, too. -/
def Slotted
    (created : List Nat)
    (known : Prop)
    (heap : Heap Spaces) : Prop :=
  Ready created known heap ∧ HeapSlot heap.machine

theorem slotted_light
    (created : List Nat)
    (known : Prop) :
    Light (Slotted created known) where
  memory := fun heap memory h =>
    ⟨(ready_light created known).memory heap memory h.1, h.2⟩
  lastBlock := fun heap block h =>
    ⟨(ready_light created known).lastBlock heap block h.1,
      h.2⟩
  allocated := fun heap count h =>
    ⟨(ready_light created known).allocated heap count h.1,
      h.2⟩

/- The last steps of `expand_heap`, with at least one page. -/
theorem ensures_addChunk_ready
    {created : List Nat}
    {known : Prop}
    {heap : Heap Spaces}
    {bytes : Nat}
    (hReady : Ready created known heap)
    (hHigh :
      heap.heapEnd + bytes ≤ kheapBase + kheapMaxSize)
    (hSlot : 0 < bytes → HeapSlot heap.machine) :
    Ensures (fun _ => True) (addChunk heap.heapEnd bytes) heap
      fun _ final => Ready created known final := by
  have hLow := hReady.1.low
  have hWrap :
      wrap 64 (heap.heapEnd + bytes) =
        heap.heapEnd + bytes := by
    apply wrap_of_lt
    simp only [kheapBase, kheapMaxSize] at hHigh
    omega
  have hBlock : heap.heapEnd ≠ 0 := by
    simp only [kheapBase] at hLow
    omega
  unfold addChunk
  simp only [ensures_bind_iff, ensures_modify_iff, hWrap]
  unfold writeChunk
  by_cases hPos : 0 < bytes
  · have hLight := slotted_light created known
    have hRest :
        Keeps (Slotted created known)
          (do
            storeField .magic heap.heapEnd heapMagic
            storeFree heap.heapEnd true
            storeField .size heap.heapEnd
              (wrapSub 64 bytes blockOverhead)
            appendBlock heap.heapEnd) := by
      refine (hLight.preserves_storeField _ _ _).bind
        fun _ => ?_
      refine (hLight.preserves_storeFree _ _).bind fun _ => ?_
      refine (hLight.preserves_storeField _ _ _).bind
        fun _ => ?_
      refine hLight.preserves_appendBlock fun large hLarge => ?_
      exact ⟨⟨⟨hLarge.1.1.start, hLarge.1.1.low,
          hLarge.1.1.high, hLarge.1.1.forest,
          hLarge.1.1.active, fun _ => hLarge.2⟩,
        fun _ => hBlock⟩, hLarge.2⟩
    have hGrown :
        Slotted created known
          { heap with
            heapEnd := heap.heapEnd + bytes
            mappedBytes :=
              wrap 64 (heap.mappedBytes + bytes) } :=
      ⟨⟨⟨hReady.1.start,
          Nat.le_trans hLow (Nat.le_add_right _ _), hHigh,
          hReady.1.forest, hReady.1.active, hReady.1.slot⟩,
        hReady.2⟩, hSlot hPos⟩
    apply (hRest _ hGrown).mono
    intro _ middle hMiddle
    apply (hLight.preserves_coalescePrev _ middle hMiddle).mono
    exact fun _ _ hFinal => hFinal.1
  · -- Without a new page the header is outside the heap.
    have hOut :
        ¬ Heap.Accessible
          { heap with
            heapEnd := heap.heapEnd + bytes
            mappedBytes :=
              wrap 64 (heap.mappedBytes + bytes) }
          (heap.heapEnd + Field.offset .magic)
          (Field.width .magic) := by
      rintro ⟨-, hEnd⟩
      simp only [Field.offset, Field.width] at hEnd
      omega
    simp only [ensures_bind_iff, storeField, ensures_get_iff,
      if_neg hOut, ensures_throw_iff]

/- The heap grows by whole pages. -/
theorem alignUpSize_chunk
    (value : Nat) :
    alignUpSize value kheapChunkSize % 4096 = 0 ∧
      alignUpSize value kheapChunkSize < 2 ^ 64 := by
  have hSum :
      wrap 64 (value + kheapChunkSize - 1) < 2 ^ 64 :=
    wrap_lt 64 _
  have hDown :
      alignUpSize value kheapChunkSize =
        wrap 64 (value + kheapChunkSize - 1) -
          wrap 64 (value + kheapChunkSize - 1) % 2 ^ 16 :=
    @alignDown_two_pow 64 16 _ (by decide) hSum
  rw [hDown]
  omega

/- `expand_heap` keeps the spaces coherent. -/
theorem preserves_expandHeap
    (created : List Nat)
    (known : Prop)
    (size : Nat) :
    Keeps (Ready created known)
      (expandHeap spaceSource size) := by
  intro heap hReady
  have hBytes :=
    alignUpSize_chunk (wrap 64 (size + blockOverhead))
  unfold expandHeap
  simp only [ensures_bind_iff, ensures_get_iff]
  generalize
    alignUpSize (wrap 64 (size + blockOverhead))
      kheapChunkSize = bytes at *
  have hStart := hReady.1.start
  have hLow := hReady.1.low
  have hEnd := hReady.1.high
  rw [ensures_ite_iff]
  constructor
  · intro _
    exact (ensures_pure_iff _ _ _ _).mpr hReady
  · intro hFits
    have hHigh :
        heap.heapEnd + bytes ≤ kheapBase + kheapMaxSize := by
      simp only [kheapBase, kheapMaxSize, wrap] at *
      omega
    rw [ensures_bind_iff]
    apply (ensures_spaceMapLoop hReady.1 hBytes.1 hHigh).mono
    rintro mapped middle ⟨hMiddle, hFirst, hMapped⟩
    have hStill : Ready created known middle := by
      refine ⟨hMiddle, ?_⟩
      rw [hFirst]
      exact hReady.2
    cases mapped with
    | false =>
        simp only [Bool.not_false, if_true, ensures_pure_iff]
        exact hStill
    | true =>
        rcases hMapped rfl with ⟨hSame, hSlot⟩
        simp only [Bool.not_true, Bool.false_eq_true,
          if_false, ensures_bind_iff, ensures_pure_iff]
        rw [← hSame] at hHigh ⊢
        exact ensures_addChunk_ready hStill hHigh hSlot

end Vmm

end Whirliscope

------------------------------------------------------------
-- Allocating and Freeing
------------------------------------------------------------

namespace Whirliscope

namespace Vmm

open ByteMemory FaultProgram KernelHeap

/- A block is found only in a heap that has one. -/
theorem ensures_findFreeBlock_ready
    {created : List Nat}
    {known : Prop}
    {heap : Heap Spaces}
    {size : Nat}
    (hReady : Ready created known heap) :
    Ensures (fun _ => True) (findFreeBlock size) heap
      fun block final =>
        Ready created (known ∨ block ≠ 0) final := by
  by_cases hFirst : heap.firstBlock = 0
  · unfold findFreeBlock
    rw [ensures_bind_iff, ensures_get_iff, hFirst]
    apply ensures_loop fun _ block final =>
      block = 0 ∧ Ready created known final
    · intro _ _ _
      exact (ensures_throw_iff _ _ _ _).mpr trivial
    · rintro _ _ final ⟨rfl, hFinal⟩
      simp only [findFreeVisit, if_true, ensures_pure_iff,
        continues_inr]
      exact ⟨hFinal.1, fun hKnown =>
        hFinal.2 (hKnown.resolve_right (by simp))⟩
    · exact ⟨rfl, hReady⟩
  · have hBlock : Ready created True heap :=
      ⟨hReady.1, fun _ => hFirst⟩
    apply (Light.preserves_findFreeBlock size heap hBlock).mono
    exact fun _ final hFinal =>
      ⟨hFinal.1, fun _ => hFinal.2 trivial⟩

theorem ensures_takeBlock_ready
    {created : List Nat}
    {known : Prop}
    {heap : Heap Spaces}
    {block size : Nat}
    (hReady : Ready created (known ∨ block ≠ 0) heap)
    (hBlock : block ≠ 0) :
    Ensures (fun _ => True) (takeBlock block size) heap
      fun ptr final =>
        Ready created (known ∨ ptr ≠ 0) final := by
  have hLight := ready_light created (known ∨ block ≠ 0)
  apply (hLight.preserves_takeBlock block size heap
    hReady).mono
  exact fun _ final hFinal =>
    ⟨hFinal.1, fun _ => hFinal.2 (.inr hBlock)⟩

/- A heap that gave a block away has one. -/
theorem ensures_kmalloc_ready
    {created : List Nat}
    {known : Prop}
    {heap : Heap Spaces}
    (size : Nat)
    (hReady : Ready created known heap) :
    Ensures (fun _ => True) (kmalloc spaceSource size) heap
      fun ptr final =>
        Ready created (known ∨ ptr ≠ 0) final := by
  have hNull :
      ∀ final, Ready created known final →
        Ready created (known ∨ 0 ≠ 0) final :=
    fun final hFinal =>
      ⟨hFinal.1, fun hKnown =>
        hFinal.2 (hKnown.resolve_right (by simp))⟩
  unfold kmalloc
  rw [ensures_bind_iff, ensures_get_iff, ensures_ite_iff]
  constructor
  · intro _
    exact (ensures_pure_iff _ _ _ _).mpr (hNull heap hReady)
  · intro _
    rw [ensures_bind_iff]
    apply (ensures_findFreeBlock_ready hReady).mono
    intro found middle hFound
    rw [ensures_ite_iff]
    constructor
    · exact fun hSome => ensures_takeBlock_ready hFound hSome
    · intro _
      have hMiddle : Ready created known middle :=
        ⟨hFound.1, fun hKnown => hFound.2 (.inl hKnown)⟩
      rw [ensures_bind_iff]
      apply (preserves_expandHeap created known _ middle
        hMiddle).mono
      intro grown large hLarge
      rw [ensures_ite_iff]
      constructor
      · intro _
        exact (ensures_pure_iff _ _ _ _).mpr
          (hNull large hLarge)
      · intro _
        rw [ensures_bind_iff]
        apply (ensures_findFreeBlock_ready hLarge).mono
        intro block last hLast
        rw [ensures_ite_iff]
        constructor
        · rintro rfl
          exact (ensures_pure_iff _ _ _ _).mpr hLast
        · exact fun hSome =>
            ensures_takeBlock_ready hLast hSome

theorem Ready.mono
    {created : List Nat}
    {known fewer : Prop}
    {heap : Heap Spaces}
    (hReady : Ready created known heap)
    (hFewer : fewer → known) :
    Ready created fewer heap :=
  ⟨hReady.1, fun h => hReady.2 (hFewer h)⟩

theorem ensures_kcalloc_ready
    {created : List Nat}
    {known : Prop}
    {heap : Heap Spaces}
    (count size : Nat)
    (hReady : Ready created known heap) :
    Ensures (fun _ => True) (kcalloc spaceSource count size)
      heap
      fun ptr final =>
        Ready created (known ∨ ptr ≠ 0) final := by
  unfold kcalloc
  rw [ensures_ite_iff]
  constructor
  · intro _
    rw [ensures_pure_iff]
    exact hReady.mono (by simp)
  · intro _
    rw [ensures_bind_iff]
    apply (ensures_kmalloc_ready _ hReady).mono
    intro ptr middle hMiddle
    rw [ensures_ite_iff]
    constructor
    · intro _
      rw [ensures_bind_iff]
      have hLight := ready_light created (known ∨ ptr ≠ 0)
      apply (hLight.preserves_clearRange _ _ middle
        hMiddle).mono
      intro _ final hFinal
      exact (ensures_pure_iff _ _ _ _).mpr hFinal
    · intro _
      exact (ensures_pure_iff _ _ _ _).mpr hMiddle

theorem ensures_krealloc_ready
    {created : List Nat}
    {known : Prop}
    {heap : Heap Spaces}
    (ptr size : Nat)
    (hReady : Ready created known heap) :
    Ensures (fun _ => True) (krealloc spaceSource ptr size)
      heap
      fun result final =>
        Ready created (known ∨ (result ≠ 0 ∧ result ≠ ptr))
          final := by
  have hLight := ready_light created known
  unfold krealloc
  rw [ensures_ite_iff]
  constructor
  · rintro rfl
    apply (ensures_kmalloc_ready size hReady).mono
    intro result final hFinal
    exact hFinal.mono (Or.imp_right And.left)
  intro _
  rw [ensures_ite_iff]
  constructor
  · intro _
    rw [ensures_bind_iff]
    apply (hLight.preserves_kfree ptr heap hReady).mono
    intro _ final hFinal
    rw [ensures_pure_iff]
    exact hFinal.mono (by simp)
  intro _
  rw [ensures_bind_iff]
  apply (Light.preserves_loadField .magic _ heap hReady).mono
  intro _ checked hChecked
  rw [ensures_bind_iff]
  apply (Light.preserves_assert _ checked hChecked).mono
  intro _ valid hValid
  rw [ensures_bind_iff]
  apply (Light.preserves_loadField .size _ valid hValid).mono
  intro _ sized hSized
  rw [ensures_ite_iff]
  constructor
  · intro _
    rw [ensures_bind_iff]
    apply (hLight.preserves_shrinkBlock _ _ sized hSized).mono
    intro _ final hFinal
    rw [ensures_pure_iff]
    exact hFinal.mono (by simp)
  intro _
  rw [ensures_bind_iff]
  apply (ensures_kmalloc_ready size hSized).mono
  intro result middle hMiddle
  rw [ensures_ite_iff]
  constructor
  · rintro rfl
    rw [ensures_pure_iff]
    exact hMiddle.mono (Or.imp_right And.left)
  intro hSome
  -- The block is copied and the old one is freed.
  have hKept := ready_light created (known ∨ result ≠ 0)
  have hRest :
      Keeps (Ready created (known ∨ result ≠ 0))
        (do
          copyRange result ptr
            (← loadField .size (payloadBlock ptr))
          kfree ptr
          return result) := by
    refine (Light.preserves_loadField _ _).bind fun _ => ?_
    refine (hKept.preserves_copyRange _ _ _).bind fun _ => ?_
    refine (hKept.preserves_kfree _).bind fun _ => ?_
    exact Preserves.of_pure _ _
  apply (hRest middle hMiddle).mono
  intro value final hFinal
  exact hFinal.mono fun _ => .inr hSome

/- Every call of the heap keeps the spaces coherent. -/
theorem ensures_heapCall_ready
    {created : List Nat}
    {known : Prop}
    {heap : Heap Spaces}
    (call : HeapCall)
    (hReady : Ready created known heap) :
    Ensures (fun _ => True) call.run heap
      fun ptr final =>
        Ready created (known ∨ call.allocates ptr = true)
          final := by
  cases call with
  | kmalloc size =>
      apply (ensures_kmalloc_ready size hReady).mono
      intro ptr final hFinal
      simpa [HeapCall.allocates] using hFinal
  | kcalloc count size =>
      apply (ensures_kcalloc_ready count size hReady).mono
      intro ptr final hFinal
      simpa [HeapCall.allocates] using hFinal
  | krealloc old size =>
      apply (ensures_krealloc_ready old size hReady).mono
      intro ptr final hFinal
      simpa [HeapCall.allocates] using hFinal
  | kfree ptr =>
      have hLight := ready_light created known
      have hFree :=
        (hLight.preserves_kfree ptr).bind fun _ =>
          Preserves.of_pure (Ready created known) 0
      apply (hFree heap hReady).mono
      intro _ final hFinal
      simpa [HeapCall.allocates] using hFinal

end Vmm

end Whirliscope

------------------------------------------------------------
-- Runs
------------------------------------------------------------

namespace Whirliscope

namespace Vmm

open ByteMemory FaultProgram KernelHeap

/- The invariant of a run. -/
def System.Sound
    (system : System) : Prop :=
  Ready system.created (system.warmed = true) system.heap

/- Activation changes only which space is active. -/
theorem System.Sound.activate
    {system : System}
    {space : Nat}
    (hSound : system.Sound)
    (hSpace : space = 0 ∨ space ∈ system.created) :
    (system.withSpaces
      (vmmActivateAddressSpace space system.spaces)).Sound := by
  have hCoherent := hSound.1
  refine ⟨?_, hSound.2⟩
  refine
    { start := hCoherent.start
      low := hCoherent.low
      high := hCoherent.high
      forest := hCoherent.forest
      active := ?_
      slot := hCoherent.slot }
  change (if space = 0 then _ else _) ∈ _
  split_ifs with hKernel
  · exact List.mem_cons_self
  · exact List.mem_cons_of_mem _ (hSpace.resolve_left hKernel)

/- A frame taken for data. -/
theorem System.Sound.allocPage
    {system : System}
    (hSound : system.Sound) :
    (system.withSpaces
      (system.spaces.withPaging
        (pmmAllocPage system.spaces.paging).2)).Sound := by
  refine ⟨hSound.1.withPaging ?_ ?_, hSound.2⟩
  · unfold pmmAllocPage
    split
    · exact hSound.1.forest
    · rename_i page rest hFree
      exact (hSound.1.forest.alloc
        (Outstanding.nil _ _) hFree).1
  · intro root _ v table hTable
    unfold pmmAllocPage
    split <;> exact hTable

/- The new root joins the others. -/
theorem System.Sound.create
    {system : System}
    (hSound : system.Sound)
    (hWarmed : system.warmed = true) :
    ({ system.withSpaces
        (vmmCreateAddressSpace system.spaces).2 with
      created :=
        if (vmmCreateAddressSpace system.spaces).1 = 0 then
          system.created
        else
          (vmmCreateAddressSpace system.spaces).1 ::
            system.created } : System).Sound := by
  have hCoherent := hSound.1
  have hSlot := hCoherent.slot (.inr (hSound.2 hWarmed))
  cases hFree : system.spaces.paging.free with
  | nil =>
      have hNone :
          vmmCreateAddressSpace system.spaces =
            (0, system.spaces) := by
        simp only [vmmCreateAddressSpace, pmmAllocPage, hFree,
          if_true]
        rfl
      rw [hNone, if_pos rfl]
      exact hSound
  | cons page rest =>
      have hPage :=
        (hCoherent.forest.free_frame page
          (hFree ▸ List.mem_cons_self)).1
      have hSome :
          vmmCreateAddressSpace system.spaces =
            (page,
              system.spaces.withPaging
                (copyKernelHalf system.spaces.pml4 page
                  (({ system.spaces.paging with
                      free := rest } : Paging).clear
                    page))) := by
        simp only [vmmCreateAddressSpace, pmmAllocPage, hFree,
          hPage, if_false]
      rcases hCoherent.forest.create hCoherent.active hFree
        with ⟨hForest, hTop, -, -⟩
      rw [hSome, if_neg hPage]
      refine ⟨?_, hSound.2⟩
      refine
        { start := hCoherent.start
          low := hCoherent.low
          high := hCoherent.high
          forest := ?_
          active := ?_
          slot := ?_ }
      · exact hForest.of_roots
          (List.Perm.swap _ _ _).subset
      · rcases List.mem_cons.mp hCoherent.active with
          hKernel | hOther
        · exact hKernel ▸ List.mem_cons_self
        · exact List.mem_cons_of_mem _
            (List.mem_cons_of_mem _ hOther)
      · intro _
        rcases hSlot with ⟨table, hTable⟩
        exact ⟨table,
          hTop _ List.mem_cons_self _ table hTable⟩

/- A mapping in the user half of one space. -/
theorem mapUser_outcome
    {roots : List Nat}
    {space target physical flags : Nat}
    {s : Paging}
    (hForest : PageForest roots s)
    (hSpace : space ∈ roots)
    (hUser : levelIndex target 0 < 256)
    (hWord : physical < 2 ^ 64 ∧ flags < 2 ^ 64) :
    MapOutcome roots space target physical flags 12 s
      (vmmMapPageInSpace space target physical flags s).1
      (vmmMapPageInSpace space target physical flags s).2 := by
  unfold vmmMapPageInSpace
  split_ifs
  · exact MapOutcome.of_walk (WalkOutcome.stay hForest)
  · exact mapAtLevelInRoot_outcome hForest hSpace
      (.inr (.inr rfl)) hWord (.inl rfl)
      (.inr (.inl (Nat.not_le_of_lt hUser)))

theorem System.Sound.mapUser
    {system : System}
    {space target physical flags : Nat}
    (hSound : system.Sound)
    (hSpace : space ∈ system.created)
    (hUser : levelIndex target 0 < 256)
    (hWord : physical < 2 ^ 64 ∧ flags < 2 ^ 64) :
    (system.withSpaces
      (system.spaces.withPaging
        (vmmMapPageInSpace space target physical flags
          system.spaces.paging).2)).Sound := by
  have hOutcome :=
    mapUser_outcome hSound.1.forest
      (List.mem_cons_of_mem _ hSpace) hUser hWord
  exact ⟨hSound.1.withPaging hOutcome.forest hOutcome.top,
    hSound.2⟩

/- One event keeps the invariant. -/
theorem SpaceStep.sound
    {system system' : System}
    (hStep : SpaceStep system system')
    (hSound : system.Sound) :
    system'.Sound := by
  cases hStep with
  | allocPage => exact hSound.allocPage
  | create hWarmed => exact hSound.create hWarmed
  | activate space hSpace => exact hSound.activate hSpace
  | mapUser space target physical flags hSpace hUser hWord =>
      exact hSound.mapUser hSpace hUser hWord
  | heap call ptr heap hReturns =>
      have hEnsures := ensures_heapCall_ready call hSound
      refine (hEnsures.of_returns hReturns).mono ?_
      simp

theorem System.Initial.sound
    {system : System}
    (hInitial : system.Initial) :
    system.Sound := by
  rcases hInitial.heap with ⟨memory, hHeap⟩
  have hForest := (pageTree_iff_forest _ _).mp hInitial.tree
  refine ⟨?_, fun hWarmed => ?_⟩
  · rw [hInitial.created]
    refine
      { start := by rw [hHeap]; rfl
        low := by rw [hHeap]; exact Nat.le_refl _
        high := by rw [hHeap]; exact Nat.le_add_right _ _
        forest := hForest
        active := ?_
        slot := ?_ }
    · exact List.mem_singleton.mpr hInitial.active
    · rintro (hSome | hBlock)
      · exact absurd rfl hSome
      · exact absurd (by rw [hHeap]; rfl) hBlock
  · rw [hInitial.warmed] at hWarmed
    cases hWarmed

theorem SpaceRun.sound
    {first last : System}
    (hRun : SpaceRun first last)
    (hSound : first.Sound) :
    last.Sound := by
  induction hRun with
  | refl => exact hSound
  | step _ hStep ih => exact hStep.sound ih

/-
  In every run, the kernel heap is the same in all spaces, and
  a mapping in the user half of one space leaves the other
  spaces and the kernel half alone.
-/
theorem spaceRun_coherent
    {first last : System}
    (hInitial : first.Initial)
    (hRun : SpaceRun first last) :
    (∀ virtualAddress,
      kheapBase ≤ virtualAddress →
      virtualAddress < kheapBase + kheapMaxSize →
      ∀ space ∈ last.created,
        vmmVirtToPhys last.spaces.paging.tables space
            virtualAddress =
          vmmVirtToPhys last.spaces.paging.tables
            last.spaces.kernelCr3 virtualAddress) ∧
    (∀ space ∈ last.created, ∀ target physical flags,
      levelIndex target 0 < 256 →
      physical < 2 ^ 64 → flags < 2 ^ 64 →
      ∀ other ∈ last.roots, ∀ virtualAddress,
        other ≠ space ∨ 256 ≤ levelIndex virtualAddress 0 →
          vmmVirtToPhys
              (vmmMapPageInSpace space target physical flags
                last.spaces.paging).2.tables
              other virtualAddress =
            vmmVirtToPhys last.spaces.paging.tables other
              virtualAddress) := by
  have hCoherent := (hRun.sound hInitial.sound).1
  constructor
  · intro v hLow hHigh space hSpace
    have hShared : Shared v := by
      unfold Shared
      rw [levelIndex_heap hLow (Nat.le_of_lt hHigh)]
      decide
    rw [vmmVirtToPhys_eq_leafOf, vmmVirtToPhys_eq_leafOf]
    exact congrArg (Option.map Leaf.physical)
      (hCoherent.forest.leafOf_shared List.mem_cons_self
        (List.mem_cons_of_mem _ hSpace) hShared)
  · intro space hSpace target physical flags hUser hPhysical
      hFlags other hOther v hApart
    have hOutcome :=
      mapUser_outcome hCoherent.forest
        (List.mem_cons_of_mem _ hSpace) hUser
        ⟨hPhysical, hFlags⟩
    have hOutside :
        ¬ ((other = space ∨ Shared target) ∧
          InPage v target 12) := by
      rintro ⟨hSame | hShared, hIn⟩
      · have hPath :=
          (samePath_iff (.inr (.inr rfl)) v target).mpr hIn
        have hIndex := hPath 0 (by decide)
        rcases hApart with hNe | hKernel
        · exact hNe hSame
        · omega
      · exact Nat.not_le_of_lt hUser hShared
    rw [vmmVirtToPhys_eq_leafOf, vmmVirtToPhys_eq_leafOf]
    apply congrArg
    cases hOk :
        (vmmMapPageInSpace space target physical flags
          last.spaces.paging).1 with
    | false => exact hOutcome.refused hOk other hOther v
    | true => exact hOutcome.kept hOk other hOther v hOutside

/- A kernel with an empty root and some free frames. -/
def bootSystem : System where
  heap :=
    kheapInit zeros
      { paging :=
          { tables := zeros
            free :=
              (List.range 24).map fun k =>
                0x2000 + 0x1000 * k }
        kernelCr3 := 0x1000
        pml4 := 0x1000 }
  created := []
  warmed := false

/- After `kmalloc`, if it returns. -/
def warmSystem : System :=
  match (HeapCall.kmalloc 24).run.run bootSystem.heap with
  | .ok (ptr, heap) =>
      { bootSystem with
        heap := heap
        warmed := (HeapCall.kmalloc 24).allocates ptr }
  | .error _ => bootSystem

/- After the first space is created. -/
def userSystem : System :=
  let result := vmmCreateAddressSpace warmSystem.spaces
  { warmSystem.withSpaces result.2 with
    created :=
      if result.1 = 0 then warmSystem.created
      else result.1 :: warmSystem.created }

theorem bootSystem_initial : bootSystem.Initial where
  heap := ⟨zeros, rfl⟩
  created := rfl
  warmed := rfl
  active := rfl
  tree :=
    pageTree_zeros (by decide) (by decide) (by decide)
      (by decide)

theorem userSystem_run : SpaceRun bootSystem userSystem := by
  have hWarmed : warmSystem.warmed = true := by
    decide +kernel
  refine SpaceRun.step (SpaceRun.step (SpaceRun.refl _) ?_)
    (SpaceStep.create warmSystem hWarmed)
  unfold warmSystem at hWarmed ⊢
  split at hWarmed
  · rename_i ptr heap hRun
    exact SpaceStep.heap bootSystem (.kmalloc 24) ptr heap hRun
  · cases hWarmed

/- The first heap page in a new space. -/
theorem userSystem_coherent :
    userSystem.created = [0x15000] ∧
      vmmVirtToPhys userSystem.spaces.paging.tables 0x15000
          kheapBase =
        vmmVirtToPhys userSystem.spaces.paging.tables
          userSystem.spaces.kernelCr3 kheapBase ∧
      vmmVirtToPhys userSystem.spaces.paging.tables 0x15000
        kheapBase = some 0x2000 := by
  have hCreated : userSystem.created = [0x15000] := by
    decide +kernel
  refine ⟨hCreated, ?_, by decide +kernel⟩
  apply (spaceRun_coherent bootSystem_initial
    userSystem_run).1 kheapBase (Nat.le_refl _)
    (by decide) 0x15000
  rw [hCreated]
  exact List.mem_singleton_self _

end Vmm

end Whirliscope
