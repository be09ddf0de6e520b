import Whirliscope.Memory.HeapGrowth

/-
  What allocating, freeing and resizing do to the used blocks.

  Main declarations:
    * `Sound`, `Used`
    * `ensures_kmalloc`, `ensures_kcalloc`
    * `ensures_kfree`, `ensures_krealloc`
    * `ensures_kheapValidate`
-/

------------------------------------------------------------
-- Sound Heaps
------------------------------------------------------------

namespace Whirliscope

namespace KernelHeap

open ByteMemory FaultProgram Tiling

variable {σ : Type}

/- The invariant of the heap between calls. -/
structure Sound
    (heap : Heap σ)
    (blocks : List Block) : Prop where
  layout : Layout heap blocks
  noAdjacentFree : NoAdjacentFree blocks
  allocated : heap.allocatedBytes = usedBytes blocks

/- A used block and its size. -/
def Used
    (blocks : List Block)
    (address size : Nat) : Prop :=
  At 32 kheapBase blocks address ⟨size, false⟩

/- Writes into a payload keep the heap sound. -/
theorem Sound.writePayload
    {heap : Heap σ}
    {blocks : List Block}
    (hSound : Sound heap blocks)
    {address size : Nat}
    (hUsed : Used blocks address size)
    {start count : Nat}
    (hStart : address + 32 ≤ start)
    (hCount : start + count ≤ address + 32 + size)
    (bytes : Bytes) :
    Sound (heap.withMemory
      (write heap.memory start count bytes)) blocks where
  noAdjacentFree := hSound.noAdjacentFree
  allocated := hSound.allocated
  layout := by
    have hSame :
        SameRange heap
          (heap.withMemory
            (write heap.memory start count bytes)) :=
      ⟨rfl, rfl, rfl, rfl, rfl⟩
    apply hSound.layout.congr hSame rfl
    intro a block p n hAt hHeader
    apply hHeader.of_same
    intro field
    apply getLE_write_of_disjoint
    have hField := field_fits field
    unfold heapBlockSize at hField
    rcases hUsed.disjoint hAt with
      ⟨rfl, -⟩ | hAfter | hBefore
    · omega
    · unfold Block.span at hAfter
      simp only at hAfter
      omega
    · unfold Block.span at hBefore
      omega

/- The used bytes fit a word. -/
theorem Sound.allocated_lt
    {heap : Heap σ}
    {blocks : List Block}
    (hSound : Sound heap blocks) :
    heap.allocatedBytes < 2 ^ 64 := by
  have hLimit := @usedBytes_le 32 kheapBase blocks
  have hBound := hSound.layout.bound
  rw [← hSound.layout.stop, ← hSound.allocated] at hLimit
  unfold kheapBase kheapMaxSize at *
  omega

/- There is one block at an address. -/
theorem Used.unique
    {blocks : List Block}
    {address size : Nat}
    {block : Block}
    (hUsed : Used blocks address size)
    (hAt : At 32 kheapBase blocks address block) :
    block = ⟨size, false⟩ := by
  rcases hUsed.disjoint hAt with
    ⟨-, hSame⟩ | hAfter | hBefore
  · exact hSame.symm
  · unfold Block.span at hAfter
    omega
  · unfold Block.span at hBefore
    omega

/- Payloads of different blocks do not overlap. -/
theorem Used.payload_apart
    {blocks : List Block}
    {address size other n x : Nat}
    (hUsed : Used blocks address size)
    (hOther : Used blocks other n)
    (hNe : other ≠ address)
    (hInside : other + 32 ≤ x ∧ x < other + 32 + n) :
    x < address + 32 ∨ address + 32 + size ≤ x := by
  rcases At.disjoint hUsed hOther with
    ⟨hSame, -⟩ | hBefore | hAfter
  · exact absurd hSame.symm hNe
  · unfold Block.span at hBefore
    simp only at hBefore
    omega
  · unfold Block.span at hAfter
    simp only at hAfter
    omega

/- A payload byte belongs to the payload of one block. -/
theorem Used.usedByte
    {blocks : List Block}
    {address size i : Nat}
    (hUsed : Used blocks address size)
    (hi : i < size) :
    UsedByte blocks (address + 32 + i) :=
  ⟨address, size, hUsed, by omega, by omega⟩

end KernelHeap

end Whirliscope

------------------------------------------------------------
-- Allocation
------------------------------------------------------------

namespace Whirliscope

namespace KernelHeap

open ByteMemory FaultProgram Tiling

variable {σ : Type} (source : PageSource σ)

/- One more used block. -/
def Gained
    (blocks blocks' : List Block)
    (address size : Nat) : Prop :=
  ∀ a n, Used blocks' a n ↔
    Used blocks a n ∨ (a = address ∧ n = size)

/- The last steps of an allocation. -/
theorem ensures_markUsed
    {heap : Heap σ}
    {before after : List Block}
    {block : Block}
    {address : Nat}
    (hLocated : Located heap before block after address)
    (hFree : block.free = true)
    (hAllocated :
      heap.allocatedBytes =
        usedBytes (before ++ block :: after)) :
    Ensures (fun _ => False)
      (do
        storeFree address false
        let blockSize ← loadField .size address
        modify fun heap =>
          { heap with
            allocatedBytes :=
              wrap 64 (heap.allocatedBytes + blockSize) }
        return blockPayload address)
      heap
      fun ptr final =>
        ptr = address + 32 ∧
          Layout final
            (before ++ { block with free := false } :: after) ∧
          final.allocatedBytes =
            usedBytes
              (before ++
                { block with free := false } :: after) ∧
          KeepsPayloads (before ++ block :: after) heap
            final := by
  have hUsed := hLocated.setFree false
  have hBound := hUsed.layout.bound
  have hTotal :
      usedBytes
          (before ++ { block with free := false } :: after) =
        heap.allocatedBytes + block.size := by
    rw [hAllocated]
    simp [hFree]
    omega
  have hLimit := @usedBytes_le 32 kheapBase
    (before ++ { block with free := false } :: after)
  rw [← hUsed.layout.stop] at hLimit
  unfold kheapBase kheapMaxSize at *
  simp only [ensures_bind_iff,
    ensures_storeFree_iff hLocated.accessible,
    ensures_loadField_iff hUsed.accessible,
    hUsed.header.size, ensures_modify_iff, ensures_pure_iff]
  refine ⟨hLocated.payload, ?_, ?_, ?_⟩
  · exact hUsed.layout.setAllocated _
  · change wrap 64 (heap.allocatedBytes + block.size) = _
    rw [hTotal]
    exact wrap_of_lt (by omega)
  · intro x hPayload
    have hOutside := hPayload.outside
    rw [← hLocated.address_eq] at hOutside
    apply ((KeptOutside.refl [address] heap).setField
      (List.mem_singleton_self _) .free _) x
    simpa using hOutside

/- Taking a free block that is large enough. -/
theorem ensures_takeBlock
    {heap : Heap σ}
    {before after : List Block}
    {block : Block}
    {address size : Nat}
    (hSound : Sound heap (before ++ block :: after))
    (hAddress : address = stop 32 kheapBase before)
    (hSuits : Suits size block)
    (hAligned : 16 ∣ size) :
    Ensures (fun _ => False) (takeBlock address size) heap
      fun ptr final =>
        ptr = address + 32 ∧
          KeepsPayloads (before ++ block :: after) heap
            final ∧
          ∃ blocks' taken, Sound final blocks' ∧
            size ≤ taken ∧
            Gained (before ++ block :: after) blocks' address
              taken := by
  have hLocated :
      Located heap before block after address :=
    ⟨hSound.layout, hAddress⟩
  unfold takeBlock
  rw [ensures_bind_iff]
  apply (ensures_splitBlock hLocated hAligned
    hSuits.2).mono
  rintro _ middle ⟨⟨hMiddle, hAllocated⟩, hSplitKept⟩
  rw [hSound.allocated] at hAllocated
  by_cases hSmall : block.size < size + 48
  · simp only [splitBlocks, hSmall, if_true]
      at hMiddle hSplitKept
    apply (ensures_markUsed ⟨hMiddle, hAddress⟩ hSuits.1
      hAllocated).mono
    rintro ptr final ⟨hPtr, hFinal, hTotal, hKept⟩
    refine ⟨hPtr,
      hSplitKept.trans hKept fun _ _ => Iff.rfl, _,
      block.size,
      ⟨hFinal, ?_, hTotal⟩, hSuits.2, ?_⟩
    · exact hSound.noAdjacentFree.replace
        (fun hFalse => absurd hFalse Bool.false_ne_true)
    · intro a n
      have hNot : (⟨n, false⟩ : Block) ≠ block := by
        rintro rfl
        exact Bool.false_ne_true hSuits.1
      simp [Used, hNot, hAddress, Block.span]
      tauto
  · simp only [splitBlocks, hSmall, if_false]
      at hMiddle hSplitKept
    have hNot : ∀ n, (⟨n, false⟩ : Block) ≠ block := by
      rintro n rfl
      exact Bool.false_ne_true hSuits.1
    have hEnd :
        stop 32 kheapBase before + (32 + size) +
            (32 + (block.size - size - 32)) =
          stop 32 kheapBase before + (32 + block.size) := by
      omega
    have hBytes :
        middle.allocatedBytes =
          usedBytes
            (before ++
              { size := size, free := block.free } ::
                { size := block.size - size - 32
                  free := true } :: after) := by
      rw [hAllocated]
      simp [hSuits.1]
    apply (ensures_markUsed ⟨hMiddle, hAddress⟩ hSuits.1
      hBytes).mono
    rintro ptr final ⟨hPtr, hFinal, hTotal, hKept⟩
    have hSame :
        ∀ a n,
          At 32 kheapBase (before ++ block :: after) a
              ⟨n, false⟩ →
            At 32 kheapBase
              (before ++
                { size := size, free := block.free } ::
                  { size := block.size - size - 32
                    free := true } :: after) a
              ⟨n, false⟩ := by
      intro a n
      simp [hNot, hSuits.1, Block.span, hEnd]
    refine ⟨hPtr,
      (hSplitKept.congr hSame).trans (hKept.congr hSame)
        fun _ _ => Iff.rfl, _, size,
      ⟨hFinal, ?_, hTotal⟩, le_refl _, ?_⟩
    · have hRest :
          NoAdjacentFree
            (before ++
              { size := block.size - size - 32
                free := true } :: after) :=
        hSound.noAdjacentFree.replace fun _ => hSuits.1
      exact hRest.insert rfl
    · intro a n
      simp [Used, hNot, hAddress, Block.span, hEnd]
      tauto

/- The aligned size of a request. -/
theorem alignUpSize_request
    {size : Nat}
    (hPos : 0 < size)
    (hSize : size ≤ kheapMaxSize) :
    size ≤ alignUpSize size heapAlign ∧
      alignUpSize size heapAlign ≤ kheapMaxSize ∧
      16 ∣ alignUpSize size heapAlign ∧
      alignUpSize size heapAlign < size + 16 := by
  unfold kheapMaxSize at *
  have hSum :
      wrap 64 (size + heapAlign - 1) = size + 15 :=
    wrap_of_lt (by unfold heapAlign; omega)
  have hAligned :
      alignUpSize size heapAlign =
        size + 15 - (size + 15) % 16 := by
    rw [alignUpSize, alignUp, hSum]
    exact @alignDown_two_pow 64 4 _ (by decide) (by omega)
  rw [hAligned]
  omega

/- The outcome of an allocation. -/
def Allocated
    (blocks : List Block)
    (size ptr : Nat)
    (final : Heap σ) : Prop :=
  (ptr = 0 ∧ ∃ blocks', Sound final blocks' ∧
      ∀ a n, Used blocks' a n ↔ Used blocks a n) ∨
    ∃ blocks' address taken,
      Sound final blocks' ∧
        ptr = address + 32 ∧
        size ≤ taken ∧
        (∀ n, ¬ Used blocks address n) ∧
        Gained blocks blocks' address taken

theorem ensures_kmalloc
    {heap : Heap σ}
    {blocks : List Block}
    (hSound : Sound heap blocks)
    {size : Nat}
    (hSize : size ≤ kheapMaxSize) :
    Ensures (fun _ => False) (kmalloc source size) heap
      fun ptr final =>
        Allocated blocks size ptr final ∧
          KeepsPayloads blocks heap final ∧
          (ptr = 0 → SameBelow heap final) := by
  unfold kmalloc
  simp only [ensures_bind_iff, ensures_get_iff,
    hSound.layout.initialized, Bool.not_true, Bool.false_or]
  by_cases hZero : size = 0
  · simp only [hZero, beq_self_eq_true, if_true,
      ensures_pure_iff]
    exact ⟨.inl ⟨rfl, blocks, hSound, fun _ _ => Iff.rfl⟩,
      fun _ _ => rfl, fun _ => SameBelow.refl heap⟩
  have hPos : 0 < size := Nat.pos_of_ne_zero hZero
  have hRequest := alignUpSize_request hPos hSize
  simp only [beq_iff_eq, hZero, if_false, ensures_bind_iff]
  generalize alignUpSize size heapAlign = aligned at *
  -- A block that was found is taken.
  have hTake :
      ∀ (state : Heap σ) current found, Sound state current →
        (∀ a n, Used current a n ↔ Used blocks a n) →
        KeepsPayloads blocks heap state →
        Found current aligned found → found ≠ 0 →
          Ensures (fun _ => False) (takeBlock found aligned)
            state fun ptr final =>
              Allocated blocks size ptr final ∧
                KeepsPayloads blocks heap final ∧
                (ptr = 0 → SameBelow heap final) := by
    intro state current found hState hUsed hBefore hFound
      hNonzero
    rcases hFound with
      ⟨hNone, -⟩ | ⟨before, block, after, rfl, hSuits, hAt⟩
    · exact absurd hNone hNonzero
    · apply (ensures_takeBlock hState hAt hSuits
        hRequest.2.2.1).mono
      rintro ptr final
        ⟨hPtr, hKept, blocks', taken, hFinal, hTaken,
          hGained⟩
      refine ⟨.inr ⟨blocks', found, taken, hFinal, hPtr,
        le_trans hRequest.1 hTaken, ?_, ?_⟩,
        hBefore.trans hKept hUsed, fun hNull => ?_⟩
      · intro n hOld
        have hBlock :=
          ((hUsed found n).mpr hOld).unique
            ⟨before, after, rfl, hAt⟩
        rw [hBlock] at hSuits
        exact Bool.false_ne_true hSuits.1
      · intro a n
        rw [hGained a n, hUsed a n]
      · omega
  apply (ensures_findFreeBlock hSound.layout aligned).mono
  rintro found _ ⟨rfl, hFound⟩
  by_cases hNone : found = 0
  · simp only [hNone, ne_eq, not_true_eq_false, if_false,
      ensures_bind_iff]
    apply (ensures_expandHeap source hSound.layout
      (by omega) hRequest.2.2.1 hRequest.2.1).mono
    rintro grown middle
      ⟨hAllocated, hKept, blocks', hMiddle, hSame, hSuits,
        hBelow⟩
    have hMiddleSound : Sound middle blocks' :=
      ⟨hMiddle, hSame.noAdjacentFree hSound.noAdjacentFree,
        by rw [hAllocated, hSound.allocated, hSame.bytes]⟩
    have hUsed :
        ∀ a n, Used blocks' a n ↔ Used blocks a n :=
      hSame.at_iff
    cases grown with
    | false =>
        simp only [Bool.not_false, if_true, ensures_pure_iff]
        exact ⟨.inl ⟨rfl, blocks', hMiddleSound, hUsed⟩,
          hKept, fun _ => hBelow rfl⟩
    | true =>
        simp only [Bool.not_true, Bool.false_eq_true,
          if_false, ensures_bind_iff]
        apply (ensures_findFreeBlock hMiddle aligned).mono
        rintro again _ ⟨rfl, hAgain⟩
        by_cases hStill : again = 0
        · -- The block that was added suits.
          rcases hSuits rfl with ⟨block, hMem, hSuit⟩
          rcases hAgain with
            ⟨-, hNot⟩ | ⟨before, _, _, -, -, hAt⟩
          · exact absurd hSuit (hNot block hMem)
          · have hLe := @le_stop 32 kheapBase before
            unfold kheapBase at hLe hAt
            omega
        · simp only [hStill, if_false]
          exact hTake _ blocks' again hMiddleSound hUsed
            hKept hAgain hStill
  · simp only [ne_eq, hNone, not_false_eq_true, if_true]
    exact hTake _ blocks found hSound (fun _ _ => Iff.rfl)
      (fun _ _ => rfl) hFound hNone

/- Bytes of a payload are in the mapped range. -/
theorem Sound.accessible
    {heap : Heap σ}
    {blocks : List Block}
    (hSound : Sound heap blocks)
    {address size : Nat}
    (hUsed : Used blocks address size)
    {count : Nat}
    (hCount : count ≤ size) :
    heap.Accessible (address + 32) count := by
  have hLe := hUsed.le
  rw [← hSound.layout.stop] at hLe
  unfold Heap.Accessible
  rw [hSound.layout.start]
  unfold Block.span at hLe
  simp only at hLe
  omega

theorem ensures_kcalloc
    {heap : Heap σ}
    {blocks : List Block}
    (hSound : Sound heap blocks)
    {count size : Nat}
    (hSize : count * size ≤ kheapMaxSize) :
    Ensures (fun _ => False) (kcalloc source count size) heap
      fun ptr final =>
        Allocated blocks (count * size) ptr final ∧
          KeepsPayloads blocks heap final ∧
          (ptr = 0 → SameBelow heap final) ∧
          (ptr ≠ 0 →
            ∀ i, i < count * size →
              final.memory (ptr + i) = 0) := by
  have hWrap : wrap 64 (count * size) = count * size := by
    apply wrap_of_lt
    unfold kheapMaxSize at hSize
    omega
  unfold kcalloc
  by_cases hOverflow :
      size ≠ 0 ∧ count > (2 ^ 64 - 1) / size
  · rw [if_pos hOverflow, ensures_pure_iff]
    exact ⟨.inl ⟨rfl, blocks, hSound, fun _ _ => Iff.rfl⟩,
      fun _ _ => rfl, fun _ => SameBelow.refl heap,
      fun hNonzero => absurd rfl hNonzero⟩
  rw [if_neg hOverflow, hWrap, ensures_bind_iff]
  apply (ensures_kmalloc source hSound hSize).mono
  rintro ptr middle ⟨hAllocated, hKept, hBelow⟩
  rcases hAllocated with
    ⟨rfl, blocks', hMiddle, hUsed⟩ |
      ⟨blocks', address, taken, hMiddle, rfl, hTaken, hNew,
        hGained⟩
  · simp only [ne_eq, not_true_eq_false, if_false,
      ensures_pure_iff]
    exact ⟨.inl ⟨rfl, blocks', hMiddle, hUsed⟩, hKept,
      fun _ => hBelow rfl, fun hFalse => hFalse.elim⟩
  · have hUsed : Used blocks' address taken :=
      (hGained address taken).mpr (.inr ⟨rfl, rfl⟩)
    have hNonzero : address + 32 ≠ 0 := by omega
    have hAccessible := hMiddle.accessible hUsed hTaken
    simp only [ne_eq, hNonzero, not_false_eq_true, if_true,
      clearRange, ensures_bind_iff, ensures_get_iff,
      hAccessible, ensures_set_iff, ensures_pure_iff]
    refine ⟨.inr ⟨blocks', address, taken,
      hMiddle.writePayload hUsed (le_refl _) (by omega) zeros,
      rfl, hTaken, hNew, hGained⟩, ?_, ?_, ?_⟩
    · rintro x ⟨other, n, hOther, hInside⟩
      have hStill : Used blocks' other n :=
        (hGained other n).mpr (.inl hOther)
      have hApart : other ≠ address := by
        rintro rfl
        exact hNew n hOther
      have hOutside :=
        hUsed.payload_apart hStill hApart hInside
      change write _ _ _ _ x = _
      rw [write_of_not_mem (by omega),
        hKept x ⟨other, n, hOther, hInside⟩]
    · exact fun hFalse => absurd hFalse id
    · intro _ i hi
      change write _ _ _ _ _ = _
      rw [write_of_mem (by omega) (by omega)]
      rfl

end KernelHeap

end Whirliscope

------------------------------------------------------------
-- Freeing
------------------------------------------------------------

namespace Whirliscope

namespace KernelHeap

open ByteMemory FaultProgram Tiling

variable {σ : Type} (source : PageSource σ)

/- Merging a free block with the rest of the list. -/
theorem mergeBlocks_free
    (block : Block)
    (hFree : block.free = true)
    (after : List Block) :
    ∃ first rest,
      mergeBlocks block after = first :: rest ∧
        first.free = true ∧
        (∀ base a n,
          At 32 base (first :: rest) a ⟨n, false⟩ ↔
            At 32 base (block :: after) a ⟨n, false⟩) ∧
        usedBytes (first :: rest) =
          usedBytes (block :: after) ∧
        (NoAdjacentFree after →
          NoAdjacentFree (first :: rest)) := by
  have hNot : ∀ n, (⟨n, false⟩ : Block) ≠ block := by
    rintro n rfl
    exact Bool.false_ne_true hFree
  cases after with
  | nil =>
      refine ⟨block, [], rfl, hFree, ?_, rfl, ?_⟩
      · intro base a n
        exact Iff.rfl
      · intro _
        exact List.isChain_singleton _
  | cons other rest =>
      cases hOther : other.free with
      | true =>
          have hNotOther :
              ∀ n, (⟨n, false⟩ : Block) ≠ other := by
            rintro n rfl
            exact Bool.false_ne_true hOther
          refine
            ⟨{ size := block.size + 32 + other.size
               free := block.free }, rest,
              by simp [mergeBlocks, hOther], hFree, ?_, ?_,
              ?_⟩
          · intro base a n
            have hEnd :
                base + (32 + (block.size + 32 + other.size)) =
                  base + (32 + block.size) +
                    (32 + other.size) := by
              omega
            simp [hNot, hNotOther, hFree, Block.span, hEnd]
          · simp [hFree, hOther]
          · intro hRest
            have hReplaced :=
              @NoAdjacentFree.replace [] rest other
                { size := block.size + 32 + other.size
                  free := block.free } hRest
                (fun _ => hOther)
            exact hReplaced
      | false =>
          refine ⟨block, other :: rest,
            by simp [mergeBlocks, hOther], hFree, ?_, rfl, ?_⟩
          · intro base a n
            exact Iff.rfl
          · intro hRest
            apply List.isChain_cons_cons.mpr
            refine ⟨?_, hRest⟩
            rintro ⟨-, hBoth⟩
            exact Bool.false_ne_true
              (hOther.symm.trans hBoth)

/- One used block less. -/
def Lost
    (blocks blocks' : List Block)
    (address : Nat) : Prop :=
  ∀ a n, Used blocks' a n ↔ Used blocks a n ∧ a ≠ address

theorem Lost.of_split
    {before after rest : List Block}
    {first : Block}
    {size : Nat}
    (hMerged :
      ∀ base a n,
        At 32 base (first :: rest) a ⟨n, false⟩ ↔
          At 32 base (⟨size, true⟩ :: after) a ⟨n, false⟩) :
    Lost (before ++ ⟨size, false⟩ :: after)
      (before ++ first :: rest)
      (stop 32 kheapBase before) := by
  intro a n
  have hBefore :
      At 32 kheapBase before a ⟨n, false⟩ →
        a ≠ stop 32 kheapBase before := by
    intro hAt
    have hLe := hAt.le.2
    unfold Block.span at hLe
    omega
  have hAfter :
      At 32 (stop 32 kheapBase before + (32 + size)) after a
          ⟨n, false⟩ →
        a ≠ stop 32 kheapBase before := by
    intro hAt
    have hLe := hAt.le.1
    omega
  unfold Used
  rw [at_append_iff, at_append_iff, hMerged, at_cons_iff,
    at_cons_iff]
  simp only [Block.span, Block.mk.injEq, Bool.false_eq_true,
    and_false, false_or, and_true]
  tauto

theorem payloadBlock_add
    {address : Nat}
    (hAddress : address + 32 < 2 ^ 64) :
    payloadBlock (address + 32) = address := by
  rw [payloadBlock, blockOverhead_eq,
    wrapSub_of_le hAddress (by omega)]
  omega

/- Merging a free block to the left keeps the used blocks. -/
theorem ensures_tidyLeft
    {heap : Heap σ}
    {before rest : List Block}
    {first : Block}
    {address : Nat}
    (hLocated : Located heap before first rest address)
    (hFree : first.free = true)
    (hBefore : NoAdjacentFree before)
    (hRest : NoAdjacentFree (first :: rest))
    (hAllocated :
      heap.allocatedBytes =
        usedBytes (before ++ first :: rest)) :
    Ensures (fun _ => False) (coalescePrev address) heap
      fun _ final =>
        ∃ blocks', Sound final blocks' ∧
          KeepsPayloads blocks' heap final ∧
          ∀ a n, Used blocks' a n ↔
            Used (before ++ first :: rest) a n := by
  apply (ensures_coalescePrev hLocated).mono
  rintro _ final hFinal
  rcases hFinal with
    ⟨⟨⟨hFinal, hSame⟩, hKept⟩, hLast⟩ |
      ⟨front, last, rfl, hLast, ⟨hFinal, hSame⟩, hKept⟩
  · exact ⟨_, ⟨hFinal, hBefore.join hRest hLast,
      hSame.trans hAllocated⟩, hKept, fun _ _ => Iff.rfl⟩
  · rcases mergeBlocks_free last hLast (first :: rest) with
      ⟨merged, others, hMerge, -, hUsed, hBytes, -⟩
    refine ⟨_, ⟨hFinal, ?_, ?_⟩, hKept, ?_⟩
    · simp only [mergeBlocks, hFree, if_true]
      exact hBefore.fuse hRest (fun _ => hLast)
        fun _ => hFree
    · rw [hSame, hAllocated, hMerge, List.append_assoc,
        List.singleton_append, usedBytes_append,
        usedBytes_append, hBytes]
    · intro a n
      rw [Used, Used, List.append_assoc, at_append_iff,
        at_append_iff, hMerge, hUsed]
      rfl

theorem ensures_kfree
    {heap : Heap σ}
    {blocks : List Block}
    (hSound : Sound heap blocks)
    {address size : Nat}
    (hUsed : Used blocks address size) :
    Ensures (fun _ => False) (kfree (address + 32)) heap
      fun _ final =>
        ∃ blocks', Sound final blocks' ∧
          KeepsPayloads blocks' heap final ∧
          Lost blocks blocks' address := by
  rcases hUsed with ⟨before, after, rfl, hAddress⟩
  have hLocated :
      Located heap before ⟨size, false⟩ after address :=
    ⟨hSound.layout, hAddress⟩
  have hFreed := hLocated.setFree true
  have hHeader := hLocated.header
  have hAccessible := hLocated.accessible
  have hBounds := hLocated.bounds
  simp only at hBounds
  unfold kheapBase kheapMaxSize at hBounds
  have hNonzero : address + 32 ≠ 0 := by omega
  have hBlock :
      payloadBlock (address + 32) = address :=
    payloadBlock_add (by omega)
  unfold kfree
  simp only [hNonzero, if_false, hBlock, ensures_bind_iff,
    ensures_loadField_iff hAccessible, hHeader.magic,
    beq_self_eq_true, assert, if_true, ensures_pure_iff,
    ensures_loadFree_iff hAccessible, hHeader.free,
    Bool.toNat_false, ne_eq, not_true_eq_false, decide_false,
    Bool.not_false, ensures_storeFree_iff hAccessible,
    ensures_loadField_iff hFreed.accessible,
    hFreed.header.size, ensures_modify_iff]
  have hTotal :
      usedBytes (before ++ ⟨size, true⟩ :: after) + size =
        heap.allocatedBytes := by
    rw [hSound.allocated]
    simp
    omega
  have hLimit := hSound.allocated_lt
  have hBytes :
      wrapSub 64 heap.allocatedBytes size =
        usedBytes (before ++ ⟨size, true⟩ :: after) := by
    rw [wrapSub_of_le hLimit (by omega)]
    omega
  have hState :
      Located
        { heap.setField address .free Bool.true.toNat with
          allocatedBytes :=
            usedBytes (before ++ ⟨size, true⟩ :: after) }
        before ⟨size, true⟩ after address :=
    ⟨hFreed.layout.setAllocated _, hAddress⟩
  change Ensures _ _
    { heap.setField address .free Bool.true.toNat with
      allocatedBytes :=
        wrapSub 64 heap.allocatedBytes size } _
  rw [hBytes]
  apply (ensures_coalesceWithNext hState).mono
  rintro _ middle ⟨⟨hMiddle, hAllocated⟩, hMergeKept⟩
  rcases mergeBlocks_free ⟨size, true⟩ rfl after with
    ⟨first, rest, hMerge, hFree, hMerged, hSum, hRest⟩
  rw [hMerge] at hMiddle hMergeKept
  have hParts := hSound.noAdjacentFree.parts
  have hCount :
      middle.allocatedBytes =
        usedBytes (before ++ first :: rest) := by
    rw [hAllocated, usedBytes_append, usedBytes_append, hSum]
  apply (ensures_tidyLeft ⟨hMiddle, hAddress⟩ hFree
    hParts.1 (hRest hParts.2) hCount).mono
  rintro _ final ⟨blocks', hFinal, hTidyKept, hSame⟩
  refine ⟨blocks', hFinal, ?_, ?_⟩
  · intro x hPayload
    have hRest : UsedByte (before ++ first :: rest) x := by
      rcases hPayload with ⟨a, n, hAt, hInside⟩
      exact ⟨a, n, (hSame a n).mp hAt, hInside⟩
    have hHeaderByte := hRest.outside
    rw [← hAddress] at hHeaderByte
    rw [hTidyKept x hPayload, hMergeKept x hRest]
    apply ((KeptOutside.refl [address] heap).setField
      (List.mem_singleton_self _) .free _) x
    simpa using hHeaderByte
  · intro a n
    rw [hSame, hAddress]
    exact Lost.of_split hMerged a n

end KernelHeap

end Whirliscope

------------------------------------------------------------
-- Resizing
------------------------------------------------------------

namespace Whirliscope

namespace KernelHeap

open ByteMemory FaultProgram Tiling

variable {σ : Type} (source : PageSource σ)

theorem ensures_coalesceNext
    {heap : Heap σ}
    {before tail : List Block}
    {block : Block}
    {address : Nat}
    (hLocated : Located heap before block tail address)
    (hTail : NoAdjacentFree tail.tail) :
    Ensures (fun _ => False)
      (coalesceNext address) heap
      fun _ final =>
        ∃ tail', Reshaped heap (before ++ block :: tail')
            final ∧
          NoAdjacentFree tail' ∧
          usedBytes tail' = usedBytes tail ∧
          ∀ base a n,
            At 32 base tail' a ⟨n, false⟩ ↔
              At 32 base tail a ⟨n, false⟩ := by
  have hHeader := hLocated.header
  have hAccessible := hLocated.accessible
  unfold coalesceNext
  simp only [ensures_bind_iff,
    ensures_loadField_iff hAccessible, hHeader.next]
  cases tail with
  | nil =>
      simp only [entry_nil, ne_eq, not_true_eq_false,
        if_false, ensures_pure_iff]
      exact ⟨[], hLocated.layout.reshaped, hTail, rfl,
        fun _ _ _ => Iff.rfl⟩
  | cons other rest =>
      have hNext := hLocated.next
      simp only [entry_cons, ne_eq, hNext.ne_zero,
        not_false_eq_true, if_true, ensures_bind_iff,
        ensures_loadField_iff hAccessible, hHeader.next,
        ensures_loadFree_iff hNext.accessible,
        hNext.header.free]
      cases hOther : other.free with
      | false =>
          simp only [Bool.toNat_false, not_true_eq_false,
            decide_false, Bool.false_eq_true, if_false,
            ensures_pure_iff]
          exact ⟨other :: rest, hLocated.layout.reshaped,
            NoAdjacentFree.around List.isChain_nil hTail
              hOther,
            rfl, fun _ _ _ => Iff.rfl⟩
      | true =>
          simp only [Bool.toNat_true, one_ne_zero,
            not_false_eq_true, decide_true, if_true,
            ensures_bind_iff,
            ensures_loadField_iff hAccessible, hHeader.next,
            entry_cons]
          apply (ensures_coalesceWithNext hNext).mono
          rintro _ final hFinal
          rcases mergeBlocks_free other hOther rest with
            ⟨first, others, hMerge, -, hUsed, hBytes, hRest⟩
          rw [hMerge, List.append_assoc] at hFinal
          exact ⟨first :: others, hFinal, hRest hTail, hBytes,
            hUsed⟩

/- A used block gets another size. -/
def Resized
    (blocks blocks' : List Block)
    (address size : Nat) : Prop :=
  ∀ a n, Used blocks' a n ↔
    (Used blocks a n ∧ a ≠ address) ∨
      (a = address ∧ n = size)

theorem Resized.of_split
    {before after rest : List Block}
    {old size : Nat}
    (hRest :
      ∀ a n,
        At 32 (stop 32 kheapBase before + (32 + size)) rest a
            ⟨n, false⟩ ↔
          At 32 (stop 32 kheapBase before + (32 + old)) after
            a ⟨n, false⟩) :
    Resized (before ++ ⟨old, false⟩ :: after)
      (before ++ ⟨size, false⟩ :: rest)
      (stop 32 kheapBase before) size := by
  intro a n
  have hFreed :=
    @Lost.of_split before after after ⟨old, true⟩ old
      (fun _ _ _ => Iff.rfl) a n
  rw [← hFreed]
  unfold Used
  simp only [at_append_iff, at_cons_iff, Block.span,
    Block.mk.injEq, Bool.false_eq_true, and_false, false_or,
    and_true, hRest]
  tauto

/- The last steps of shrinking a block. -/
theorem ensures_settle
    {heap : Heap σ}
    {before tail after : List Block}
    {address size kept : Nat}
    (hLocated :
      Located heap before ⟨kept, false⟩ tail address)
    (hKept : kept ≤ size)
    (hBefore : NoAdjacentFree before)
    (hTail : NoAdjacentFree tail.tail)
    (hBytes : usedBytes tail = usedBytes after)
    (hUsed :
      ∀ a n,
        At 32 (address + (32 + kept)) tail a ⟨n, false⟩ ↔
          At 32 (address + (32 + size)) after a ⟨n, false⟩)
    (hAllocated :
      heap.allocatedBytes =
        usedBytes (before ++ ⟨size, false⟩ :: after))
    (hLimit : heap.allocatedBytes < 2 ^ 64) :
    Ensures (fun _ => False)
      (do
        coalesceNext address
        let blockSize ← loadField .size address
        modify fun heap =>
          { heap with
            allocatedBytes :=
              wrapSub 64 heap.allocatedBytes
                (wrapSub 64 size blockSize) })
      heap
      fun _ final =>
        ∃ blocks', Sound final blocks' ∧
          KeepsPayloads blocks' heap final ∧
          (∀ a n, Used blocks' a n →
            Used (before ++ ⟨kept, false⟩ :: tail) a n) ∧
          Resized (before ++ ⟨size, false⟩ :: after) blocks'
            address kept := by
  simp only [ensures_bind_iff, ensures_modify_iff]
  apply (ensures_coalesceNext hLocated hTail).mono
  rintro _ middle
    ⟨tail', ⟨⟨hMiddle, hSame⟩, hPayloads⟩, hTail', hBytes',
      hUsed'⟩
  have hFinal :
      Located middle before ⟨kept, false⟩ tail' address :=
    ⟨hMiddle, hLocated.address_eq⟩
  rw [ensures_loadField_iff hFinal.accessible,
    hFinal.header.size]
  have hSize : size ≤ heap.allocatedBytes := by
    rw [hAllocated]
    simp
    omega
  have hCount :
      wrapSub 64 middle.allocatedBytes
          (wrapSub 64 size kept) =
        usedBytes (before ++ ⟨kept, false⟩ :: tail') := by
    rw [hSame, wrapSub_of_le (by omega) hKept,
      wrapSub_of_le hLimit (by omega), hAllocated]
    simp
    omega
  rw [hCount]
  refine ⟨_, ⟨hMiddle.setAllocated _,
    hBefore.around hTail' rfl, rfl⟩, hPayloads, ?_, ?_⟩
  · intro a n hAt
    unfold Used at *
    simpa [hUsed'] using hAt
  rw [hLocated.address_eq] at hUsed ⊢
  apply Resized.of_split
  intro a n
  rw [hUsed', hUsed]

theorem ensures_shrinkBlock
    {heap : Heap σ}
    {blocks : List Block}
    (hSound : Sound heap blocks)
    {address size aligned : Nat}
    (hUsed : Used blocks address size)
    (hAligned : 16 ∣ aligned)
    (hSize : aligned ≤ size) :
    Ensures (fun _ => False) (shrinkBlock address aligned)
      heap
      fun _ final =>
        ∃ blocks' kept, Sound final blocks' ∧
          aligned ≤ kept ∧
          KeepsPayloads blocks' heap final ∧
          Resized blocks blocks' address kept := by
  rcases hUsed with ⟨before, after, rfl, hAddress⟩
  have hLocated :
      Located heap before ⟨size, false⟩ after address :=
    ⟨hSound.layout, hAddress⟩
  have hParts := hSound.noAdjacentFree.parts
  have hLimit := hSound.allocated_lt
  unfold shrinkBlock
  rw [ensures_bind_iff,
    ensures_loadField_iff hLocated.accessible,
    hLocated.header.size, ensures_bind_iff]
  apply (ensures_splitBlock hLocated hAligned hSize).mono
  rintro _ middle ⟨⟨hMiddle, hAllocated⟩, hSplitKept⟩
  have hStill : middle.allocatedBytes < 2 ^ 64 := by
    rw [hAllocated]
    exact hLimit
  rw [hSound.allocated] at hAllocated
  by_cases hSmall : size < aligned + 48
  · simp only [splitBlocks, hSmall, if_true]
      at hMiddle hSplitKept
    have hTail : NoAdjacentFree after.tail :=
      hParts.2.tail
    apply (ensures_settle ⟨hMiddle, hAddress⟩ (le_refl size)
      hParts.1 hTail rfl (fun _ _ => Iff.rfl) hAllocated
      hStill).mono
    rintro _ final ⟨blocks', hFinal, hKept, hSub, hResized⟩
    exact ⟨blocks', size, hFinal, hSize,
      (hSplitKept.congr hSub).trans hKept fun _ _ => Iff.rfl,
      hResized⟩
  · simp only [splitBlocks, hSmall, if_false]
      at hMiddle hSplitKept
    apply (ensures_settle ⟨hMiddle, hAddress⟩ hSize hParts.1
      hParts.2 (by simp) ?_ hAllocated hStill).mono
    · rintro _ final
        ⟨blocks', hFinal, hKept, hSub, hResized⟩
      exact ⟨blocks', aligned, hFinal, le_refl _,
        (hSplitKept.congr hSub).trans hKept
          fun _ _ => Iff.rfl,
        hResized⟩
    · intro a n
      have hEnd :
          address + (32 + aligned) +
              (32 + (size - aligned - 32)) =
            address + (32 + size) := by
        omega
      simp [Block.span, hEnd]

/- The outcome of resizing the block at an address. -/
def Reallocated
    (blocks : List Block)
    (address size ptr : Nat)
    (final : Heap σ) : Prop :=
  (ptr = 0 ∧ ∃ blocks', Sound final blocks' ∧
      ∀ a n, Used blocks' a n ↔ Used blocks a n) ∨
    ∃ blocks' address' taken,
      Sound final blocks' ∧
        ptr = address' + 32 ∧
        size ≤ taken ∧
        (address' = address ∨
          ∀ n, ¬ Used blocks address' n) ∧
        ∀ a n, Used blocks' a n ↔
          (Used blocks a n ∧ a ≠ address) ∨
            (a = address' ∧ n = taken)

/- The last steps of `krealloc`: the payload is moved. -/
theorem ensures_move
    {heap : Heap σ}
    {blocks : List Block}
    (hSound : Sound heap blocks)
    {old new oldSize newSize : Nat}
    (hOld : Used blocks old oldSize)
    (hNew : Used blocks new newSize)
    (hApart : new ≠ old)
    (hSize : oldSize ≤ newSize) :
    Ensures (fun _ => False)
      (do
        copyRange (new + 32) (old + 32)
          (← loadField .size old)
        kfree (old + 32)
        return new + 32)
      heap
      fun ptr final =>
        ptr = new + 32 ∧
          (∀ i, i < oldSize →
            final.memory (new + 32 + i) =
              heap.memory (old + 32 + i)) ∧
          (∀ a n, Used blocks a n → a ≠ old → a ≠ new →
            ∀ i, i < n →
              final.memory (a + 32 + i) =
                heap.memory (a + 32 + i)) ∧
          ∃ blocks', Sound final blocks' ∧
            Lost blocks blocks' old := by
  have hLocated := hOld
  rcases hLocated with ⟨before, after, hSplit, hAddress⟩
  have hLocated :
      Located heap before ⟨oldSize, false⟩ after old :=
    ⟨hSplit ▸ hSound.layout, hAddress⟩
  have hSource := hSound.accessible hOld (le_refl oldSize)
  have hTarget := hSound.accessible hNew hSize
  have hCopied :=
    hSound.writePayload hNew (le_refl _)
      (by omega : new + 32 + oldSize ≤ new + 32 + newSize)
      (slice heap.memory (old + 32))
  simp only [ensures_bind_iff,
    ensures_loadField_iff hLocated.accessible,
    hLocated.header.size, copyRange, ensures_get_iff, hSource,
    hTarget, and_self, if_true, ensures_set_iff,
    ensures_pure_iff]
  apply (ensures_kfree hCopied hOld).mono
  rintro _ final ⟨blocks', hFinal, hKept, hLost⟩
  refine ⟨trivial, ?_, ?_, blocks', hFinal, hLost⟩
  · intro i hi
    have hStill : Used blocks' new newSize :=
      (hLost new newSize).mpr ⟨hNew, hApart⟩
    rw [hKept _ (hStill.usedByte (by omega))]
    change write _ _ _ _ _ = _
    rw [write_of_mem (by omega) (by omega), slice_apply]
    congr 1
    omega
  · intro a n hUsed hNotOld hNotNew i hi
    have hStill : Used blocks' a n :=
      (hLost a n).mpr ⟨hUsed, hNotOld⟩
    have hOutside :=
      @Used.payload_apart blocks new newSize a n (a + 32 + i)
        hNew hUsed hNotNew (by omega)
    rw [hKept _ (hStill.usedByte hi)]
    change write _ _ _ _ _ = _
    rw [write_of_not_mem (by omega)]

theorem ensures_krealloc
    {heap : Heap σ}
    {blocks : List Block}
    (hSound : Sound heap blocks)
    {address old size : Nat}
    (hUsed : Used blocks address old)
    (hPos : 0 < size)
    (hSize : size ≤ kheapMaxSize) :
    Ensures (fun _ => False)
      (krealloc source (address + 32) size) heap
      fun ptr final =>
        Reallocated blocks address size ptr final ∧
          (ptr = 0 → SameBelow heap final) ∧
          (∀ a n, Used blocks a n → a ≠ address →
            ∀ i, i < n →
              final.memory (a + 32 + i) =
                heap.memory (a + 32 + i)) ∧
          (ptr ≠ 0 →
            ∀ i, i < old → i < size →
              final.memory (ptr + i) =
                heap.memory (address + 32 + i)) := by
  have hSplit := hUsed
  rcases hSplit with ⟨before, after, hSplit, hAddress⟩
  have hLocated :
      Located heap before ⟨old, false⟩ after address :=
    ⟨hSplit ▸ hSound.layout, hAddress⟩
  have hAccessible := hLocated.accessible
  have hHeader := hLocated.header
  have hBounds := hLocated.bounds
  simp only at hBounds
  unfold kheapBase kheapMaxSize at hBounds
  have hBlock :
      payloadBlock (address + 32) = address :=
    payloadBlock_add (by omega)
  have hRequest := alignUpSize_request hPos hSize
  have hPointer : address + 32 ≠ 0 := by omega
  have hNonzero : size ≠ 0 := by omega
  unfold krealloc
  simp only [hPointer, hNonzero, if_false, hBlock,
    ensures_bind_iff, ensures_loadField_iff hAccessible,
    hHeader.magic, beq_self_eq_true, assert, if_true,
    ensures_pure_iff, hHeader.size]
  by_cases hFits : old ≥ alignUpSize size heapAlign
  · simp only [hFits, if_true, ensures_bind_iff,
      ensures_pure_iff]
    apply (ensures_shrinkBlock hSound hUsed hRequest.2.2.1
      hFits).mono
    rintro _ final
      ⟨blocks', kept, hFinal, hKept, hPayloads, hResized⟩
    refine ⟨.inr ⟨blocks', address, kept, hFinal, rfl,
      le_trans hRequest.1 hKept, .inl rfl, hResized⟩,
      fun hNull => absurd hNull hPointer, ?_, ?_⟩
    · intro a n hOther hNe i hi
      have hStill : Used blocks' a n :=
        (hResized a n).mpr (.inl ⟨hOther, hNe⟩)
      exact hPayloads _ (hStill.usedByte hi)
    · intro _ i _ hi
      have hStill : Used blocks' address kept :=
        (hResized address kept).mpr (.inr ⟨rfl, rfl⟩)
      exact hPayloads _ (hStill.usedByte (by omega))
  · simp only [hFits, if_false]
    rw [ensures_bind_iff]
    apply (ensures_kmalloc source hSound hSize).mono
    rintro ptr middle ⟨hAllocated, hKept, hBelow⟩
    rcases hAllocated with
      ⟨rfl, blocks', hMiddle, hSame⟩ |
        ⟨blocks', new, taken, hMiddle, rfl, hTaken, hFresh,
          hGained⟩
    · simp only [if_true, ensures_pure_iff]
      exact ⟨.inl ⟨rfl, blocks', hMiddle, hSame⟩,
        fun _ => hBelow rfl,
        fun a n hOther _ i hi => hKept _ (hOther.usedByte hi),
        fun hFalse => absurd rfl hFalse⟩
    · have hNew : new + 32 ≠ 0 := by omega
      rw [if_neg hNew]
      have hOldUsed : Used blocks' address old :=
        (hGained address old).mpr (.inl hUsed)
      have hNewUsed : Used blocks' new taken :=
        (hGained new taken).mpr (.inr ⟨rfl, rfl⟩)
      have hRoom : old ≤ taken := by
        omega
      have hApart : new ≠ address := by
        rintro rfl
        exact hFresh old hUsed
      apply (ensures_move hMiddle hOldUsed hNewUsed hApart
        hRoom).mono
      rintro ptr final
        ⟨rfl, hMoved, hOthers, blocks'', hFinal, hLost⟩
      refine ⟨.inr ⟨blocks'', new, taken, hFinal, rfl, hTaken,
        .inr hFresh, ?_⟩, fun hNull => absurd hNull hNew, ?_,
        ?_⟩
      · intro a n
        rw [hLost, hGained]
        constructor
        · rintro ⟨hOld | hAdded, hNe⟩
          · exact .inl ⟨hOld, hNe⟩
          · exact .inr hAdded
        · rintro (⟨hOld, hNe⟩ | ⟨rfl, rfl⟩)
          · exact ⟨.inl hOld, hNe⟩
          · exact ⟨.inr ⟨rfl, rfl⟩, hApart⟩
      · intro a n hOther hNe i hi
        have hNotNew : a ≠ new := by
          rintro rfl
          exact hFresh n hOther
        rw [hOthers a n ((hGained a n).mpr (.inl hOther)) hNe
            hNotNew i hi,
          hKept _ (hOther.usedByte hi)]
      · intro _ i hOldByte _
        rw [hMoved i hOldByte, hKept _ (hUsed.usedByte hOldByte)]

end KernelHeap

end Whirliscope
