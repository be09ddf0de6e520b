import Whirliscope.Memory.HeapLayout

/-
  Searching the block list and growing the heap.

  Growing moves free space around and is described by the
  used blocks, which it keeps: `SameUsed`.

  Main declarations:
    * `ensures_findFreeBlock`
    * `SameUsed`
    * `ensures_expandHeap`
-/

------------------------------------------------------------
-- Changes Inside One Block
------------------------------------------------------------

namespace Whirliscope

namespace KernelHeap

open ByteMemory FaultProgram Tiling

variable {σ : Type}

/- Marking a block free or used. -/
theorem Located.setFree
    {heap : Heap σ}
    {before after : List Block}
    {block : Block}
    {address : Nat}
    (hLocated : Located heap before block after address)
    (free : Bool) :
    Located (heap.setField address .free free.toNat) before
      { block with free := free } after address where
  address_eq := hLocated.address_eq
  layout := by
    have hHeader := hLocated.header
    have hLinked := hLocated.layout.linked
    rw [linked_middle_iff, ← hLocated.address_eq] at hLinked
    have hLayout :
        Layout heap (before ++ ([block] ++ after)) :=
      hLocated.layout
    change Layout _
      (before ++ ([{ block with free := free }] ++ after))
    apply hLayout.replace
      ((SameRange.refl heap).setField _ _ _)
      (List.cons_ne_nil _ _) (List.cons_ne_nil _ _)
    · rfl
    · intro piece hPiece
      rw [List.mem_singleton] at hPiece
      subst hPiece
      exact hLayout.sizes block
        (List.mem_append_right _ List.mem_cons_self)
    · intro a other p n hBelow hOther
      rw [← hLocated.address_eq] at hBelow
      apply hOther.setField
      unfold Apart heapBlockSize
      unfold Block.span at hBelow
      omega
    · rw [← hLocated.address_eq]
      refine ⟨?_, ?_⟩
      · have hFree :
            free.toNat < 256 ^ Field.free.width := by
          cases free <;> decide
        simp only [List.nil_append, Block.span,
          ← Nat.add_assoc]
        constructor
        · simp [hHeader.magic]
        · simp [hFree]
        · simp [hHeader.size]
        · simp [hHeader.prev]
        · simp [hHeader.next]
      · apply hLinked.2.2.mono
        intro a other p n hAbove _ hOther
        apply hOther.setField
        unfold Apart heapBlockSize
        unfold Block.span at hAbove
        omega
    · have hLast := hLayout.last
      rw [lastAddress_append] at hLast
      exact hLast

/- The heap with another counter or machine. -/
theorem Layout.congr
    {heap final : Heap σ}
    {blocks : List Block}
    (hLayout : Layout heap blocks)
    (hSame : SameRange heap final)
    (hLast : final.lastBlock = heap.lastBlock)
    (hHeaders :
      ∀ a block p n, At 32 kheapBase blocks a block →
        Header heap.memory a block p n →
          Header final.memory a block p n) :
    Layout final blocks := by
  rcases hSame with
    ⟨hStart, hEnd, hMapped, hInitialized, hFirst⟩
  refine
    { start := hStart.trans hLayout.start
      linked := ?_
      first := hFirst.trans hLayout.first
      last := hLast.trans hLayout.last
      stop := hEnd.trans hLayout.stop
      bound := hEnd ▸ hLayout.bound
      sizes := hLayout.sizes
      mapped := ?_
      initialized := hInitialized.trans hLayout.initialized }
  · exact hLayout.linked.mono_at hHeaders
  · rw [hMapped, hLayout.mapped, hEnd, hStart]

theorem Layout.setAllocated
    {heap : Heap σ}
    {blocks : List Block}
    (hLayout : Layout heap blocks)
    (bytes : Nat) :
    Layout { heap with allocatedBytes := bytes } blocks :=
  hLayout.congr ⟨rfl, rfl, rfl, rfl, rfl⟩ rfl
    fun _ _ _ _ _ hHeader => hHeader

/- The list has far fewer blocks than there are words. -/
theorem Layout.length_lt
    {heap : Heap σ}
    {blocks : List Block}
    (hLayout : Layout heap blocks) :
    blocks.length < 2 ^ 64 := by
  have hLength := @length_le_stop 32 kheapBase blocks
  have hBound := hLayout.bound
  rw [← hLayout.stop] at hLength
  unfold kheapMaxSize at hBound
  omega

end KernelHeap

end Whirliscope

------------------------------------------------------------
-- Finding a Free Block
------------------------------------------------------------

namespace Whirliscope

namespace KernelHeap

open ByteMemory FaultProgram Tiling

variable {σ : Type}

/- A block that can be given away. -/
def Suits
    (size : Nat)
    (block : Block) : Prop :=
  block.free = true ∧ size ≤ block.size

/- The result of the search: the first block that suits. -/
def Found
    (blocks : List Block)
    (size result : Nat) : Prop :=
  (result = 0 ∧ ∀ block ∈ blocks, ¬ Suits size block) ∨
    ∃ before block after,
      blocks = before ++ block :: after ∧
        Suits size block ∧
        result = stop 32 kheapBase before

theorem ensures_findFreeVisit
    {heap : Heap σ}
    {done rest : List Block}
    (hLayout : Layout heap (done ++ rest))
    {size : Nat}
    (hDone : ∀ block ∈ done, ¬ Suits size block)
    {fuel : Nat}
    (hFuel : rest.length < fuel + 1) :
    Ensures (fun _ => False)
      (findFreeVisit size
        (entry 0 (stop 32 kheapBase done) rest))
      heap
      (Continues
        (fun next final =>
          final = heap ∧
            ∃ done' rest',
              done ++ rest = done' ++ rest' ∧
                (∀ block ∈ done', ¬ Suits size block) ∧
                rest'.length < fuel ∧
                next =
                  entry 0 (stop 32 kheapBase done') rest')
        (fun result final =>
          final = heap ∧
            Found (done ++ rest) size result)) := by
  unfold findFreeVisit
  cases rest with
  | nil =>
      simp only [entry_nil, if_true, ensures_pure_iff,
        continues_inr]
      refine ⟨trivial, .inl ⟨rfl, ?_⟩⟩
      rw [List.append_nil]
      exact hDone
  | cons block rest =>
      have hLocated :
          Located heap done block rest
            (stop 32 kheapBase done) :=
        ⟨hLayout, rfl⟩
      have hHeader := hLocated.header
      have hAccessible := hLocated.accessible
      -- The search goes on after a block that does not suit.
      have hGoOn :
          ¬ Suits size block →
            ∃ done' rest',
              done ++ block :: rest = done' ++ rest' ∧
                (∀ block ∈ done', ¬ Suits size block) ∧
                rest'.length < fuel ∧
                entry 0
                    (stop 32 kheapBase done + 32 +
                      block.size) rest =
                  entry 0 (stop 32 kheapBase done') rest' := by
        intro hNot
        refine ⟨done ++ [block], rest, ?_, ?_, ?_, ?_⟩
        · rw [List.append_assoc]
          rfl
        · intro other hOther
          rcases List.mem_append.mp hOther with hOld | hNew
          · exact hDone other hOld
          · rw [List.mem_singleton] at hNew
            exact hNew ▸ hNot
        · rw [List.length_cons] at hFuel
          omega
        · simp [Block.span, Nat.add_assoc]
      simp only [entry_cons, hLocated.ne_zero, if_false,
        ensures_bind_iff, ensures_loadFree_iff hAccessible,
        hHeader.free]
      cases hFree : block.free with
      | false =>
          have hNot : ¬ Suits size block := by
            intro hSuits
            exact Bool.false_ne_true
              (hFree.symm.trans hSuits.1)
          simp only [Bool.toNat_false, ne_eq,
            not_true_eq_false, decide_false,
            Bool.false_eq_true, if_false, ensures_bind_iff,
            ensures_loadField_iff hAccessible, hHeader.next,
            ensures_pure_iff, continues_inl]
          exact ⟨trivial, hGoOn hNot⟩
      | true =>
          simp only [Bool.toNat_true, ne_eq, one_ne_zero,
            not_false_eq_true, decide_true, if_true,
            ensures_bind_iff,
            ensures_loadField_iff hAccessible, hHeader.size]
          by_cases hSize : block.size ≥ size
          · simp only [hSize, if_true, ensures_pure_iff,
              continues_inr]
            exact ⟨trivial, .inr ⟨done, block, rest, rfl,
              ⟨hFree, hSize⟩, rfl⟩⟩
          · have hNot : ¬ Suits size block :=
              fun hSuits => hSize hSuits.2
            simp only [hSize, if_false, ensures_bind_iff,
              ensures_loadField_iff hAccessible,
              hHeader.next, ensures_pure_iff, continues_inl]
            exact ⟨trivial, hGoOn hNot⟩

theorem ensures_findFreeBlock
    {heap : Heap σ}
    {blocks : List Block}
    (hLayout : Layout heap blocks)
    (size : Nat) :
    Ensures (fun _ => False) (findFreeBlock size) heap
      fun result final =>
        final = heap ∧ Found blocks size result := by
  unfold findFreeBlock
  rw [ensures_bind_iff, ensures_get_iff]
  apply ensures_loop
    (fun fuel pointer state =>
      state = heap ∧
        ∃ done rest,
          blocks = done ++ rest ∧
            (∀ block ∈ done, ¬ Suits size block) ∧
            rest.length < fuel ∧
            pointer = entry 0 (stop 32 kheapBase done) rest)
  · rintro pointer state ⟨-, done, rest, -, -, hFuel, -⟩
    omega
  · rintro fuel pointer state
      ⟨rfl, done, rest, rfl, hDone, hFuel, rfl⟩
    exact ensures_findFreeVisit hLayout hDone hFuel
  · refine ⟨rfl, [], blocks, rfl, ?_, hLayout.length_lt, ?_⟩
    · intro block hBlock
      cases hBlock
    · exact hLayout.first

end KernelHeap

end Whirliscope

------------------------------------------------------------
-- Growing the Heap
------------------------------------------------------------

namespace Whirliscope

namespace KernelHeap

open ByteMemory FaultProgram Tiling

variable {σ : Type} (source : PageSource σ)

/- Only pages above the heap and the machine changed. -/
structure SameBelow
    (heap final : Heap σ) : Prop where
  range : SameRange heap final
  lastBlock : final.lastBlock = heap.lastBlock
  allocatedBytes :
    final.allocatedBytes = heap.allocatedBytes
  memory :
    ∀ address, address < heap.heapEnd →
      final.memory address = heap.memory address

theorem SameBelow.refl
    (heap : Heap σ) :
    SameBelow heap heap :=
  ⟨SameRange.refl heap, rfl, rfl, fun _ _ => rfl⟩

theorem SameBelow.trans
    {first second third : Heap σ}
    (hFirst : SameBelow first second)
    (hSecond : SameBelow second third) :
    SameBelow first third where
  range :=
    ⟨hSecond.range.1.trans hFirst.range.1,
      hSecond.range.2.trans hFirst.range.2,
      hSecond.range.3.trans hFirst.range.3,
      hSecond.range.4.trans hFirst.range.4,
      hSecond.range.5.trans hFirst.range.5⟩
  lastBlock := hSecond.lastBlock.trans hFirst.lastBlock
  allocatedBytes :=
    hSecond.allocatedBytes.trans hFirst.allocatedBytes
  memory := by
    intro address hAddress
    have hStill : address < second.heapEnd := by
      rw [hFirst.range.heapEnd]
      exact hAddress
    rw [hSecond.memory address hStill,
      hFirst.memory address hAddress]

theorem sameBelow_machine
    (heap : Heap σ)
    (machine : σ) :
    SameBelow heap { heap with machine := machine } :=
  ⟨⟨rfl, rfl, rfl, rfl, rfl⟩, rfl, rfl, fun _ _ => rfl⟩

theorem Layout.of_sameBelow
    {heap final : Heap σ}
    {blocks : List Block}
    (hLayout : Layout heap blocks)
    (hSame : SameBelow heap final) :
    Layout final blocks := by
  apply hLayout.congr hSame.range hSame.lastBlock
  intro a block p n hAt hHeader
  have hStop := hAt.le.2
  rw [← hLayout.stop] at hStop
  apply hHeader.of_same
  intro field
  apply getLE_congr
  intro i hi
  have hField := field_fits field
  apply hSame.memory
  unfold heapBlockSize at hField
  unfold Block.span at hStop
  omega

theorem SameBelow.keepsPayloads
    {heap final : Heap σ}
    {blocks : List Block}
    (hSame : SameBelow heap final)
    (hLayout : Layout heap blocks) :
    KeepsPayloads blocks heap final := by
  rintro x ⟨address, size, hAt, hLow, hHigh⟩
  apply hSame.memory
  have hStop := hAt.le.2
  rw [← hLayout.stop, Block.span] at hStop
  simp only at hStop
  omega

/- Undoing mappings ends and changes the machine only. -/
theorem ensures_rollbackHeapMapping
    (start : Nat)
    {bytes : Nat}
    (hBytes : bytes ≤ 2 ^ 32)
    (heap : Heap σ) :
    Ensures (fun _ => False)
      (rollbackHeapMapping source start bytes) heap
      fun _ final => SameBelow heap final := by
  unfold rollbackHeapMapping
  apply ensures_loop
    (fun fuel offset state =>
      offset ≤ bytes + vmmPageSize ∧
        bytes + vmmPageSize < offset + fuel ∧
        SameBelow heap state)
  · rintro offset state ⟨hOffset, hFuel, -⟩
    omega
  · rintro fuel offset state ⟨hOffset, hFuel, hSame⟩
    unfold rollbackVisit
    by_cases hInside : offset < bytes
    · have hWrap :
          wrap 64 (offset + vmmPageSize) =
            offset + vmmPageSize := by
        apply wrap_of_lt
        unfold vmmPageSize at *
        omega
      simp only [hInside, if_true, ensures_bind_iff,
        ensures_modify_iff, ensures_pure_iff, hWrap,
        continues_inl]
      refine ⟨by omega, by unfold vmmPageSize at *; omega, ?_⟩
      split
      · exact hSame
      · exact hSame.trans (sameBelow_machine state _)
    · simp only [hInside, if_false, ensures_pure_iff,
        continues_inr]
      exact hSame
  · refine ⟨by omega, ?_, SameBelow.refl heap⟩
    unfold vmmPageSize
    omega

/- One pass of the mapping loop. -/
theorem ensures_mapVisit
    {heap state : Heap σ}
    {bytes offset fuel : Nat}
    (hEnd : heap.heapEnd + bytes < 2 ^ 64)
    (hBytes : bytes ≤ 2 ^ 32)
    (hOffset : offset ≤ bytes + vmmPageSize)
    (hFuel : bytes + vmmPageSize < offset + (fuel + 1))
    (hSame : SameBelow heap state) :
    Ensures (fun _ => False)
      (mapVisit source heap.heapEnd bytes offset) state
      (Continues
        (fun next final =>
          next ≤ bytes + vmmPageSize ∧
            bytes + vmmPageSize < next + fuel ∧
            SameBelow heap final)
        (fun _ final => SameBelow heap final)) := by
  unfold mapVisit
  by_cases hInside : offset < bytes
  · have hRollback :=
      fun middle : Heap σ =>
        ensures_rollbackHeapMapping source heap.heapEnd
          (by omega : offset ≤ 2 ^ 32) middle
    have hWrap :
        wrap 64 (offset + vmmPageSize) =
          offset + vmmPageSize := by
      apply wrap_of_lt
      unfold vmmPageSize at *
      omega
    have hVaddr :
        wrap 64 (state.heapEnd + offset) =
          heap.heapEnd + offset := by
      rw [hSame.range.heapEnd]
      exact wrap_of_lt (by omega)
    have hAllocated :=
      hSame.trans
        (sameBelow_machine state
          (source.pmmAllocPage state.machine).2)
    simp only [hInside, if_true, ensures_bind_iff,
      pmmAllocPage, ensures_get_iff, ensures_set_iff,
      ensures_pure_iff]
    by_cases hNone :
        (source.pmmAllocPage state.machine).1 = 0
    · simp only [hNone, if_true, ensures_bind_iff]
      apply (hRollback _).mono
      intro _ final hFinal
      simp only [ensures_pure_iff, continues_inr]
      exact hAllocated.trans hFinal
    · simp only [hNone, if_false, ensures_bind_iff,
        ensures_get_iff, vmmMapPage, hVaddr]
      cases hMapped :
          (source.vmmMapPage (heap.heapEnd + offset)
            (source.pmmAllocPage state.machine).1 vmmWritable
            (source.pmmAllocPage state.machine).2).1 with
      | false =>
          simp only [Bool.false_eq_true, if_false,
            ensures_set_iff, ensures_pure_iff,
            Bool.not_false, if_true, pmmFreePage,
            ensures_bind_iff, ensures_modify_iff]
          apply (hRollback _).mono
          intro _ final hFinal
          simp only [ensures_pure_iff, continues_inr]
          exact (hSame.trans
            (sameBelow_machine state _)).trans hFinal
      | true =>
          simp only [if_true, ensures_bind_iff,
            ensures_set_iff, ensures_pure_iff,
            Bool.not_true, Bool.false_eq_true, if_false,
            hWrap, continues_inl]
          refine ⟨by omega,
            by unfold vmmPageSize at *; omega, ?_⟩
          apply hAllocated.trans
          refine ⟨⟨rfl, rfl, rfl, rfl, rfl⟩, rfl, rfl, ?_⟩
          intro address hAddress
          apply write_of_not_mem
          have hBelow := hSame.range.heapEnd
          simp only at hAddress
          omega
  · simp only [hInside, if_false, ensures_pure_iff,
      continues_inr]
    exact hSame

/- The mapping loop, whether or not it succeeds. -/
theorem ensures_mapLoop
    {heap : Heap σ}
    {bytes : Nat}
    (hEnd : heap.heapEnd + bytes < 2 ^ 64)
    (hBytes : bytes ≤ 2 ^ 32) :
    Ensures (fun _ => False)
      (loop (throw .noReturn)
        (mapVisit source heap.heapEnd bytes) (2 ^ 64) 0)
      heap
      fun _ final => SameBelow heap final := by
  apply ensures_loop
    (fun fuel offset state =>
      offset ≤ bytes + vmmPageSize ∧
        bytes + vmmPageSize < offset + fuel ∧
        SameBelow heap state)
  · rintro offset state ⟨hOffset, hFuel, -⟩
    omega
  · rintro fuel offset state ⟨hOffset, hFuel, hSame⟩
    exact ensures_mapVisit source hEnd hBytes hOffset hFuel
      hSame
  · refine ⟨by omega, ?_, SameBelow.refl heap⟩
    unfold vmmPageSize
    omega

/- The used blocks are the same, wherever free space went. -/
structure SameUsed
    (blocks blocks' : List Block) : Prop where
  at_iff :
    ∀ address size,
      At 32 kheapBase blocks' address ⟨size, false⟩ ↔
        At 32 kheapBase blocks address ⟨size, false⟩
  bytes : usedBytes blocks' = usedBytes blocks
  noAdjacentFree :
    NoAdjacentFree blocks → NoAdjacentFree blocks'

/- The heap after the end was moved. -/
def Heap.extended
    (heap : Heap σ)
    (bytes : Nat) : Heap σ :=
  { heap with
    heapEnd := heap.heapEnd + bytes
    mappedBytes := heap.mappedBytes + bytes }

/- A free block is appended to the list. -/
theorem ensures_writeChunk
    {heap : Heap σ}
    {blocks : List Block}
    (hLayout : Layout heap blocks)
    {bytes : Nat}
    (hBytes : 48 ≤ bytes)
    (hAligned : 16 ∣ bytes)
    (hBound :
      heap.heapEnd + bytes ≤ kheapBase + kheapMaxSize) :
    Ensures (fun _ => False) (writeChunk heap.heapEnd bytes)
      (heap.extended bytes)
      fun _ final =>
        Layout final
            (blocks ++ [{ size := bytes - 32, free := true }]) ∧
          final.allocatedBytes = heap.allocatedBytes ∧
          KeepsPayloads blocks heap final := by
  have hStop := hLayout.stop
  have hBase := @le_stop 32 kheapBase blocks
  rw [← hStop] at hBase
  have hStart := hLayout.start
  have hMapped := hLayout.mapped
  unfold kheapBase kheapMaxSize at hBound
  have hSize :
      wrapSub 64 bytes 32 = bytes - 32 :=
    wrapSub_of_le (by omega) (by omega)
  have hAccessible :
      (heap.extended bytes).Accessible heap.heapEnd
        heapBlockSize := by
    unfold Heap.Accessible Heap.extended heapBlockSize
    simp only
    omega
  simp only [writeChunk, blockOverhead_eq, hSize,
    appendBlock, ensures_bind_iff, ensures_storeField_iff,
    ensures_storeFree_iff, accessible_setField, hAccessible,
    ensures_get_iff]
  have hEndFits : heap.heapEnd < 2 ^ 64 := by omega
  have hLastFits : heap.lastBlock < 2 ^ 64 := by
    rcases List.eq_nil_or_concat blocks with
      rfl | ⟨front, last, rfl⟩
    · rw [hLayout.last]
      decide
    · rw [List.concat_eq_append] at hLayout
      have hLast : Located heap front last [] _ :=
        ⟨hLayout, rfl⟩
      have hLastBounds := hLast.bounds
      rw [hLayout.last, lastAddress_append]
      simp only [lastAddress_cons, lastAddress_nil]
      omega
  have hNewFits : bytes - 32 < 2 ^ 64 := by omega
  change Ensures _ (if heap.lastBlock ≠ 0 then _ else _)
    ((heap.extended bytes).writeHeader heap.heapEnd
      { size := bytes - 32, free := true } heap.lastBlock 0) _
  have hWritten :=
    @writeHeader_header σ (heap.extended bytes) heap.heapEnd
      { size := bytes - 32, free := true } heap.lastBlock 0
      hNewFits hLastFits (by decide)
  have hKept :
      ∀ a block p n, a + block.span 32 ≤ heap.heapEnd →
        Header heap.memory a block p n →
          Header
            ((heap.extended bytes).writeHeader heap.heapEnd
              { size := bytes - 32, free := true }
              heap.lastBlock 0).memory a block p n := by
    intro a block p n hBelow hOld
    have hExtended :
        Header (heap.extended bytes).memory a block p n :=
      hOld
    apply hExtended.writeHeader
    unfold Apart heapBlockSize
    unfold Block.span at hBelow
    omega
  have hLastWritten :
      ((heap.extended bytes).writeHeader heap.heapEnd
        { size := bytes - 32, free := true }
        heap.lastBlock 0).lastBlock = heap.lastBlock := rfl
  have hFieldsWritten :
      SameRange (heap.extended bytes)
        ((heap.extended bytes).writeHeader heap.heapEnd
          { size := bytes - 32, free := true }
          heap.lastBlock 0) :=
    ⟨rfl, rfl, rfl, rfl, rfl⟩
  have hAllocatedWritten :
      ((heap.extended bytes).writeHeader heap.heapEnd
        { size := bytes - 32, free := true }
        heap.lastBlock 0).allocatedBytes =
          heap.allocatedBytes := rfl
  have hWrittenKept :
      KeptOutside [heap.heapEnd] heap
        ((heap.extended bytes).writeHeader heap.heapEnd
          { size := bytes - 32, free := true }
          heap.lastBlock 0) :=
    keptOutside_writeHeader (heap.extended bytes)
      heap.heapEnd _ _ _
  generalize
    (heap.extended bytes).writeHeader heap.heapEnd
      { size := bytes - 32, free := true } heap.lastBlock 0 =
    written at *
  have hRange :
      written.heapStart = kheapBase ∧
        written.heapEnd = heap.heapEnd + bytes ∧
        written.mappedBytes = heap.mappedBytes + bytes ∧
        written.initialized = true ∧
        written.firstBlock = heap.firstBlock :=
    ⟨hFieldsWritten.1.trans hStart, hFieldsWritten.2,
      hFieldsWritten.3,
      hFieldsWritten.4.trans hLayout.initialized,
      hFieldsWritten.5⟩
  rcases List.eq_nil_or_concat blocks with
    rfl | ⟨front, last, rfl⟩
  · have hNone : heap.lastBlock = 0 := hLayout.last
    rw [hNone] at hWritten
    simp only [hNone, ne_eq, not_true_eq_false, if_false,
      setFirstBlock, setLastBlock, ensures_bind_iff,
      ensures_modify_iff]
    refine ⟨?_, hAllocatedWritten, ?_⟩
    case refine_2 =>
      rintro x ⟨address, size, hAt, -⟩
      exact absurd hAt (at_nil_iff _ _ _)
    rw [stop_nil] at hStop
    rw [hStop] at hWritten
    refine
      { start := hRange.1
        linked := ⟨hWritten, trivial⟩
        first := hStop
        last := hStop
        stop := ?_
        bound := ?_
        sizes := ?_
        mapped := ?_
        initialized := hRange.2.2.2.1 }
    · simp only [List.nil_append, stop_cons, stop_nil,
        Block.span]
      rw [hRange.2.1, hStop]
      omega
    · rw [hRange.2.1]
      exact hBound
    · intro block hBlock
      rw [List.nil_append, List.mem_singleton] at hBlock
      subst hBlock
      simp only
      omega
    · rw [hRange.2.1, hRange.2.2.1, hRange.1, hMapped, hStart]
      omega
  · rw [List.concat_eq_append] at *
    have hLocated :
        Located heap front last []
          (stop 32 kheapBase front) :=
      ⟨hLayout, rfl⟩
    have hBounds := hLocated.bounds
    have hLast :
        heap.lastBlock = stop 32 kheapBase front := by
      rw [hLayout.last, lastAddress_append]
      rfl
    have hLinked := hLayout.linked
    rw [linked_middle_iff] at hLinked
    rw [stop_append] at hStop
    simp only [stop_cons, stop_nil, Block.span] at hStop
    generalize stop 32 kheapBase front = address at *
    have hOldHeader := hKept _ _ _ _
      (by unfold Block.span; omega) hLocated.header
    have hApart : Apart address heap.heapEnd := by
      unfold Apart heapBlockSize
      omega
    have hOldAccessible :
        written.Accessible address heapBlockSize := by
      unfold Heap.Accessible heapBlockSize
      omega
    simp only [hLast, ne_eq, hLocated.ne_zero,
      not_false_eq_true, if_true, ensures_bind_iff,
      ensures_get_iff, hLastWritten, setLastBlock,
      ensures_storeField_iff hOldAccessible,
      ensures_modify_iff]
    have hFront := hLocated.address_eq
    refine ⟨?_, hAllocatedWritten, ?_⟩
    case refine_2 =>
      intro x hUsed
      have hHeader := hUsed.outside
      rw [← List.append_nil (front ++ [last])] at hUsed
      have hEndHeader := hUsed.outside
      simp only [stop_append, stop_cons, stop_nil, Block.span,
        ← hFront, ← hStop] at hHeader hEndHeader
      apply (hWrittenKept.trans
        ((KeptOutside.refl [address] written).setField
          (List.mem_singleton_self _) .next _)) x
      simpa using ⟨hEndHeader, hHeader⟩
    refine
      { start := hRange.1
        linked := ?_
        first := ?_
        last := ?_
        stop := ?_
        bound := ?_
        sizes := ?_
        mapped := ?_
        initialized := hRange.2.2.2.1 }
    · rw [List.append_assoc, List.singleton_append,
        linked_middle_iff, ← hFront]
      refine ⟨?_, ?_, ?_, trivial⟩
      · apply hLinked.1.mono
        intro a block p n _ hBelow hOld
        rw [← hFront] at hBelow
        apply (hKept a block p n _ hOld).setField
        · unfold Apart heapBlockSize
          unfold Block.span at hBelow
          omega
        · omega
      · simp only [entry_cons, Block.span, ← hStop]
        constructor
        · simp [hOldHeader.magic]
        · simp [hOldHeader.free]
        · simp [hOldHeader.size]
        · simp [hOldHeader.prev]
        · simp [word_fits hEndFits]
      · rw [hLast] at hWritten
        simp only [Block.span, ← hStop, entry_nil]
        exact hWritten.setField hApart _ _
    · rw [List.append_assoc, List.singleton_append,
        entry_append_cons]
      change written.firstBlock = kheapBase
      rw [hRange.2.2.2.2, hLayout.first, entry_append_cons]
    · simp only [lastAddress_append, lastAddress_cons,
        lastAddress_nil, stop_append, stop_cons, stop_nil,
        ← hFront, Block.span]
      exact hStop
    · simp only [stop_append, stop_cons, stop_nil, ← hFront,
        Block.span, ← hStop]
      change written.heapEnd = _
      rw [hRange.2.1]
      omega
    · change written.heapEnd ≤ _
      rw [hRange.2.1]
      exact hBound
    · intro block hBlock
      rcases List.mem_append.mp hBlock with hOld | hNew
      · exact hLayout.sizes block hOld
      · rw [List.mem_singleton] at hNew
        subst hNew
        simp only
        omega
    · change written.mappedBytes =
        written.heapEnd - written.heapStart
      rw [hRange.2.1, hRange.2.2.1, hRange.1, hMapped, hStart]
      omega

/- Appending free space keeps the used blocks. -/
theorem sameUsed_append
    {blocks : List Block}
    (hLast :
      ∀ last ∈ blocks.getLast?, last.free = false)
    (size : Nat) :
    SameUsed blocks
      (blocks ++ [{ size := size, free := true }]) where
  at_iff := by simp
  bytes := by simp
  noAdjacentFree := by
    intro hFree
    exact hFree.join (List.isChain_singleton _) hLast

theorem sameUsed_enlarge
    {front : List Block}
    {last : Block}
    (hUsed : last.free = true)
    (size : Nat) :
    SameUsed (front ++ [last])
      (front ++ [{ size := size, free := last.free }]) where
  at_iff := by
    intro address used
    have hNot : ∀ n, (⟨n, false⟩ : Block) ≠ last := by
      rintro n rfl
      exact Bool.false_ne_true hUsed
    simp [hUsed, hNot]
  bytes := by simp [hUsed]
  noAdjacentFree := by
    intro hFree
    unfold NoAdjacentFree at *
    rw [List.isChain_append] at *
    simpa using hFree

/- The heap has grown: there is a free block of the size. -/
theorem ensures_addChunk
    {heap : Heap σ}
    {blocks : List Block}
    (hLayout : Layout heap blocks)
    {bytes : Nat}
    (hBytes : 48 ≤ bytes)
    (hAligned : 16 ∣ bytes)
    (hBound :
      heap.heapEnd + bytes ≤ kheapBase + kheapMaxSize) :
    Ensures (fun _ => False) (addChunk heap.heapEnd bytes) heap
      fun _ final =>
        final.allocatedBytes = heap.allocatedBytes ∧
          KeepsPayloads blocks heap final ∧
          ∃ blocks', Layout final blocks' ∧
            SameUsed blocks blocks' ∧
            ∃ block ∈ blocks', Suits (bytes - 32) block := by
  have hStart := hLayout.start
  have hMapped := hLayout.mapped
  have hEnd :
      wrap 64 (heap.heapEnd + bytes) =
        heap.heapEnd + bytes := by
    apply wrap_of_lt
    unfold kheapBase kheapMaxSize at hBound
    omega
  have hMappedEnd :
      wrap 64 (heap.mappedBytes + bytes) =
        heap.mappedBytes + bytes := by
    apply wrap_of_lt
    unfold kheapBase kheapMaxSize at hBound
    omega
  unfold addChunk
  simp only [ensures_bind_iff, ensures_modify_iff, hEnd,
    hMappedEnd]
  apply (ensures_writeChunk hLayout hBytes hAligned
    hBound).mono
  rintro _ grown ⟨hGrown, hAllocated, hChunkKept⟩
  have hNew :
      Located grown blocks
        { size := bytes - 32, free := true } []
        heap.heapEnd :=
    ⟨hGrown, hLayout.stop⟩
  apply (ensures_coalescePrev hNew).mono
  rintro _ final hFinal
  rcases hFinal with
    ⟨⟨⟨hFinal, hSame⟩, hKept⟩, hLast⟩ |
      ⟨front, last, rfl, hFree, ⟨hFinal, hSame⟩, hKept⟩
  · have hUsed := sameUsed_append hLast (bytes - 32)
    refine ⟨hSame.trans hAllocated,
      hChunkKept.trans hKept hUsed.at_iff, _, hFinal, hUsed,
      _, List.mem_append_right _ List.mem_cons_self, rfl,
      le_refl _⟩
  · simp only [mergeBlocks, if_true] at hFinal hKept
    have hUsed :=
      @sameUsed_enlarge front last hFree
        (last.size + 32 + (bytes - 32))
    refine ⟨hSame.trans hAllocated,
      hChunkKept.trans hKept hUsed.at_iff, _, hFinal, hUsed,
      _, List.mem_append_right _ List.mem_cons_self, hFree,
      ?_⟩
    simp only
    omega

/- Growing fails without a trace, or yields a free block. -/
theorem ensures_expandHeap
    {heap : Heap σ}
    {blocks : List Block}
    (hLayout : Layout heap blocks)
    {size : Nat}
    (hPos : 0 < size)
    (hAligned : 16 ∣ size)
    (hSize : size ≤ kheapMaxSize) :
    Ensures (fun _ => False) (expandHeap source size) heap
      fun grown final =>
        final.allocatedBytes = heap.allocatedBytes ∧
          KeepsPayloads blocks heap final ∧
          ∃ blocks', Layout final blocks' ∧
            SameUsed blocks blocks' ∧
            (grown = true →
              ∃ block ∈ blocks', Suits size block) ∧
            (grown = false → SameBelow heap final) := by
  have hStart := hLayout.start
  have hBound := hLayout.bound
  have hUnchanged : SameUsed blocks blocks :=
    ⟨fun _ _ => Iff.rfl, rfl, fun hFree => hFree⟩
  unfold kheapMaxSize at hSize
  have hTotal : wrap 64 (size + 32) = size + 32 :=
    wrap_of_lt (by omega)
  have hBytes :
      alignUpSize (size + 32) kheapChunkSize =
        size + 32 + 65535 - (size + 32 + 65535) % 65536 := by
    have hSum :
        wrap 64 (size + 32 + kheapChunkSize - 1) =
          size + 32 + 65535 :=
      wrap_of_lt (by unfold kheapChunkSize; omega)
    rw [alignUpSize, alignUp, hSum]
    exact @alignDown_two_pow 64 16 _ (by decide) (by omega)
  unfold expandHeap
  simp only [blockOverhead_eq, hTotal, ensures_bind_iff,
    ensures_get_iff]
  generalize alignUpSize (size + 32) kheapChunkSize = bytes
    at *
  have hEnough :
      size + 32 ≤ bytes ∧ bytes ≤ 2 ^ 27 ∧ 16 ∣ bytes := by
    omega
  unfold kheapBase kheapMaxSize at *
  have hNewEnd :
      wrap 64 (heap.heapEnd + bytes) =
        heap.heapEnd + bytes :=
    wrap_of_lt (by omega)
  have hLimit :
      wrap 64 (heap.heapStart + 64 * 1024 * 1024) =
        heap.heapStart + 64 * 1024 * 1024 :=
    wrap_of_lt (by omega)
  rw [hNewEnd, hLimit]
  by_cases hFull :
      heap.heapEnd + bytes < heap.heapEnd ∨
        heap.heapEnd + bytes >
          heap.heapStart + 64 * 1024 * 1024
  · simp only [hFull, if_true, ensures_pure_iff]
    exact ⟨trivial, fun _ _ => rfl, blocks, hLayout,
      hUnchanged,
      fun hFalse => absurd hFalse Bool.false_ne_true,
      fun _ => SameBelow.refl heap⟩
  · simp only [hFull, if_false, ensures_bind_iff]
    apply (ensures_mapLoop source (by omega) (by omega)).mono
    intro mapped middle hSame
    have hMiddle := hLayout.of_sameBelow hSame
    have hKept := hSame.keepsPayloads hLayout
    cases mapped with
    | false =>
        simp only [Bool.not_false, if_true, ensures_pure_iff]
        exact ⟨hSame.allocatedBytes, hKept, blocks, hMiddle,
          hUnchanged,
          fun hFalse => absurd hFalse Bool.false_ne_true,
          fun _ => hSame⟩
    | true =>
        simp only [Bool.not_true, Bool.false_eq_true,
          if_false, ensures_bind_iff, ensures_pure_iff]
        rw [← hSame.range.heapEnd]
        have hRoom :
            middle.heapEnd + bytes ≤
              kheapBase + kheapMaxSize := by
          unfold kheapBase kheapMaxSize
          rw [hSame.range.heapEnd]
          omega
        apply (ensures_addChunk hMiddle (by omega)
          hEnough.2.2 hRoom).mono
        rintro _ final
          ⟨hAllocated, hChunkKept, blocks', hFinal, hUsed,
            block, hMem, hSuits⟩
        refine ⟨hAllocated.trans hSame.allocatedBytes,
          hKept.trans hChunkKept fun _ _ => Iff.rfl, blocks',
          hFinal, hUsed,
          fun _ => ⟨block, hMem, hSuits.1, ?_⟩,
          fun hFalse => absurd hFalse.symm
            Bool.false_ne_true⟩
        have hLarge := hSuits.2
        omega

end KernelHeap

end Whirliscope
