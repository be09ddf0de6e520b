import Whirliscope.Memory.HeapContents

/-
  Requests above the limit of the heap.

  The size of a request is rounded up, a header is added and
  the sum is rounded up to whole chunks, in words. Up to
  `largestRefused` none of this wraps, and the request is
  refused without a trace.

  Key definitions include:
    * `Request`, `Request.Fits`
    * `Run`, `Refuses`

  Main theorem:
    * `refuses_iff`
-/

------------------------------------------------------------
-- Requests That Are Refused
------------------------------------------------------------

namespace Whirliscope

namespace KernelHeap

open ByteMemory FaultProgram Tiling

variable {σ : Type} (source : PageSource σ)

/- The largest size for which no sum of `kmalloc` wraps. -/
def largestRefused : Nat := 2 ^ 64 - 65568

/- A large size survives the rounding to the alignment. -/
theorem alignUpSize_large
    {size : Nat}
    (hLarge : kheapMaxSize < size)
    (hFits : size ≤ largestRefused) :
    kheapMaxSize < alignUpSize size heapAlign ∧
      alignUpSize size heapAlign ≤ largestRefused := by
  unfold kheapMaxSize largestRefused at *
  have hSum :
      wrap 64 (size + heapAlign - 1) = size + 15 :=
    wrap_of_lt (by unfold heapAlign; omega)
  have hAligned :
      alignUpSize size heapAlign =
        size + 15 - (size + 15) % 16 := by
    rw [alignUpSize, alignUp, hSum]
    exact @alignDown_two_pow 64 4 _ (by decide) (by omega)
  rw [hAligned]
  omega

/- No block is as large as such a request. -/
theorem Layout.size_le
    {heap : Heap σ}
    {blocks : List Block}
    (hLayout : Layout heap blocks)
    {block : Block}
    (hMem : block ∈ blocks) :
    block.size ≤ kheapMaxSize := by
  rcases List.mem_iff_append.mp hMem with
    ⟨before, after, rfl⟩
  have hLocated : Located heap before block after _ :=
    ⟨hLayout, rfl⟩
  have hBounds := hLocated.bounds
  omega

/- Growing by more than the heap may have is refused. -/
theorem ensures_expandHeap_large
    {heap : Heap σ}
    {blocks : List Block}
    (hLayout : Layout heap blocks)
    {size : Nat}
    (hLarge : kheapMaxSize < size)
    (hFits : size ≤ largestRefused) :
    Ensures (fun _ => False) (expandHeap source size) heap
      fun grown final => grown = false ∧ final = heap := by
  have hStart := hLayout.start
  have hBound := hLayout.bound
  have hLow : kheapBase ≤ heap.heapEnd := by
    rw [hLayout.stop]
    exact le_stop _ _
  unfold kheapMaxSize largestRefused at *
  have hTotal : wrap 64 (size + 32) = size + 32 :=
    wrap_of_lt (by omega)
  have hBytes :
      alignUpSize (size + 32) kheapChunkSize =
        size + 32 + 65535 - (size + 32 + 65535) % 65536 := by
    have hSum :
        wrap 64 (size + 32 + kheapChunkSize - 1) =
          size + 32 + 65535 :=
      wrap_of_lt (by unfold kheapChunkSize; omega)
    rw [alignUpSize, alignUp, hSum]
    exact @alignDown_two_pow 64 16 _ (by decide) (by omega)
  -- The new end wraps around or lies above the limit.
  have hRefused :
      wrap 64 (heap.heapEnd +
            alignUpSize (size + 32) kheapChunkSize) <
          heap.heapEnd ∨
        wrap 64 (heap.heapEnd +
            alignUpSize (size + 32) kheapChunkSize) >
          wrap 64 (heap.heapStart + kheapMaxSize) := by
    rw [hBytes, hStart]
    unfold kheapBase at *
    unfold wrap kheapMaxSize
    omega
  unfold expandHeap
  simp only [blockOverhead_eq, hTotal, ensures_bind_iff,
    ensures_get_iff, hRefused, if_true, ensures_pure_iff]
  exact ⟨trivial, trivial⟩

theorem ensures_kmalloc_large
    {heap : Heap σ}
    {blocks : List Block}
    (hLayout : Layout heap blocks)
    {size : Nat}
    (hLarge : kheapMaxSize < size)
    (hFits : size ≤ largestRefused) :
    Ensures (fun _ => False) (kmalloc source size) heap
      fun ptr final => ptr = 0 ∧ final = heap := by
  have hZero : size ≠ 0 := by omega
  rcases alignUpSize_large hLarge hFits with
    ⟨hAlignedLarge, hAlignedFits⟩
  unfold kmalloc
  simp only [ensures_bind_iff, ensures_get_iff,
    hLayout.initialized, Bool.not_true, Bool.false_or,
    beq_iff_eq, hZero, if_false]
  generalize alignUpSize size heapAlign = aligned at *
  apply (ensures_findFreeBlock hLayout aligned).mono
  rintro found _ ⟨rfl, hFound⟩
  rcases hFound with
    ⟨rfl, -⟩ | ⟨before, block, after, rfl, hSuits, -⟩
  · simp only [ne_eq, not_true_eq_false, if_false,
      ensures_bind_iff]
    apply (ensures_expandHeap_large source hLayout
      hAlignedLarge hAlignedFits).mono
    rintro _ _ ⟨rfl, rfl⟩
    simp only [Bool.not_false, if_true, ensures_pure_iff]
    exact ⟨trivial, trivial⟩
  · have hSize :=
      hLayout.size_le
        (List.mem_append_right _ List.mem_cons_self)
    have hTooLarge := hSuits.2
    omega

/- A request of one of the three kinds. -/
inductive Request where
| malloc (size : Nat)
| calloc (count size : Nat)
| realloc (size : Nat)
deriving DecidableEq

/- The call of a request; only resizing has a pointer. -/
def Request.op
    (ptr : Nat) : Request → Op
| .malloc size => .malloc size
| .calloc count size => .calloc count size
| .realloc size => .realloc ptr size

/- The bytes asked for, as a number. -/
def Request.bytes : Request → Nat
| .malloc size => size
| .calloc count size => count * size
| .realloc size => size

/- The arguments are words. -/
def Request.Words : Request → Prop
| .malloc size => size < 2 ^ 64
| .calloc count size => count < 2 ^ 64 ∧ size < 2 ^ 64
| .realloc size => size < 2 ^ 64

/-
  No sum of the request wraps; a product that does not fit a
  word is refused before.
-/
def Request.Fits
    (request : Request) : Prop :=
  request.bytes ≤ largestRefused ∨
    ∃ count size,
      request = .calloc count size ∧ 2 ^ 64 ≤ count * size

theorem ensures_request_large
    {heap : Heap σ}
    {live : Live}
    (hValid : Valid heap live)
    {request : Request}
    (hLarge : kheapMaxSize < request.bytes)
    (hFits : request.Fits)
    {ptr : Nat}
    (hPtr : ptr = 0 ∨ (live ptr).isSome) :
    Ensures (fun _ => False) ((request.op ptr).run source)
      heap fun result final => result = 0 ∧ final = heap := by
  rcases hValid with ⟨blocks, hSound, hOwns⟩
  cases request with
  | malloc size =>
      rcases hFits with hFits | ⟨_, _, ⟨⟩, -⟩
      exact ensures_kmalloc_large source hSound.layout hLarge
        hFits
  | calloc count size =>
      simp only [Request.op, Op.run, kcalloc]
      by_cases hOverflow :
          size ≠ 0 ∧ count > (2 ^ 64 - 1) / size
      · rw [if_pos hOverflow, ensures_pure_iff]
        exact ⟨rfl, rfl⟩
      · have hProduct : count * size < 2 ^ 64 := by
          by_cases hZero : size = 0
          · rw [hZero, Nat.mul_zero]
            decide
          · have hCount : count ≤ (2 ^ 64 - 1) / size := by
              by_contra hMore
              exact hOverflow ⟨hZero, by omega⟩
            have hMul :=
              (Nat.le_div_iff_mul_le
                (Nat.pos_of_ne_zero hZero)).mp hCount
            omega
        have hSmall : count * size ≤ largestRefused := by
          rcases hFits with hFits | ⟨_, _, ⟨rfl, rfl⟩, hOver⟩
          · exact hFits
          · omega
        rw [if_neg hOverflow, wrap_of_lt hProduct,
          ensures_bind_iff]
        apply (ensures_kmalloc_large source hSound.layout
          hLarge hSmall).mono
        rintro _ _ ⟨rfl, rfl⟩
        simp
  | realloc size =>
      have hSize : size ≤ largestRefused := by
        rcases hFits with hFits | ⟨_, _, ⟨⟩, -⟩
        exact hFits
      change kheapMaxSize < size at hLarge
      simp only [Request.op, Op.run, krealloc]
      by_cases hNull : ptr = 0
      · rw [if_pos hNull]
        exact ensures_kmalloc_large source hSound.layout
          hLarge hSize
      rcases hOwns.payload hSound (hPtr.resolve_left hNull)
        with ⟨address, rfl, hUsed⟩
      generalize payloadSize heap (address + 32) = old
        at hUsed
      rcases hUsed with ⟨before, after, rfl, hAddress⟩
      have hLocated :
          Located heap before ⟨old, false⟩ after address :=
        ⟨hSound.layout, hAddress⟩
      have hAccessible := hLocated.accessible
      have hHeader := hLocated.header
      have hBounds := hLocated.bounds
      have hOld := hSound.layout.size_le
        (List.mem_append_right before
          (@List.mem_cons_self Block ⟨old, false⟩ after))
      have hAligned := alignUpSize_large hLarge hSize
      have hGrow : ¬ old ≥ alignUpSize size heapAlign := by
        simp only at hOld
        omega
      have hBlock :
          payloadBlock (address + 32) = address := by
        unfold kheapBase kheapMaxSize at hBounds
        exact payloadBlock_add (by omega)
      have hNonzero : size ≠ 0 := by omega
      simp only [hNull, hNonzero, if_false, hBlock,
        ensures_bind_iff, ensures_loadField_iff hAccessible,
        hHeader.magic, beq_self_eq_true, assert, if_true,
        ensures_pure_iff, hHeader.size, hGrow]
      apply (ensures_kmalloc_large source hSound.layout
        hLarge hSize).mono
      rintro _ _ ⟨rfl, rfl⟩
      simp only [if_true, ensures_pure_iff]
      exact ⟨trivial, trivial⟩

end KernelHeap

end Whirliscope

------------------------------------------------------------
-- Runs With Large Requests
------------------------------------------------------------

namespace Whirliscope

namespace KernelHeap

open ByteMemory FaultProgram Tiling

variable {σ : Type} (source : PageSource σ)

/-
  A client may also ask for more than the limit, as long as
  no sum wraps.
-/
def Op.Served
    (live : Live)
    (op : Op) : Prop :=
  op.Allowed live ∨
    ∃ (request : Request) (ptr : Nat),
      op = request.op ptr ∧
        (ptr = 0 ∨ (live ptr).isSome) ∧
        kheapMaxSize < request.bytes ∧
        request.Fits

/- The states of runs of such clients. -/
inductive Run :
    Heap σ → Live → Prop
| init
    (memory : Bytes)
    (machine : σ) :
    Run (kheapInit memory machine) fun _ => none
| step
    {heap final : Heap σ}
    {live : Live}
    {result : Nat}
    (op : Op)
    (hRun : Run heap live)
    (hServed : op.Served live)
    (hReturns :
      Returns (op.run source) heap result final) :
    Run final (op.track live result)

/- A refused request leaves the live pointers alone. -/
theorem Request.track_refused
    (request : Request)
    (ptr : Nat)
    (live : Live)
    (hLarge : kheapMaxSize < request.bytes) :
    (request.op ptr).track live 0 = live := by
  cases request with
  | malloc size => simp [Request.op, Op.track, Live.give]
  | calloc count size =>
      simp [Request.op, Op.track, Live.give]
  | realloc size =>
      have hNonzero : size ≠ 0 := by
        change kheapMaxSize < size at hLarge
        omega
      simp [Request.op, Op.track, hNonzero]

/- Large requests reach no new states. -/
theorem Run.reachable
    {heap : Heap σ}
    {live : Live}
    (hRun : Run source heap live) :
    Reachable source heap live := by
  induction hRun with
  | init memory machine => exact .init memory machine
  | step op _ hServed hReturns ih =>
      rcases hServed with
        hAllowed | ⟨request, ptr, rfl, hPtr, hLarge, hFits⟩
      · exact .step op ih hAllowed hReturns
      · have hRefused :=
          ensures_request_large source ih.valid hLarge hFits
            hPtr
        rcases hRefused.of_returns hReturns with ⟨rfl, rfl⟩
        rw [request.track_refused ptr _ hLarge]
        exact ih

/-
  The call left no trace: the block list, the counters, the
  memory outside the heap and the live payloads are as before.
-/
structure Refuses
    (live : Live)
    (op : Op)
    (heap final : Heap σ) : Prop where
  blocks : ∀ blocks, Layout heap blocks → Layout final blocks
  heapEnd : final.heapEnd = heap.heapEnd
  mappedBytes : final.mappedBytes = heap.mappedBytes
  allocatedBytes : final.allocatedBytes = heap.allocatedBytes
  outside :
    ∀ x, ¬ heap.Accessible x 1 →
      final.memory x = heap.memory x
  tracked : op.track live 0 = live
  payloads :
    ∀ ptr, (live ptr).isSome →
      ∀ i, i < payloadSize heap ptr →
        final.memory (ptr + i) = heap.memory (ptr + i)

/- What a size that is rounded to a small one does. -/
theorem kmalloc_congr
    {size other : Nat}
    (hSize : size ≠ 0)
    (hOther : other ≠ 0)
    (hSame :
      alignUpSize size heapAlign =
        alignUpSize other heapAlign) :
    kmalloc source size = kmalloc source other := by
  unfold kmalloc
  simp only [beq_iff_eq, hSize, hOther, Bool.or_eq_true,
    or_false, hSame]

/- A block is added at the end of an unchanged heap. -/
theorem ensures_addChunk_fault
    {heap : Heap σ}
    {blocks : List Block}
    (hLayout : Layout heap blocks) :
    Ensures (fun fault => fault = .pageFault)
      (addChunk heap.heapEnd 0) heap fun _ _ => False := by
  have hBound := hLayout.bound
  have hEnd : wrap 64 (heap.heapEnd + 0) = heap.heapEnd := by
    apply wrap_of_lt
    unfold kheapBase kheapMaxSize at hBound
    omega
  have hOutside :
      ∀ final : Heap σ, final.heapEnd = heap.heapEnd →
        ¬ final.Accessible
          (heap.heapEnd + Field.magic.offset)
          Field.magic.width := by
    intro final hSame hInside
    have hHigh := hInside.2
    rw [hSame] at hHigh
    simp only [Field.offset, Field.width] at hHigh
    omega
  simp only [addChunk, writeChunk, storeField,
    ensures_bind_iff, ensures_modify_iff, ensures_get_iff]
  rw [if_neg (hOutside _ hEnd), ensures_throw_iff]

/-
  For sizes just below a multiple of a word, nothing is mapped
  and the header is written above the heap.
-/
theorem ensures_expandHeap_fault
    {heap : Heap σ}
    {blocks : List Block}
    (hLayout : Layout heap blocks)
    {size : Nat}
    (hLow : largestRefused < size)
    (hHigh : size ≤ 2 ^ 64 - 32) :
    Ensures (fun fault => fault = .pageFault)
      (expandHeap source size) heap fun _ _ => False := by
  have hStart := hLayout.start
  have hBound := hLayout.bound
  unfold largestRefused at hLow
  have hBytes :
      alignUpSize (wrap 64 (size + 32)) kheapChunkSize =
        0 := by
    have hSmall :
        wrap 64 (wrap 64 (size + 32) + kheapChunkSize - 1) <
          65536 := by
      unfold wrap kheapChunkSize
      omega
    rw [alignUpSize, alignUp]
    have hDown :=
      @alignDown_two_pow 64 16
        (wrap 64 (wrap 64 (size + 32) + kheapChunkSize - 1))
        (by decide) (wrap_lt 64 _)
    rw [show kheapChunkSize = 2 ^ 16 from rfl] at *
    rw [hDown]
    omega
  have hEnd : wrap 64 (heap.heapEnd + 0) = heap.heapEnd := by
    apply wrap_of_lt
    unfold kheapBase kheapMaxSize at hBound
    omega
  have hLimit :
      wrap 64 (heap.heapStart + kheapMaxSize) =
        heap.heapStart + kheapMaxSize := by
    rw [hStart]
    decide
  have hRoom :
      ¬ (wrap 64 (heap.heapEnd + 0) < heap.heapEnd ∨
        wrap 64 (heap.heapEnd + 0) >
          wrap 64 (heap.heapStart + kheapMaxSize)) := by
    rw [hEnd, hLimit, hStart]
    omega
  unfold expandHeap
  simp only [blockOverhead_eq, hBytes, ensures_bind_iff,
    ensures_get_iff, hRoom, if_false]
  apply ensures_loop
    (fun fuel offset state =>
      0 < fuel ∧ offset = 0 ∧ state = heap)
  · rintro offset state ⟨hFuel, -, -⟩
    exact absurd hFuel (lt_irrefl 0)
  · rintro fuel offset state ⟨-, rfl, rfl⟩
    simp only [mapVisit, lt_self_iff_false, if_false,
      ensures_pure_iff, continues_inr, Bool.not_true,
      Bool.false_eq_true, ensures_bind_iff]
    exact (ensures_addChunk_fault hLayout).mono
      fun _ _ hFalse => hFalse.elim
  · exact ⟨by decide, rfl, rfl⟩

/- How sizes above `largestRefused` are rounded. -/
theorem alignUpSize_huge
    {size : Nat}
    (hLow : largestRefused < size)
    (hWord : size < 2 ^ 64) :
    (largestRefused < alignUpSize size heapAlign ∧
        alignUpSize size heapAlign ≤ 2 ^ 64 - 32) ∨
      alignUpSize size heapAlign =
        alignUpSize (2 ^ 64 - 16) heapAlign ∨
      alignUpSize size heapAlign =
        alignUpSize (2 ^ 64 - 1) heapAlign := by
  unfold largestRefused at *
  have hAligned :
      alignUpSize size heapAlign =
        wrap 64 (size + 15) - wrap 64 (size + 15) % 16 := by
    rw [alignUpSize, alignUp]
    exact @alignDown_two_pow 64 4 _ (by decide)
      (wrap_lt 64 _)
  have hSixteen :
      alignUpSize (2 ^ 64 - 16) heapAlign = 2 ^ 64 - 16 := by
    decide
  have hOne :
      alignUpSize (2 ^ 64 - 1) heapAlign = 0 := by
    decide
  rw [hSixteen, hOne, hAligned]
  unfold wrap
  omega

/- A new heap on a machine that always has pages. -/
def newHeap : Heap Nat :=
  kheapInit zeros vmmPageSize

/- No size above `largestRefused` is refused by a new heap. -/
theorem newHeap_not_refused
    {size : Nat}
    (hLow : largestRefused < size)
    (hWord : size < 2 ^ 64)
    {final : Heap Nat}
    (hReturns :
      Returns (kmalloc counterSource size) newHeap 0 final) :
    final.heapEnd ≠ newHeap.heapEnd := by
  have hNonzero : size ≠ 0 := by
    unfold largestRefused at hLow
    omega
  rcases alignUpSize_huge hLow hWord with
    hFault | hSixteen | hOne
  · -- A page fault: the call does not return.
    have hLayout : Layout newHeap [] :=
      (sound_kheapInit zeros vmmPageSize).layout
    have hStops :
        Ensures (fun fault => fault = .pageFault)
          (kmalloc counterSource size) newHeap
          fun _ _ => False := by
      unfold kmalloc
      simp only [ensures_bind_iff, ensures_get_iff,
        hLayout.initialized, Bool.not_true, Bool.false_or,
        beq_iff_eq, hNonzero, if_false]
      apply ((ensures_findFreeBlock hLayout _).allow
        fun _ hFalse => hFalse.elim).mono
      rintro found _ ⟨rfl, hFound⟩
      rcases hFound with ⟨rfl, -⟩ | ⟨before, _, _, hNil, -⟩
      · simp only [ne_eq, not_true_eq_false, if_false,
          ensures_bind_iff]
        exact (ensures_expandHeap_fault counterSource hLayout
          hFault.1 hFault.2).mono fun _ _ hFalse =>
            hFalse.elim
      · cases before <;> cases hNil
    exact (hStops.of_returns hReturns).elim
  · rw [kmalloc_congr counterSource hNonzero (by decide)
      hSixteen] at hReturns
    have hGrown :
        ((kmalloc counterSource (2 ^ 64 - 16)).run
            newHeap).toOption.map
          (fun result => result.2.heapEnd) =
            some (kheapBase + 65536) := by
      decide +kernel
    rw [show (kmalloc counterSource (2 ^ 64 - 16)).run
        newHeap = .ok (0, final) from hReturns] at hGrown
    intro hSame
    rw [Except.toOption, Option.map_some, hSame] at hGrown
    exact absurd hGrown (by decide)
  · rw [kmalloc_congr counterSource hNonzero (by decide)
      hOne] at hReturns
    have hGiven :
        ((kmalloc counterSource (2 ^ 64 - 1)).run
            newHeap).toOption.map Prod.fst =
          some (kheapBase + 32) := by
      decide +kernel
    rw [show (kmalloc counterSource (2 ^ 64 - 1)).run
        newHeap = .ok (0, final) from hReturns] at hGiven
    have hZero : 0 = kheapBase + 32 := Option.some.inj hGiven
    exact absurd hZero (by decide)

/- `kcalloc` answers `NULL` only when `kmalloc` does. -/
theorem returns_kcalloc_zero
    {source : PageSource σ}
    {heap final : Heap σ}
    {count size : Nat}
    (hWord : count * size < 2 ^ 64)
    (hReturns :
      Returns (kcalloc source count size) heap 0 final) :
    ∃ middle,
      Returns (kmalloc source (count * size)) heap 0 middle ∧
        final.heapEnd = middle.heapEnd := by
  have hProduct :
      ¬ (size ≠ 0 ∧ count > (2 ^ 64 - 1) / size) := by
    rintro ⟨hSize, hCount⟩
    have hMul :=
      (Nat.div_lt_iff_lt_mul
        (Nat.pos_of_ne_zero hSize)).mp hCount
    omega
  unfold kcalloc at hReturns
  rw [if_neg hProduct, wrap_of_lt hWord,
    returns_bind_iff] at hReturns
  rcases hReturns with ⟨ptr, middle, hMiddle, hRest⟩
  have hPtr :
      Ensures (fun _ => True)
        (do
          if ptr ≠ 0 then clearRange ptr (count * size)
          return ptr)
        middle fun result final =>
          result = ptr ∧ final.heapEnd = middle.heapEnd := by
    by_cases hNull : ptr = 0
    · simp [hNull]
    · simp only [ne_eq, hNull, not_false_eq_true, if_true,
        clearRange, ensures_bind_iff, ensures_get_iff]
      split
      · simp only [ensures_set_iff, ensures_pure_iff]
        exact ⟨trivial, rfl⟩
      · simp
  rcases hPtr.of_returns hRest with ⟨rfl, hSame⟩
  exact ⟨middle, hMiddle, hSame⟩

/-
  Large requests are refused without a trace in every state
  of every run exactly when no sum wraps.
-/
theorem refuses_iff
    {request : Request}
    (hLarge : kheapMaxSize < request.bytes)
    (hWords : request.Words) :
    (∀ (σ : Type) (source : PageSource σ) (heap : Heap σ)
        (live : Live) (ptr : Nat),
      Run source heap live →
      (ptr = 0 ∨ (live ptr).isSome) →
        ∃ final,
          Returns ((request.op ptr).run source) heap 0
              final ∧
            Refuses live (request.op ptr) heap final) ↔
      request.Fits := by
  constructor
  · intro hAlways
    have hStart : Run counterSource newHeap fun _ => none :=
      .init zeros vmmPageSize
    rcases hAlways Nat counterSource newHeap (fun _ => none)
        0 hStart (.inl rfl) with
      ⟨final, hReturns, hRefuses⟩
    by_contra hNot
    rw [Request.Fits, not_or, not_le] at hNot
    rcases hNot with ⟨hLow, hProduct⟩
    cases request with
    | malloc size =>
        exact newHeap_not_refused hLow hWords hReturns
          hRefuses.heapEnd
    | realloc size =>
        exact newHeap_not_refused hLow hWords hReturns
          hRefuses.heapEnd
    | calloc count size =>
        have hWord : count * size < 2 ^ 64 := by
          by_contra hOver
          exact hProduct ⟨count, size, rfl, by omega⟩
        rcases returns_kcalloc_zero hWord hReturns with
          ⟨middle, hMiddle, hSame⟩
        exact newHeap_not_refused hLow hWord hMiddle
          (hSame ▸ hRefuses.heapEnd)
  · intro hFits σ source heap live ptr hRun hPtr
    have hValid := (Run.reachable source hRun).valid
    rcases (ensures_request_large source hValid hLarge hFits
        hPtr).exists_returns with
      ⟨_, _, hReturns, rfl, rfl⟩
    exact ⟨_, hReturns, fun _ hLayout => hLayout, rfl, rfl,
      rfl, fun _ _ => rfl,
      request.track_refused ptr live hLarge,
      fun _ _ _ _ => rfl⟩

/- One byte more than the limit is refused. -/
theorem newHeap_refuses :
    ∃ final,
      Returns
          ((Op.malloc (kheapMaxSize + 1)).run counterSource)
          newHeap 0 final ∧
        Refuses (fun _ => none) (.malloc (kheapMaxSize + 1))
          newHeap final :=
  (@refuses_iff (.malloc (kheapMaxSize + 1)) (by decide)
    (by unfold Request.Words; decide)).mpr
    (.inl (by decide)) Nat counterSource newHeap
    (fun _ => none) 0 (.init zeros vmmPageSize) (.inl rfl)

/- The largest size gets an empty block of a new heap. -/
theorem newHeap_not_refuses :
    Reachable counterSource newHeap (fun _ => none) ∧
      Returns ((Op.malloc (2 ^ 64 - 1)).run counterSource)
        newHeap (kheapBase + 32)
        (finalOr newHeap
          ((kmalloc counterSource (2 ^ 64 - 1)).run
            newHeap)) ∧
      ¬ ∃ final,
        Returns ((Op.malloc (2 ^ 64 - 1)).run counterSource)
            newHeap 0 final ∧
          Refuses (fun _ => none) (.malloc (2 ^ 64 - 1))
            newHeap final := by
  refine ⟨.init zeros vmmPageSize,
    returns_finalOr newHeap (by decide +kernel), ?_⟩
  rintro ⟨final, hReturns, hRefuses⟩
  exact newHeap_not_refused (by decide) (by decide) hReturns
    hRefuses.heapEnd

end KernelHeap

end Whirliscope
