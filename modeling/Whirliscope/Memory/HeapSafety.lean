import Whirliscope.Memory.HeapAllocation

/-
  Runs of the kernel heap.

  Clients allocate, resize and free, and write into the
  payloads they own. The map from live pointers to the sizes
  that were asked for is kept beside the heap.

  Main declarations:
    * `ensures_kheapValidate`
    * `Op`, `Reachable`
    * `Owns`
    * `reachable_safe`
-/

------------------------------------------------------------
-- Validation
------------------------------------------------------------

namespace Whirliscope

namespace KernelHeap

open ByteMemory FaultProgram Tiling

variable {σ : Type}

/- Aligned sizes have no low bits. -/
theorem and_heapAlign
    {size : Nat}
    (hSize : 16 ∣ size) :
    size &&& (heapAlign - 1) = 0 := by
  have hMask : heapAlign - 1 = 2 ^ 4 - 1 := by decide
  rw [hMask, Nat.and_two_pow_sub_one_eq_mod]
  omega

/- The state of the validation after some blocks. -/
def validated
    (done rest : List Block) : Nat × Nat × Nat :=
  (entry 0 (stop 32 kheapBase done) rest,
    lastAddress 32 0 kheapBase done, usedBytes done)

theorem ensures_validateVisit
    {heap : Heap σ}
    {done rest : List Block}
    (hSound : Sound heap (done ++ rest)) :
    Ensures (fun _ => False)
      (validateVisit (validated done rest)) heap
      (Continues
        (fun next final =>
          final = heap ∧
            ∃ block rest',
              rest = block :: rest' ∧
                next = validated (done ++ [block]) rest')
        (fun result final =>
          final = heap ∧
            result =
              some (heap.lastBlock,
                heap.allocatedBytes))) := by
  unfold validateVisit validated
  cases rest with
  | nil =>
      have hLast := hSound.layout.last
      have hBytes := hSound.allocated
      rw [List.append_nil] at hLast hBytes
      simp [hLast, hBytes]
  | cons block rest =>
      obtain ⟨address, hAddress⟩ :
          ∃ address, address = stop 32 kheapBase done :=
        ⟨_, rfl⟩
      have hLocated :
          Located heap done block rest address :=
        ⟨hSound.layout, hAddress⟩
      have hHeader := hLocated.header
      have hAccessible := hLocated.accessible
      have hBounds := hLocated.bounds
      have hMask := and_heapAlign hBounds.2.2.2.2
      have hSum :
          wrap 64 (address + 32 + block.size) =
            address + 32 + block.size := by
        unfold kheapBase kheapMaxSize at hBounds
        exact wrap_of_lt (by omega)
      have hPasses :
          ¬ (heapMagic ≠ heapMagic ∨
            lastAddress 32 0 kheapBase done ≠
              lastAddress 32 0 kheapBase done ∨
            address < heap.heapStart ∨
            address ≥ heap.heapEnd ∨
            address + 32 < address ∨
            address + 32 + block.size < address + 32 ∨
            address + 32 + block.size > heap.heapEnd ∨
            block.size &&& (heapAlign - 1) ≠ 0) := by
        rw [hMask, hBounds.1]
        omega
      simp only [entry_cons, ← hAddress, hLocated.ne_zero,
        if_false, ensures_bind_iff, ensures_get_iff,
        ensures_loadField_iff hAccessible, hLocated.payload,
        hHeader.size, hHeader.magic, hHeader.prev,
        hHeader.next, hSum, hPasses,
        ensures_loadFree_iff hAccessible, hHeader.free]
      have hFlag :
          decide (block.free.toNat ≠ 0) = block.free := by
        cases block.free <;> rfl
      have hNext :
          (entry 0 (address + 32 + block.size) rest, address,
            if block.free = true then usedBytes done
            else wrap 64 (usedBytes done + block.size)) =
          validated (done ++ [block]) rest := by
        have hTotal := hSound.allocated_lt
        rw [hSound.allocated] at hTotal
        simp only [usedBytes_append, usedBytes_cons] at hTotal
        cases hFree : block.free with
        | true =>
            simp [validated, hFree, ← hAddress, Block.span,
              Nat.add_assoc]
        | false =>
            simp only [hFree, Bool.false_eq_true, if_false]
              at hTotal
            rw [wrap_of_lt (by omega)]
            simp [validated, hFree, ← hAddress, Block.span,
              Nat.add_assoc]
      rw [hFlag, hNext]
      -- A free block is not followed by a free block.
      cases rest with
      | nil =>
          simp [validated]
      | cons other rest =>
          have hOther := hLocated.next
          have hNot :
              block.free = true → other.free = false := by
            intro hFree
            have hChain :=
              (List.isChain_append.mp
                hSound.noAdjacentFree).2.1
            have hPair := (List.isChain_cons_cons.mp hChain).1
            simpa [hFree] using hPair
          cases hFree : block.free with
          | false => simp [validated, hFree]
          | true =>
              simp [validated, hFree, hOther.ne_zero,
                ensures_loadFree_iff hOther.accessible,
                hOther.header.free, hNot hFree]

theorem ensures_kheapValidate
    {heap : Heap σ}
    {blocks : List Block}
    (hSound : Sound heap blocks) :
    Ensures (fun _ => False) kheapValidate heap
      fun result final => final = heap ∧ result = true := by
  unfold kheapValidate
  simp only [ensures_bind_iff, ensures_get_iff,
    hSound.layout.initialized, Bool.not_true,
    Bool.false_eq_true, if_false]
  have hLoop :
      Ensures (fun _ => False)
        (loop (throw .noReturn) validateVisit (2 ^ 64)
          (heap.firstBlock, 0, 0)) heap
        fun result final =>
          final = heap ∧
            result =
              some (heap.lastBlock, heap.allocatedBytes) := by
    apply ensures_loop
      (fun fuel state current =>
        current = heap ∧
          ∃ done rest,
            blocks = done ++ rest ∧
              rest.length < fuel ∧
              state = validated done rest)
    · rintro state current ⟨-, done, rest, -, hFuel, -⟩
      omega
    · rintro fuel state current
        ⟨rfl, done, rest, rfl, hFuel, rfl⟩
      apply (ensures_validateVisit hSound).mono
      rintro result final hResult
      cases result with
      | inr value => exact hResult
      | inl next =>
          rcases hResult with ⟨hSame, block, rest', rfl, hNext⟩
          refine ⟨hSame, done ++ [block], rest', ?_, ?_,
            hNext⟩
          · rw [List.append_assoc]
            rfl
          · rw [List.length_cons] at hFuel
            omega
    · refine ⟨rfl, [], blocks, rfl, hSound.layout.length_lt,
        ?_⟩
      rw [hSound.layout.first]
      rfl
  apply hLoop.mono
  rintro result final ⟨rfl, rfl⟩
  simp

end KernelHeap

end Whirliscope

------------------------------------------------------------
-- Calls and Live Pointers
------------------------------------------------------------

namespace Whirliscope

namespace KernelHeap

open ByteMemory FaultProgram Tiling

variable {σ : Type} (source : PageSource σ)

/- What a client of the heap does. -/
inductive Op where
| malloc (size : Nat)
| calloc (count size : Nat)
| realloc (ptr size : Nat)
| free (ptr : Nat)
| store (ptr offset : Nat) (byte : UInt8)
deriving DecidableEq

/- A client writes a byte of a payload. -/
def storeByte
    (address : Nat)
    (byte : UInt8) : HeapM σ Unit := do
  let heap ← get
  if heap.Accessible address 1 then
    set (heap.withMemory
      (write heap.memory address 1 fun _ => byte))
  else
    throw .pageFault

def Op.run : Op → HeapM σ Nat
| .malloc size => kmalloc source size
| .calloc count size => kcalloc source count size
| .realloc ptr size => krealloc source ptr size
| .free ptr => do
    kfree ptr
    return 0
| .store ptr offset byte => do
    storeByte (ptr + offset) byte
    return 0

/- The live pointers with the sizes asked for. -/
abbrev Live :=
  Nat → Option Nat

def Live.give
    (live : Live)
    (ptr size : Nat) : Live :=
  if ptr = 0 then live
  else Function.update live ptr (some size)

def Live.drop
    (live : Live)
    (ptr : Nat) : Live :=
  Function.update live ptr none

/- The bytes that a call asks for. -/
def Op.request : Op → Nat
| .malloc size => size
| .calloc count size => count * size
| .realloc _ size => size
| .free _ => 0
| .store _ _ _ => 0

/-
  Requests have at most `KHEAP_MAX_SIZE` bytes, only live
  pointers are freed or resized, and clients write only where
  they asked for room.
-/
def Op.Allowed
    (live : Live) : Op → Prop
| .malloc size => size ≤ kheapMaxSize
| .calloc count size => count * size ≤ kheapMaxSize
| .realloc ptr size =>
    size ≤ kheapMaxSize ∧ (ptr = 0 ∨ (live ptr).isSome)
| .free ptr => ptr = 0 ∨ (live ptr).isSome
| .store ptr offset _ =>
    ∃ size, live ptr = some size ∧ offset < size

/-
  The live pointers after a call. A failed `krealloc` keeps
  the old pointer; one to size zero frees it.
-/
def Op.track
    (live : Live)
    (result : Nat) : Op → Live
| .malloc size => live.give result size
| .calloc count size => live.give result (count * size)
| .realloc ptr size =>
    if size = 0 ∨ result ≠ 0 then
      (live.drop ptr).give result size
    else
      live
| .free ptr => live.drop ptr
| .store _ _ _ => live

/- The states of runs from `kheap_init` on. -/
inductive Reachable :
    Heap σ → Live → Prop
| init
    (memory : Bytes)
    (machine : σ) :
    Reachable (kheapInit memory machine) fun _ => none
| step
    {heap final : Heap σ}
    {live : Live}
    {result : Nat}
    (op : Op)
    (hReachable : Reachable heap live)
    (hAllowed : op.Allowed live)
    (hReturns :
      Returns (op.run source) heap result final) :
    Reachable final (op.track live result)

/- Live pointers are the payloads of the used blocks. -/
structure Owns
    (used : Nat → Nat → Prop)
    (live : Live) : Prop where
  block :
    ∀ ptr request, live ptr = some request →
      ∃ address size,
        ptr = address + 32 ∧
          used address size ∧
          request ≤ size
  pointer :
    ∀ address size, used address size →
      (live (address + 32)).isSome

theorem Owns.congr
    {used used' : Nat → Nat → Prop}
    {live : Live}
    (hOwns : Owns used live)
    (hSame : ∀ a n, used' a n ↔ used a n) :
    Owns used' live := by
  have hEq : used' = used := by
    funext a n
    exact propext (hSame a n)
  exact hEq ▸ hOwns

theorem Owns.give
    {used : Nat → Nat → Prop}
    {live : Live}
    (hOwns : Owns used live)
    {address size request : Nat}
    (hFresh : ∀ n, ¬ used address n)
    (hSize : request ≤ size) :
    Owns
      (fun a n => used a n ∨ (a = address ∧ n = size))
      (live.give (address + 32) request) where
  block := by
    intro ptr asked hLive
    rw [Live.give, if_neg (by omega),
      Function.update_apply] at hLive
    split_ifs at hLive with hPtr
    · rw [Option.some.injEq] at hLive
      subst hPtr hLive
      exact ⟨address, size, rfl, .inr ⟨rfl, rfl⟩, hSize⟩
    · rcases hOwns.block ptr asked hLive with
        ⟨a, n, hAddress, hUsed, hAsked⟩
      exact ⟨a, n, hAddress, .inl hUsed, hAsked⟩
  pointer := by
    intro a n hUsed
    rw [Live.give, if_neg (by omega),
      Function.update_apply]
    split_ifs with hPtr
    · rfl
    · rcases hUsed with hUsed | ⟨rfl, -⟩
      · exact hOwns.pointer a n hUsed
      · exact absurd rfl hPtr

theorem Owns.drop
    {used : Nat → Nat → Prop}
    {live : Live}
    (hOwns : Owns used live)
    (address : Nat) :
    Owns (fun a n => used a n ∧ a ≠ address)
      (live.drop (address + 32)) where
  block := by
    intro ptr request hLive
    rw [Live.drop, Function.update_apply] at hLive
    split_ifs at hLive with hPtr
    rcases hOwns.block ptr request hLive with
      ⟨a, n, rfl, hUsed, hRequest⟩
    exact ⟨a, n, rfl, ⟨hUsed, by omega⟩, hRequest⟩
  pointer := by
    rintro a n ⟨hUsed, hNe⟩
    rw [Live.drop, Function.update_of_ne (by omega)]
    exact hOwns.pointer a n hUsed

/- There is no block that ends at the null pointer. -/
theorem Owns.drop_zero
    {used : Nat → Nat → Prop}
    {live : Live}
    (hOwns : Owns used live) :
    live.drop 0 = live := by
  apply Function.update_eq_self_iff.mpr
  cases hLive : live 0 with
  | none => rfl
  | some request =>
      rcases hOwns.block 0 request hLive with
        ⟨address, size, hZero, -⟩
      omega

end KernelHeap

end Whirliscope

------------------------------------------------------------
-- Steps and Runs
------------------------------------------------------------

namespace Whirliscope

namespace KernelHeap

open ByteMemory FaultProgram Tiling

variable {σ : Type} (source : PageSource σ)

/- The invariant of runs. -/
def Valid
    (heap : Heap σ)
    (live : Live) : Prop :=
  ∃ blocks, Sound heap blocks ∧ Owns (Used blocks) live

theorem sound_kheapInit
    (memory : Bytes)
    (machine : σ) :
    Sound (kheapInit memory machine) [] where
  layout :=
    { start := rfl
      linked := trivial
      first := rfl
      last := rfl
      stop := rfl
      bound := by
        change kheapBase ≤ kheapBase + kheapMaxSize
        omega
      sizes := by simp
      mapped := by simp [kheapInit]
      initialized := rfl }
  noAdjacentFree := List.isChain_nil
  allocated := rfl

theorem Owns.of_allocated
    {final : Heap σ}
    {blocks : List Block}
    {live : Live}
    {size ptr : Nat}
    (hOwns : Owns (Used blocks) live)
    (hAllocated : Allocated blocks size ptr final) :
    Valid final (live.give ptr size) := by
  rcases hAllocated with
    ⟨rfl, blocks', hFinal, hSame⟩ |
      ⟨blocks', address, taken, hFinal, rfl, hTaken, hFresh,
        hGained⟩
  · exact ⟨blocks', hFinal, hOwns.congr hSame⟩
  · exact ⟨blocks', hFinal,
      (hOwns.give hFresh hTaken).congr hGained⟩

theorem Owns.of_reallocated
    {final : Heap σ}
    {blocks : List Block}
    {live : Live}
    {address size ptr : Nat}
    (hOwns : Owns (Used blocks) live)
    (hPos : 0 < size)
    (hReallocated :
      Reallocated blocks address size ptr final) :
    Valid final
      ((Op.realloc (address + 32) size).track live ptr) := by
  rcases hReallocated with
    ⟨rfl, blocks', hFinal, hSame⟩ |
      ⟨blocks', address', taken, hFinal, rfl, hTaken, hFresh,
        hUsed⟩
  · rw [Op.track, if_neg (by omega)]
    exact ⟨blocks', hFinal, hOwns.congr hSame⟩
  · rw [Op.track, if_pos (by omega)]
    refine ⟨blocks', hFinal,
      ((hOwns.drop address).give ?_ hTaken).congr hUsed⟩
    rintro n ⟨hOld, hNe⟩
    rcases hFresh with rfl | hFresh
    · exact hNe rfl
    · exact hFresh n hOld

/- Freeing a live pointer. -/
theorem ensures_free
    {heap : Heap σ}
    {live : Live}
    (hValid : Valid heap live)
    {ptr : Nat}
    (hPtr : ptr = 0 ∨ (live ptr).isSome) :
    Ensures (fun _ => False) (kfree ptr) heap
      fun _ final => Valid final (live.drop ptr) := by
  rcases hValid with ⟨blocks, hSound, hOwns⟩
  by_cases hZero : ptr = 0
  · subst hZero
    simp only [kfree, if_true, ensures_pure_iff,
      hOwns.drop_zero]
    exact ⟨blocks, hSound, hOwns⟩
  · rcases Option.isSome_iff_exists.mp
        (hPtr.resolve_left hZero) with ⟨request, hLive⟩
    rcases hOwns.block ptr request hLive with
      ⟨address, size, rfl, hUsed, -⟩
    apply (ensures_kfree hSound hUsed).mono
    rintro _ final ⟨blocks', hFinal, -, hLost⟩
    exact ⟨blocks', hFinal, (hOwns.drop address).congr hLost⟩

/- One step: every allowed call returns. -/
theorem ensures_op
    {heap : Heap σ}
    {live : Live}
    (hValid : Valid heap live)
    {op : Op}
    (hAllowed : op.Allowed live) :
    Ensures (fun _ => False) (op.run source) heap
      fun result final =>
        Valid final (op.track live result) := by
  have hFull := hValid
  rcases hValid with ⟨blocks, hSound, hOwns⟩
  cases op with
  | malloc size =>
      apply (ensures_kmalloc source hSound hAllowed).mono
      rintro ptr final ⟨hAllocated, -⟩
      exact hOwns.of_allocated hAllocated
  | calloc count size =>
      apply (ensures_kcalloc source hSound hAllowed).mono
      rintro ptr final ⟨hAllocated, -⟩
      exact hOwns.of_allocated hAllocated
  | free ptr =>
      simp only [Op.run, ensures_bind_iff, ensures_pure_iff]
      exact ensures_free hFull hAllowed
  | store ptr offset byte =>
      rcases hAllowed with ⟨request, hLive, hOffset⟩
      rcases hOwns.block ptr request hLive with
        ⟨address, size, rfl, hUsed, hRequest⟩
      have hInside := hSound.accessible hUsed (le_refl size)
      have hAccessible :
          heap.Accessible (address + 32 + offset) 1 := by
        unfold Heap.Accessible at *
        omega
      simp only [Op.run, storeByte, ensures_bind_iff,
        ensures_get_iff, hAccessible, if_true,
        ensures_set_iff, ensures_pure_iff]
      exact ⟨blocks,
        hSound.writePayload hUsed (by omega) (by omega) _,
        hOwns⟩
  | realloc ptr size =>
      rcases hAllowed with ⟨hSize, hPtr⟩
      by_cases hNull : ptr = 0
      · subst hNull
        simp only [Op.run, krealloc, if_true]
        apply (ensures_kmalloc source hSound hSize).mono
        rintro ptr final ⟨hAllocated, -⟩
        have hGiven := hOwns.of_allocated hAllocated
        rw [Op.track, hOwns.drop_zero]
        split_ifs with hCase
        · exact hGiven
        · have hFailed : ptr = 0 := by omega
          simpa [Live.give, hFailed] using hGiven
      · by_cases hZero : size = 0
        · subst hZero
          simp only [Op.run, krealloc, hNull, if_false,
            if_true, ensures_bind_iff, ensures_pure_iff]
          apply (ensures_free hFull hPtr).mono
          intro _ final hFinal
          simpa [Op.track, Live.give] using hFinal
        · rcases Option.isSome_iff_exists.mp
              (hPtr.resolve_left hNull) with ⟨old, hLive⟩
          rcases hOwns.block ptr old hLive with
            ⟨address, capacity, rfl, hUsed, -⟩
          have hPos : 0 < size := Nat.pos_of_ne_zero hZero
          apply (ensures_krealloc source hSound hUsed hPos
            hSize).mono
          rintro result final ⟨hResult, -⟩
          exact hOwns.of_reallocated hPos hResult

theorem Reachable.valid
    {heap : Heap σ}
    {live : Live}
    (hReachable : Reachable source heap live) :
    Valid heap live := by
  induction hReachable with
  | init memory machine =>
      refine ⟨[], sound_kheapInit memory machine, ?_, ?_⟩
      · intro ptr request hNone
        cases hNone
      · intro address size hUsed
        exact absurd hUsed (at_nil_iff _ _ _)
  | step op _ hAllowed hReturns ih =>
      exact (ensures_op source ih hAllowed).of_returns
        hReturns

/-
  A live payload is aligned, has the size asked for, and
  overlaps no block header and no other live payload.
-/
structure Placed
    (blocks : List Block)
    (live : Live)
    (ptr request size : Nat) : Prop where
  aligned : 16 ∣ ptr
  used : Used blocks (ptr - 32) size
  large : request ≤ size
  headers :
    ∀ address block, At 32 kheapBase blocks address block →
      address + 32 ≤ ptr ∨ ptr + size ≤ address
  others :
    ∀ other otherSize, (live other).isSome → other ≠ ptr →
      Used blocks (other - 32) otherSize →
        ptr + size ≤ other ∨ other + otherSize ≤ ptr

theorem placed_of_live
    {heap : Heap σ}
    {blocks : List Block}
    {live : Live}
    (hSound : Sound heap blocks)
    (hOwns : Owns (Used blocks) live)
    {ptr request : Nat}
    (hLive : live ptr = some request) :
    ∃ size, Placed blocks live ptr request size := by
  rcases hOwns.block ptr request hLive with
    ⟨address, size, rfl, hUsed, hRequest⟩
  refine ⟨size, ?_, hUsed, hRequest, ?_, ?_⟩
  · rcases hUsed with ⟨before, after, rfl, rfl⟩
    apply Nat.dvd_add _ (by decide)
    apply dvd_stop
    · decide
    · decide
    · intro block hBlock
      exact hSound.layout.sizes block
        (List.mem_append_left _ hBlock)
  · intro a block hAt
    rcases hUsed.disjoint hAt with
      ⟨rfl, -⟩ | hAfter | hBefore
    · exact .inl (le_refl _)
    · unfold Block.span at hAfter
      simp only at hAfter
      omega
    · unfold Block.span at hBefore
      omega
  · intro other otherSize hOther hNe hOtherUsed
    rcases Option.isSome_iff_exists.mp hOther with
      ⟨otherRequest, hOtherLive⟩
    rcases hOwns.block other otherRequest hOtherLive with
      ⟨a, n, rfl, -, -⟩
    rw [Nat.add_sub_cancel] at hOtherUsed
    rcases hUsed.disjoint hOtherUsed with
      ⟨rfl, -⟩ | hAfter | hBefore
    · exact absurd rfl hNe
    · unfold Block.span at hAfter
      simp only at hAfter
      omega
    · unfold Block.span at hBefore
      simp only at hBefore
      omega

/- A pointer that a call returns is live afterwards. -/
theorem track_result
    {heap final : Heap σ}
    {live : Live}
    {op : Op}
    {result : Nat}
    (hReturns : Returns (op.run source) heap result final)
    (hResult : result ≠ 0) :
    op.track live result result = some op.request := by
  cases op with
  | malloc size => simp [Op.track, Op.request, Live.give,
      hResult]
  | calloc count size => simp [Op.track, Op.request,
      Live.give, hResult]
  | realloc ptr size => simp [Op.track, Op.request,
      Live.give, hResult]
  | free ptr =>
      rcases (returns_bind_iff _ _ _ _ _).mp hReturns with
        ⟨_, middle, -, hPure⟩
      cases hPure
      exact absurd rfl hResult
  | store ptr offset byte =>
      rcases (returns_bind_iff _ _ _ _ _).mp hReturns with
        ⟨_, middle, -, hPure⟩
      cases hPure
      exact absurd rfl hResult

/-
  In every reachable state the blocks tile the heap, the
  links and counters agree and `kheap_validate` holds. Every
  allowed call returns, and a pointer it returns is well
  placed among the live ones.
-/
theorem reachable_safe
    {heap : Heap σ}
    {live : Live}
    (hReachable : Reachable source heap live) :
    (∃ blocks,
      Sound heap blocks ∧
        ∀ ptr request, live ptr = some request →
          ∃ size, Placed blocks live ptr request size) ∧
      Returns kheapValidate heap true heap ∧
      ∀ op : Op, op.Allowed live →
        ∃ result final,
          Returns (op.run source) heap result final ∧
            (result ≠ 0 →
              ∃ blocks' size,
                Sound final blocks' ∧
                  Placed blocks' (op.track live result)
                    result op.request size) := by
  have hValid := hReachable.valid
  have hFull := hValid
  rcases hValid with ⟨blocks, hSound, hOwns⟩
  refine ⟨⟨blocks, hSound, fun _ _ hLive =>
    placed_of_live hSound hOwns hLive⟩, ?_, ?_⟩
  · rcases (ensures_kheapValidate hSound).exists_returns with
      ⟨result, final, hReturns, rfl, rfl⟩
    exact hReturns
  · intro op hAllowed
    rcases (ensures_op source hFull hAllowed).exists_returns
      with ⟨result, final, hReturns, blocks', hFinal, hOwns'⟩
    refine ⟨result, final, hReturns, ?_⟩
    intro hResult
    rcases placed_of_live hFinal hOwns'
        (track_result source hReturns hResult) with
      ⟨size, hPlaced⟩
    exact ⟨blocks', size, hFinal, hPlaced⟩

/- A machine that hands out pages one after the other. -/
def counterSource : PageSource Nat where
  pmmAllocPage := fun next => (next, next + vmmPageSize)
  pmmFreePage := fun _ next => next
  vmmMapPage := fun _ _ _ next => (true, next)
  vmmUnmapPage := fun _ next => next
  vmmVirtToPhys := fun _ _ => none
  contents := fun _ _ => zeros

theorem counterSource_safe :
    ∃ result final,
      Returns ((Op.malloc 24).run counterSource)
        (kheapInit zeros vmmPageSize) result final ∧
      Returns kheapValidate final true final := by
  have hStart :
      Reachable counterSource
        (kheapInit zeros vmmPageSize) fun _ => none :=
    .init zeros vmmPageSize
  rcases (reachable_safe counterSource hStart).2.2
      (.malloc 24) (by change 24 ≤ kheapMaxSize; decide) with
    ⟨result, final, hReturns, -⟩
  have hNext :=
    Reachable.step (.malloc 24) hStart
      (by change 24 ≤ kheapMaxSize; decide) hReturns
  exact ⟨result, final, hReturns,
    (reachable_safe counterSource hNext).2.1⟩

end KernelHeap

end Whirliscope
