import Whirliscope.Memory.HeapSafety

/-
  What the heap does to the bytes of live payloads.

  Key definitions include:
    * `payloadSize`, `Op.target`
    * `Frames`

  Main theorem:
    * `reachable_frames`
-/

------------------------------------------------------------
-- Payloads
------------------------------------------------------------

namespace Whirliscope

namespace KernelHeap

open ByteMemory FaultProgram Tiling

variable {σ : Type} (source : PageSource σ)

/- `block->size` of the block behind a pointer. -/
def payloadSize
    (heap : Heap σ)
    (ptr : Nat) : Nat :=
  getField heap.memory (payloadBlock ptr) .size

/- The pointer that a call is passed. -/
def Op.target : Op → Nat
| .malloc _ => 0
| .calloc _ _ => 0
| .realloc ptr _ => ptr
| .free ptr => ptr
| .store ptr _ _ => ptr

/-
  What a call does to payloads. Those of the other live
  pointers are kept, resizing keeps the bytes that both sizes
  have, a failed resize keeps everything, and `kcalloc` clears
  what it hands out.
-/
structure Frames
    (live : Live)
    (op : Op)
    (heap : Heap σ)
    (result : Nat)
    (final : Heap σ) : Prop where
  others :
    ∀ ptr, (live ptr).isSome → ptr ≠ op.target →
      ∀ i, i < payloadSize heap ptr →
        final.memory (ptr + i) = heap.memory (ptr + i)
  moved :
    ∀ ptr old size, op = .realloc ptr size → size ≠ 0 →
      live ptr = some old → result ≠ 0 →
        ∀ i, i < min old size →
          final.memory (result + i) = heap.memory (ptr + i)
  failed :
    ∀ ptr size, op = .realloc ptr size → size ≠ 0 →
      (live ptr).isSome → result = 0 →
        op.track live result = live ∧
          ∀ i, i < payloadSize heap ptr →
            final.memory (ptr + i) = heap.memory (ptr + i)
  cleared :
    ∀ count size, op = .calloc count size → result ≠ 0 →
      ∀ i, i < count * size → final.memory (result + i) = 0

theorem payloadSize_of_used
    {heap : Heap σ}
    {blocks : List Block}
    (hSound : Sound heap blocks)
    {address size : Nat}
    (hUsed : Used blocks address size) :
    payloadSize heap (address + 32) = size := by
  rcases hUsed with ⟨before, after, rfl, hAddress⟩
  have hLocated :
      Located heap before ⟨size, false⟩ after address :=
    ⟨hSound.layout, hAddress⟩
  have hBounds := hLocated.bounds
  unfold kheapBase kheapMaxSize at hBounds
  rw [payloadSize, payloadBlock_add (by omega)]
  exact hLocated.header.size

/- The block of a live pointer. -/
theorem Owns.payload
    {heap : Heap σ}
    {blocks : List Block}
    {live : Live}
    (hSound : Sound heap blocks)
    (hOwns : Owns (Used blocks) live)
    {ptr : Nat}
    (hLive : (live ptr).isSome) :
    ∃ address,
      ptr = address + 32 ∧
        Used blocks address (payloadSize heap ptr) := by
  rcases Option.isSome_iff_exists.mp hLive with
    ⟨request, hRequest⟩
  rcases hOwns.block ptr request hRequest with
    ⟨address, size, rfl, hUsed, -⟩
  rw [payloadSize_of_used hSound hUsed]
  exact ⟨address, rfl, hUsed⟩

/- The bytes that were asked for are part of the payload. -/
theorem Owns.request_le
    {heap : Heap σ}
    {blocks : List Block}
    {live : Live}
    (hSound : Sound heap blocks)
    (hOwns : Owns (Used blocks) live)
    {ptr request : Nat}
    (hLive : live ptr = some request) :
    request ≤ payloadSize heap ptr := by
  rcases hOwns.block ptr request hLive with
    ⟨address, size, rfl, hUsed, hRequest⟩
  rw [payloadSize_of_used hSound hUsed]
  exact hRequest

/- A call that keeps the payloads of all used blocks. -/
theorem KeepsPayloads.live
    {heap final : Heap σ}
    {blocks : List Block}
    {live : Live}
    (hKeeps : KeepsPayloads blocks heap final)
    (hSound : Sound heap blocks)
    (hOwns : Owns (Used blocks) live)
    {ptr : Nat}
    (hLive : (live ptr).isSome)
    {i : Nat}
    (hi : i < payloadSize heap ptr) :
    final.memory (ptr + i) = heap.memory (ptr + i) := by
  rcases hOwns.payload hSound hLive with
    ⟨address, hPtr, hUsed⟩
  have hByte := hUsed.usedByte hi
  rw [← hPtr] at hByte
  exact hKeeps _ hByte

end KernelHeap

end Whirliscope

------------------------------------------------------------
-- Frame Conditions
------------------------------------------------------------

namespace Whirliscope

namespace KernelHeap

open ByteMemory FaultProgram Tiling

variable {σ : Type} (source : PageSource σ)

section Calls

variable
    {heap : Heap σ}
    {blocks : List Block}
    {live : Live}
    (hSound : Sound heap blocks)
    (hOwns : Owns (Used blocks) live)

include hSound hOwns

/- Calls that are passed no pointer. -/
theorem frames_kmalloc
    {size : Nat}
    (hSize : size ≤ kheapMaxSize) :
    Ensures (fun _ => False) (kmalloc source size) heap
      (Frames live (.malloc size) heap) := by
  apply (ensures_kmalloc source hSound hSize).mono
  rintro ptr final ⟨-, hKeeps, -⟩
  constructor
  case others =>
    intro other hLive _ i hi
    exact hKeeps.live hSound hOwns hLive hi
  case moved => rintro _ _ _ ⟨⟩
  case failed => rintro _ _ ⟨⟩
  case cleared => rintro _ _ ⟨⟩

theorem frames_kcalloc
    {count size : Nat}
    (hSize : count * size ≤ kheapMaxSize) :
    Ensures (fun _ => False) (kcalloc source count size) heap
      (Frames live (.calloc count size) heap) := by
  apply (ensures_kcalloc source hSound hSize).mono
  rintro ptr final ⟨-, hKeeps, -, hCleared⟩
  constructor
  case others =>
    intro other hLive _ i hi
    exact hKeeps.live hSound hOwns hLive hi
  case moved => rintro _ _ _ ⟨⟩
  case failed => rintro _ _ ⟨⟩
  case cleared =>
    rintro _ _ ⟨⟩ hNonzero
    exact hCleared hNonzero

theorem frames_kfree
    {ptr : Nat}
    (hPtr : ptr = 0 ∨ (live ptr).isSome) :
    Ensures (fun _ => False) (kfree ptr) heap
      fun _ final =>
        ∀ other, (live other).isSome → other ≠ ptr →
          ∀ i, i < payloadSize heap other →
            final.memory (other + i) =
              heap.memory (other + i) := by
  by_cases hNull : ptr = 0
  · simp only [kfree, hNull, if_true, ensures_pure_iff]
    exact fun _ _ _ _ _ => trivial
  rcases hOwns.payload hSound (hPtr.resolve_left hNull) with
    ⟨address, rfl, hUsed⟩
  apply (ensures_kfree hSound hUsed).mono
  rintro _ final ⟨blocks', -, hKeeps, hLost⟩ other hLive hNe i
    hi
  rcases hOwns.payload hSound hLive with
    ⟨address', hOther, hOtherUsed⟩
  have hStill :
      Used blocks' address' (payloadSize heap other) := by
    refine (hLost _ _).mpr ⟨hOtherUsed, ?_⟩
    rintro rfl
    exact hNe hOther
  have hByte := hStill.usedByte hi
  rw [← hOther] at hByte
  exact hKeeps _ hByte

theorem frames_krealloc
    {ptr size : Nat}
    (hSize : size ≤ kheapMaxSize)
    (hPtr : ptr = 0 ∨ (live ptr).isSome) :
    Ensures (fun _ => False) (krealloc source ptr size) heap
      (Frames live (.realloc ptr size) heap) := by
  by_cases hNull : ptr = 0
  · subst hNull
    have hDead : ¬ (live 0).isSome := by
      intro hLive
      rcases hOwns.payload hSound hLive with ⟨_, hZero, -⟩
      omega
    simp only [krealloc, if_true]
    apply (frames_kmalloc source hSound hOwns hSize).mono
    intro result final hFrames
    constructor
    case others => exact hFrames.others
    case moved =>
      rintro _ old _ ⟨⟩ _ hOld
      exact absurd (by rw [hOld]; rfl) hDead
    case failed =>
      rintro _ _ ⟨⟩ _ hLive
      exact absurd hLive hDead
    case cleared => rintro _ _ ⟨⟩
  have hLive := hPtr.resolve_left hNull
  by_cases hZero : size = 0
  · simp only [krealloc, hNull, hZero, if_false, if_true,
      ensures_bind_iff, ensures_pure_iff]
    apply (frames_kfree hSound hOwns hPtr).mono
    intro _ final hOthers
    constructor
    case others => exact hOthers
    case moved =>
      rintro _ _ _ ⟨⟩ hNonzero
      exact absurd rfl hNonzero
    case failed =>
      rintro _ _ ⟨⟩ hNonzero
      exact absurd rfl hNonzero
    case cleared => rintro _ _ ⟨⟩
  rcases hOwns.payload hSound hLive with
    ⟨address, hAddress, hUsed⟩
  have hRequest :
      ∀ old, live ptr = some old →
        old ≤ payloadSize heap ptr :=
    fun old hOld => hOwns.request_le hSound hOld
  subst hAddress
  apply (ensures_krealloc source hSound hUsed
    (Nat.pos_of_ne_zero hZero) hSize).mono
  rintro result final ⟨-, hBelow, hOthers, hMoved⟩
  constructor
  case others =>
    intro other hOtherLive hNe i hi
    rcases hOwns.payload hSound hOtherLive with
      ⟨address', hOther, hOtherUsed⟩
    subst hOther
    apply hOthers address' _ hOtherUsed _ i hi
    rintro rfl
    exact hNe rfl
  case moved =>
    rintro _ old _ ⟨⟩ _ hOld hNonzero i hi
    have hLarge := hRequest old hOld
    exact hMoved hNonzero i (by omega) (by omega)
  case failed =>
    rintro _ _ ⟨⟩ hNonzero _ hFailed
    constructor
    · rw [Op.track, if_neg (by omega)]
    · intro i hi
      exact ((hBelow hFailed).keepsPayloads hSound.layout).live
        hSound hOwns hLive hi
  case cleared => rintro _ _ ⟨⟩

end Calls

/- One step, also when a client writes to its payload. -/
theorem frames_op
    {heap : Heap σ}
    {live : Live}
    (hValid : Valid heap live)
    {op : Op}
    (hAllowed : op.Allowed live) :
    Ensures (fun _ => False) (op.run source) heap
      (Frames live op heap) := by
  rcases hValid with ⟨blocks, hSound, hOwns⟩
  cases op with
  | malloc size =>
      exact frames_kmalloc source hSound hOwns hAllowed
  | calloc count size =>
      exact frames_kcalloc source hSound hOwns hAllowed
  | realloc ptr size =>
      exact frames_krealloc source hSound hOwns hAllowed.1
        hAllowed.2
  | free ptr =>
      simp only [Op.run, ensures_bind_iff, ensures_pure_iff]
      apply (frames_kfree hSound hOwns hAllowed).mono
      intro _ final hOthers
      constructor
      case others => exact hOthers
      case moved => rintro _ _ _ ⟨⟩
      case failed => rintro _ _ ⟨⟩
      case cleared => rintro _ _ ⟨⟩
  | store ptr offset byte =>
      rcases hAllowed with ⟨request, hLive, hOffset⟩
      rcases hOwns.block ptr request hLive with
        ⟨address, size, rfl, hUsed, hRequest⟩
      have hInside := hSound.accessible hUsed (le_refl size)
      have hAccessible :
          heap.Accessible (address + 32 + offset) 1 := by
        unfold Heap.Accessible at *
        omega
      simp only [Op.run, storeByte, ensures_bind_iff,
        ensures_get_iff, hAccessible, if_true,
        ensures_set_iff, ensures_pure_iff]
      constructor
      case others =>
        intro other hOtherLive hNe i hi
        rcases hOwns.payload hSound hOtherLive with
          ⟨address', rfl, hOtherUsed⟩
        have hApart : address' ≠ address := by
          rintro rfl
          exact hNe rfl
        have hOutside :=
          @Used.payload_apart blocks address size address' _
            (address' + 32 + i) hUsed hOtherUsed hApart
            (by omega)
        change write heap.memory (address + 32 + offset) 1
          (fun _ => byte) (address' + 32 + i) = _
        rw [write_of_not_mem (by omega)]
      case moved => rintro _ _ _ ⟨⟩
      case failed => rintro _ _ ⟨⟩
      case cleared => rintro _ _ ⟨⟩

/-
  In every reachable state, every allowed call returns and
  keeps to its own payload.
-/
theorem reachable_frames
    {heap : Heap σ}
    {live : Live}
    (hReachable : Reachable source heap live) :
    (∀ ptr request, live ptr = some request →
      request ≤ payloadSize heap ptr) ∧
      ∀ op : Op, op.Allowed live →
        ∃ result final,
          Returns (op.run source) heap result final ∧
            Frames live op heap result final := by
  have hValid := hReachable.valid
  constructor
  · intro ptr request hLive
    rcases hValid with ⟨blocks, hSound, hOwns⟩
    exact hOwns.request_le hSound hLive
  · intro op hAllowed
    exact (frames_op source hValid hAllowed).exists_returns

/- Resizing the first allocation of a heap. -/
theorem counterSource_frames :
    ∃ heap live ptr result final,
      live ptr = some 24 ∧
        Returns ((Op.realloc ptr 4000).run counterSource) heap
          result final ∧
        Frames live (.realloc ptr 4000) heap result final := by
  have hStart :
      Reachable counterSource
        (kheapInit zeros vmmPageSize) fun _ => none :=
    .init zeros vmmPageSize
  have hReturns :=
    returns_finalOr (kheapInit zeros vmmPageSize)
      (by decide +kernel :
        (((Op.malloc 24).run counterSource).run
            (kheapInit zeros vmmPageSize)).toOption.map
          Prod.fst = some (kheapBase + 32))
  have hNext :=
    Reachable.step (.malloc 24) hStart
      (by change 24 ≤ kheapMaxSize; decide) hReturns
  have hLive :
      (Op.malloc 24).track (fun _ => none) (kheapBase + 32)
        (kheapBase + 32) = some 24 := by
    decide
  rcases (reachable_frames counterSource hNext).2
      (.realloc (kheapBase + 32) 4000)
      ⟨by decide, .inr (by rw [hLive]; rfl)⟩ with
    ⟨result, final, hRealloc, hFrames⟩
  exact ⟨_, _, _, result, final, hLive, hRealloc, hFrames⟩

end KernelHeap

end Whirliscope
