import Whirliscope.Library.Tiling
import Whirliscope.Memory.Heap

/-
  The block list of the kernel heap as a tiling.

  `Layout heap blocks` says that the headers in memory are
  those of `blocks`, laid out from the start of the heap to
  its end. Each function of the heap that changes the list is
  described by what it does to `blocks`.

  Main declarations:
    * `Header`, `Layout`
    * `ensures_splitBlock`
    * `ensures_coalesceWithNext`, `ensures_coalescePrev`
-/

------------------------------------------------------------
-- Fields of Headers
------------------------------------------------------------

namespace Whirliscope

namespace KernelHeap

open ByteMemory FaultProgram Tiling

variable {σ : Type}

/- Two headers that do not overlap. -/
def Apart
    (block other : Nat) : Prop :=
  block + heapBlockSize ≤ other ∨
    other + heapBlockSize ≤ block

theorem Apart.symm
    {block other : Nat}
    (hApart : Apart block other) :
    Apart other block :=
  Or.symm hApart

theorem field_fits
    (field : Field) :
    field.offset + field.width ≤ heapBlockSize := by
  cases field <;> decide

/- Different fields of a header do not overlap. -/
theorem field_apart
    {field other : Field}
    (hNe : field ≠ other) :
    field.offset + field.width ≤ other.offset ∨
      other.offset + other.width ≤ field.offset := by
  revert hNe
  cases field <;> cases other <;> decide

@[simp] theorem getField_setField_same
    (heap : Heap σ)
    (block : Nat)
    (field : Field)
    {value : Nat}
    (hValue : value < 256 ^ field.width) :
    getField (heap.setField block field value).memory block
        field =
      value :=
  (getLE_putLE_same heap.memory (block + field.offset)
    field.width value).trans (Nat.mod_eq_of_lt hValue)

@[simp] theorem getField_setField_ne
    (heap : Heap σ)
    (block : Nat)
    {field other : Field}
    (value : Nat)
    (hNe : field ≠ other) :
    getField (heap.setField block field value).memory block
        other =
      getField heap.memory block other := by
  apply getLE_putLE_of_disjoint
  have hApart := field_apart hNe
  omega

@[simp] theorem getField_setField_apart
    (heap : Heap σ)
    {block block' : Nat}
    (field other : Field)
    (value : Nat)
    (hApart : Apart block block') :
    getField (heap.setField block field value).memory block'
        other =
      getField heap.memory block' other := by
  apply getLE_putLE_of_disjoint
  have hField := field_fits field
  have hOther := field_fits other
  unfold Apart at hApart
  omega

@[simp] theorem accessible_setField
    (heap : Heap σ)
    (block : Nat)
    (field : Field)
    (value address count : Nat) :
    (heap.setField block field value).Accessible address
        count ↔
      heap.Accessible address count :=
  Iff.rfl

/- Words fit the fields of eight bytes. -/
theorem word_fits
    {value : Nat}
    (hValue : value < 2 ^ 64) :
    value < 256 ^ Field.size.width ∧
      value < 256 ^ Field.prev.width ∧
      value < 256 ^ Field.next.width := by
  change value < 256 ^ 8 ∧ value < 256 ^ 8 ∧
    value < 256 ^ 8
  omega

/- Reading and writing a header in the mapped range. -/
theorem ensures_loadField_iff
    {stops : HeapFault → Prop}
    {heap : Heap σ}
    {block : Nat}
    (hAccessible : heap.Accessible block heapBlockSize)
    (field : Field)
    (post : Nat → Heap σ → Prop) :
    Ensures stops (loadField field block) heap post ↔
      post (getField heap.memory block field) heap := by
  have hField :
      heap.Accessible (block + field.offset) field.width := by
    have hFits := field_fits field
    unfold Heap.Accessible at *
    omega
  simp [loadField, hField]

theorem ensures_storeField_iff
    {stops : HeapFault → Prop}
    {heap : Heap σ}
    {block : Nat}
    (hAccessible : heap.Accessible block heapBlockSize)
    (field : Field)
    (value : Nat)
    (post : Unit → Heap σ → Prop) :
    Ensures stops (storeField field block value) heap post ↔
      post () (heap.setField block field value) := by
  have hField :
      heap.Accessible (block + field.offset) field.width := by
    have hFits := field_fits field
    unfold Heap.Accessible at *
    omega
  simp [storeField, hField]

theorem ensures_loadFree_iff
    {stops : HeapFault → Prop}
    {heap : Heap σ}
    {block : Nat}
    (hAccessible : heap.Accessible block heapBlockSize)
    (post : Bool → Heap σ → Prop) :
    Ensures stops (loadFree block) heap post ↔
      post (decide (getField heap.memory block .free ≠ 0))
        heap := by
  unfold loadFree
  rw [ensures_bind_iff, ensures_loadField_iff hAccessible,
    ensures_pure_iff]

theorem ensures_storeFree_iff
    {stops : HeapFault → Prop}
    {heap : Heap σ}
    {block : Nat}
    (hAccessible : heap.Accessible block heapBlockSize)
    (value : Bool)
    (post : Unit → Heap σ → Prop) :
    Ensures stops (storeFree block value) heap post ↔
      post () (heap.setField block .free value.toNat) :=
  ensures_storeField_iff hAccessible .free value.toNat post

end KernelHeap

end Whirliscope

------------------------------------------------------------
-- The Block List in Memory
------------------------------------------------------------

namespace Whirliscope

namespace KernelHeap

open ByteMemory FaultProgram Tiling

variable {σ : Type}

/- `block_overhead` is the size of the header. -/
@[simp] theorem blockOverhead_eq :
    blockOverhead = 32 := by
  decide

/- A block header in memory. -/
structure Header
    (memory : Bytes)
    (address : Nat)
    (block : Block)
    (prev next : Nat) : Prop where
  magic : getField memory address .magic = heapMagic
  free : getField memory address .free = block.free.toNat
  size : getField memory address .size = block.size
  prev : getField memory address .prev = prev
  next : getField memory address .next = next

/- Writes elsewhere keep a header. -/
theorem Header.of_same
    {memory memory' : Bytes}
    {address : Nat}
    {block : Block}
    {prev next : Nat}
    (hHeader : Header memory address block prev next)
    (hSame :
      ∀ field,
        getField memory' address field =
          getField memory address field) :
    Header memory' address block prev next where
  magic := (hSame .magic).trans hHeader.magic
  free := (hSame .free).trans hHeader.free
  size := (hSame .size).trans hHeader.size
  prev := (hSame .prev).trans hHeader.prev
  next := (hSame .next).trans hHeader.next

/- The heap holds these blocks. -/
structure Layout
    (heap : Heap σ)
    (blocks : List Block) : Prop where
  start : heap.heapStart = kheapBase
  linked :
    Linked 32 (Header heap.memory) 0 0 kheapBase blocks
  first : heap.firstBlock = entry 0 kheapBase blocks
  last : heap.lastBlock = lastAddress 32 0 kheapBase blocks
  stop : heap.heapEnd = stop 32 kheapBase blocks
  bound : heap.heapEnd ≤ kheapBase + kheapMaxSize
  sizes : ∀ block ∈ blocks, 16 ∣ block.size
  mapped : heap.mappedBytes = heap.heapEnd - heap.heapStart
  initialized : heap.initialized = true

/- Where the block between two parts of the list lies. -/
structure Located
    (heap : Heap σ)
    (before : List Block)
    (block : Block)
    (after : List Block)
    (address : Nat) : Prop where
  layout : Layout heap (before ++ block :: after)
  address_eq : address = Tiling.stop 32 kheapBase before

section Located

variable
    {heap : Heap σ}
    {before : List Block}
    {block : Block}
    {after : List Block}
    {address : Nat}

theorem Located.bounds
    (hLocated : Located heap before block after address) :
    heap.heapStart = kheapBase ∧
      kheapBase ≤ address ∧
      address + 32 + block.size ≤ heap.heapEnd ∧
      heap.heapEnd ≤ kheapBase + kheapMaxSize ∧
      16 ∣ block.size := by
  have hStart := hLocated.layout.start
  have hBound := hLocated.layout.bound
  have hStop := hLocated.layout.stop
  have hBase := @le_stop 32 kheapBase before
  have hAfter :=
    @le_stop 32
      (Tiling.stop 32 kheapBase before + block.span 32) after
  rw [stop_append, stop_cons] at hStop
  rw [← hLocated.address_eq] at hBase hAfter hStop
  unfold Block.span at hAfter hStop
  refine ⟨hStart, hBase, by omega, hBound, ?_⟩
  exact hLocated.layout.sizes block
    (List.mem_append_right _ List.mem_cons_self)

theorem Located.accessible
    (hLocated : Located heap before block after address) :
    heap.Accessible address heapBlockSize := by
  have hBounds := hLocated.bounds
  unfold Heap.Accessible heapBlockSize
  omega

theorem Located.ne_zero
    (hLocated : Located heap before block after address) :
    address ≠ 0 := by
  have hBounds := hLocated.bounds
  unfold kheapBase at hBounds
  omega

theorem Located.payload
    (hLocated : Located heap before block after address) :
    blockPayload address = address + 32 := by
  have hBounds := hLocated.bounds
  unfold kheapBase kheapMaxSize at hBounds
  rw [blockPayload, blockOverhead_eq]
  exact wrap_of_lt (by omega)

theorem Located.header
    (hLocated : Located heap before block after address) :
    Header heap.memory address block
      (lastAddress 32 0 kheapBase before)
      (entry 0 (address + 32 + block.size) after) := by
  have hLinked := hLocated.layout.linked
  rw [linked_middle_iff, ← hLocated.address_eq] at hLinked
  unfold Block.span at hLinked
  rw [Nat.add_assoc]
  exact hLinked.2.1

/- The next block of the list. -/
theorem Located.next
    {other : Block}
    {rest : List Block}
    (hLocated :
      Located heap before block (other :: rest) address) :
    Located heap (before ++ [block]) other rest
      (address + 32 + block.size) where
  layout := by
    rw [List.append_assoc]
    exact hLocated.layout
  address_eq := by
    rw [stop_append, ← hLocated.address_eq]
    simp [Block.span, Nat.add_assoc]

theorem Located.next_accessible
    (hLocated : Located heap before block after address)
    (hNonempty : after ≠ []) :
    heap.Accessible (address + 32 + block.size)
      heapBlockSize := by
  cases after with
  | nil => exact absurd rfl hNonempty
  | cons other rest => exact hLocated.next.accessible

end Located

/- Writes to another header keep a header. -/
theorem Header.setField
    {heap : Heap σ}
    {address : Nat}
    {block : Block}
    {prev next : Nat}
    (hHeader : Header heap.memory address block prev next)
    {other : Nat}
    (hApart : Apart other address)
    (field : Field)
    (value : Nat) :
    Header (heap.setField other field value).memory address
      block prev next :=
  hHeader.of_same fun _ =>
    getField_setField_apart heap field _ value hApart

end KernelHeap

end Whirliscope

------------------------------------------------------------
-- Splitting and Merging
------------------------------------------------------------

namespace Whirliscope

namespace KernelHeap

open ByteMemory FaultProgram Tiling

variable {σ : Type}

/- What `split_block` makes of a block. -/
def splitBlocks
    (block : Block)
    (size : Nat) : List Block :=
  if block.size < size + 48 then
    [block]
  else
    [{ size := size, free := block.free },
      { size := block.size - size - 32, free := true }]

/- Another list of blocks in the same range. -/
structure Rearranged
    (heap : Heap σ)
    (blocks : List Block)
    (final : Heap σ) : Prop where
  layout : Layout final blocks
  allocated : final.allocatedBytes = heap.allocatedBytes

/- The bytes of the payloads of the used blocks. -/
def UsedByte
    (blocks : List Block)
    (x : Nat) : Prop :=
  ∃ address size,
    At 32 kheapBase blocks address ⟨size, false⟩ ∧
      address + 32 ≤ x ∧
      x < address + 32 + size

/- No header begins inside a payload or overlaps one. -/
theorem UsedByte.outside
    {front back : List Block}
    {x : Nat}
    (hUsed : UsedByte (front ++ back) x) :
    x < stop 32 kheapBase front ∨
      stop 32 kheapBase front + heapBlockSize ≤ x := by
  rcases hUsed with ⟨address, size, hAt, hLow, hHigh⟩
  have hCut := hAt.cut
  unfold Block.span at hCut
  unfold heapBlockSize
  simp only at hCut
  omega

/- Memory is kept but for the headers at some addresses. -/
def KeptOutside
    (headers : List Nat)
    (heap final : Heap σ) : Prop :=
  ∀ x,
    (∀ header ∈ headers,
      x < header ∨ header + heapBlockSize ≤ x) →
    final.memory x = heap.memory x

theorem KeptOutside.refl
    (headers : List Nat)
    (heap : Heap σ) :
    KeptOutside headers heap heap :=
  fun _ _ => rfl

theorem KeptOutside.trans
    {first second : List Nat}
    {heap middle final : Heap σ}
    (hFirst : KeptOutside first heap middle)
    (hSecond : KeptOutside second middle final) :
    KeptOutside (first ++ second) heap final := by
  intro x hOutside
  rw [hSecond x fun header hHeader =>
      hOutside header (List.mem_append_right _ hHeader),
    hFirst x fun header hHeader =>
      hOutside header (List.mem_append_left _ hHeader)]

theorem KeptOutside.setField
    {headers : List Nat}
    {heap final : Heap σ}
    (hKept : KeptOutside headers heap final)
    {block : Nat}
    (hBlock : block ∈ headers)
    (field : Field)
    (value : Nat) :
    KeptOutside headers heap
      (final.setField block field value) := by
  intro x hOutside
  have hFits := field_fits field
  have hBlockOutside := hOutside block hBlock
  rw [← hKept x hOutside]
  exact write_of_not_mem (by omega)

/- The payloads of the used blocks are as they were. -/
def KeepsPayloads
    (blocks : List Block)
    (heap final : Heap σ) : Prop :=
  ∀ x, UsedByte blocks x →
    final.memory x = heap.memory x

theorem KeepsPayloads.trans
    {blocks blocks' : List Block}
    {heap middle final : Heap σ}
    (hFirst : KeepsPayloads blocks heap middle)
    (hSecond : KeepsPayloads blocks' middle final)
    (hSame :
      ∀ address size,
        At 32 kheapBase blocks' address ⟨size, false⟩ ↔
          At 32 kheapBase blocks address ⟨size, false⟩) :
    KeepsPayloads blocks heap final := by
  rintro x ⟨address, size, hAt, hInside⟩
  rw [hSecond x
      ⟨address, size, (hSame address size).mpr hAt, hInside⟩,
    hFirst x ⟨address, size, hAt, hInside⟩]

theorem KeepsPayloads.congr
    {blocks blocks' : List Block}
    {heap final : Heap σ}
    (hKeeps : KeepsPayloads blocks heap final)
    (hSame :
      ∀ address size,
        At 32 kheapBase blocks' address ⟨size, false⟩ →
          At 32 kheapBase blocks address ⟨size, false⟩) :
    KeepsPayloads blocks' heap final := by
  rintro x ⟨address, size, hAt, hInside⟩
  exact hKeeps x
    ⟨address, size, hSame address size hAt, hInside⟩

/-
  Another list of blocks in the same range, with the payloads
  of its used blocks as they were.
-/
structure Reshaped
    (heap : Heap σ)
    (blocks : List Block)
    (final : Heap σ) : Prop
    extends Rearranged heap blocks final where
  payloads : KeepsPayloads blocks heap final

theorem Layout.reshaped
    {heap : Heap σ}
    {blocks : List Block}
    (hLayout : Layout heap blocks) :
    Reshaped heap blocks heap :=
  ⟨⟨hLayout, rfl⟩, fun _ _ => rfl⟩

/- A header written field by field. -/
def Heap.writeHeader
    (heap : Heap σ)
    (address : Nat)
    (block : Block)
    (prev next : Nat) : Heap σ :=
  ((((heap.setField address .magic heapMagic).setField
    address .free block.free.toNat).setField
      address .size block.size).setField
        address .prev prev).setField
          address .next next

theorem keptOutside_writeHeader
    (heap : Heap σ)
    (address : Nat)
    (block : Block)
    (prev next : Nat) :
    KeptOutside [address] heap
      (heap.writeHeader address block prev next) := by
  have hMem := List.mem_singleton_self address
  unfold Heap.writeHeader
  exact (((((KeptOutside.refl _ heap).setField hMem _
    _).setField hMem _ _).setField hMem _ _).setField hMem _
      _).setField hMem _ _

theorem writeHeader_header
    (heap : Heap σ)
    (address : Nat)
    {block : Block}
    {prev next : Nat}
    (hSize : block.size < 2 ^ 64)
    (hPrev : prev < 2 ^ 64)
    (hNext : next < 2 ^ 64) :
    Header (heap.writeHeader address block prev next).memory
      address block prev next := by
  have hMagic : heapMagic < 256 ^ Field.magic.width := by
    decide
  have hFree :
      block.free.toNat < 256 ^ Field.free.width := by
    cases block.free <;> decide
  unfold Heap.writeHeader
  constructor
  · simp [hMagic]
  · simp [hFree]
  · simp [word_fits hSize]
  · simp [word_fits hPrev]
  · simp [word_fits hNext]

theorem Header.writeHeader
    {heap : Heap σ}
    {address : Nat}
    {block : Block}
    {prev next : Nat}
    (hHeader : Header heap.memory address block prev next)
    {other : Nat}
    (hApart : Apart other address)
    (written : Block)
    (prev' next' : Nat) :
    Header
      (heap.writeHeader other written prev' next').memory
      address block prev next :=
  ((((hHeader.setField hApart _ _).setField hApart _
    _).setField hApart _ _).setField hApart _ _).setField
      hApart _ _

/- The variables that splitting and merging leave alone. -/
structure SameRange
    (heap final : Heap σ) : Prop where
  heapStart : final.heapStart = heap.heapStart
  heapEnd : final.heapEnd = heap.heapEnd
  mappedBytes : final.mappedBytes = heap.mappedBytes
  initialized : final.initialized = heap.initialized
  firstBlock : final.firstBlock = heap.firstBlock

theorem SameRange.refl
    (heap : Heap σ) :
    SameRange heap heap :=
  ⟨rfl, rfl, rfl, rfl, rfl⟩

theorem SameRange.setField
    {heap final : Heap σ}
    (hSame : SameRange heap final)
    (block : Nat)
    (field : Field)
    (value : Nat) :
    SameRange heap (final.setField block field value) :=
  ⟨hSame.1, hSame.2, hSame.3, hSame.4, hSame.5⟩

/-
  A part of the list is replaced by another one of the same
  extent, and the headers before it are kept.
-/
theorem Layout.replace
    {heap final : Heap σ}
    {before old new after : List Block}
    (hLayout : Layout heap (before ++ (old ++ after)))
    (hSame : SameRange heap final)
    (hOld : old ≠ [])
    (hNew : new ≠ [])
    (hExtent :
      Tiling.stop 32 (Tiling.stop 32 kheapBase before) new =
        Tiling.stop 32 (Tiling.stop 32 kheapBase before) old)
    (hSizes : ∀ block ∈ new, 16 ∣ block.size)
    (hBefore :
      ∀ a block p n,
        a + block.span 32 ≤ Tiling.stop 32 kheapBase before →
          Header heap.memory a block p n →
            Header final.memory a block p n)
    (hRest :
      Linked 32 (Header final.memory) 0
        (lastAddress 32 0 kheapBase before)
        (Tiling.stop 32 kheapBase before) (new ++ after))
    (hLast :
      final.lastBlock =
        lastAddress 32 (lastAddress 32 0 kheapBase before)
          (Tiling.stop 32 kheapBase before)
          (new ++ after)) :
    Layout final (before ++ (new ++ after)) := by
  rcases hSame with
    ⟨hStart, hEnd, hMapped, hInitialized, hFirst⟩
  have hEntry :
      ∀ part : List Block, part ≠ [] →
        entry 0 kheapBase (before ++ (part ++ after)) =
          kheapBase ∧
        entry 0 (Tiling.stop 32 kheapBase before)
          (part ++ after) =
            Tiling.stop 32 kheapBase before := by
    intro part hPart
    cases part with
    | nil => exact absurd rfl hPart
    | cons block rest =>
        exact ⟨entry_append_cons 0 kheapBase before block _,
          rfl⟩
  have hLinked := hLayout.linked
  rw [linked_append_iff, (hEntry old hOld).2] at hLinked
  refine
    { start := hStart.trans hLayout.start
      linked := ?_
      first := ?_
      last := ?_
      stop := ?_
      bound := ?_
      sizes := ?_
      mapped := ?_
      initialized := hInitialized.trans hLayout.initialized }
  · rw [linked_append_iff, (hEntry new hNew).2]
    refine ⟨hLinked.1.mono ?_, hRest⟩
    intro a block p n _ hStop hHeader
    exact hBefore a block p n hStop hHeader
  · rw [hFirst, hLayout.first, (hEntry old hOld).1,
      (hEntry new hNew).1]
  · exact hLast.trans
      (lastAddress_append 0 kheapBase before _).symm
  · rw [hEnd, hLayout.stop]
    simp only [stop_append, hExtent]
  · rw [hEnd]
    exact hLayout.bound
  · intro block hBlock
    rcases List.mem_append.mp hBlock with hBlock | hBlock
    · exact hLayout.sizes block
        (List.mem_append_left _ hBlock)
    · rcases List.mem_append.mp hBlock with hBlock | hBlock
      · exact hSizes block hBlock
      · exact hLayout.sizes block
          (List.mem_append_right _
            (List.mem_append_right _ hBlock))
  · rw [hMapped, hLayout.mapped, hEnd, hStart]

/-
  Linking a block back from the blocks after it: the first of
  them, or `last_block` when there is none.
-/
theorem ensures_linkNextBack
    {heap start : Heap σ}
    {block old address : Nat}
    {after : List Block}
    (hSame : SameRange start heap)
    (hAccessible : heap.Accessible block heapBlockSize)
    (hNext :
      getField heap.memory block .next =
        entry 0 address after)
    (hBelow : block + heapBlockSize ≤ address)
    (hBlock : block < 2 ^ 64)
    (hAfter :
      Linked 32 (Header heap.memory) 0 old address after)
    (hLast :
      heap.lastBlock = lastAddress 32 old address after)
    (hInside :
      after ≠ [] →
        heap.Accessible address heapBlockSize) :
    Ensures (fun _ => False) (linkNextBack block) heap
      fun _ final =>
        SameRange start final ∧
          final.allocatedBytes = heap.allocatedBytes ∧
          Linked 32 (Header final.memory) 0 block address
            after ∧
          final.lastBlock =
            lastAddress 32 block address after ∧
          (∀ a other p n, a + heapBlockSize ≤ address →
            Header heap.memory a other p n →
              Header final.memory a other p n) ∧
          KeptOutside [address] heap final := by
  unfold linkNextBack
  rw [ensures_bind_iff, ensures_loadField_iff hAccessible,
    hNext]
  cases after with
  | nil =>
      simp only [entry_nil, ne_eq, not_true_eq_false,
        if_false, setLastBlock, ensures_modify_iff]
      refine ⟨?_, trivial, trivial, rfl,
        fun a other p n _ hOld => hOld, fun _ _ => rfl⟩
      exact ⟨hSame.1, hSame.2, hSame.3, hSame.4, hSame.5⟩
  | cons other rest =>
      have hOther := hInside (List.cons_ne_nil _ _)
      have hNonzero : address ≠ 0 := by
        unfold heapBlockSize at hBelow
        omega
      simp only [entry_cons, ne_eq, hNonzero,
        not_false_eq_true, if_true, ensures_bind_iff,
        ensures_loadField_iff hAccessible, hNext,
        ensures_storeField_iff hOther]
      refine ⟨hSame.setField _ _ _, rfl, ?_, hLast, ?_,
        (KeptOutside.refl _ heap).setField
          (List.mem_singleton.mpr rfl) _ _⟩
      · apply hAfter.relink
        · intro first rest' n _ hHeader
          constructor
          · simp [hHeader.magic]
          · simp [hHeader.free]
          · simp [hHeader.size]
          · simp [word_fits hBlock]
          · simp [hHeader.next]
        · intro a later p n hAbove _ hHeader
          have hFirst := hAbove other rfl
          apply hHeader.setField
          unfold Apart heapBlockSize
          unfold Block.span at hFirst
          omega
      · intro a earlier p n hEarlier hHeader
        exact hHeader.setField (.inr hEarlier) _ _

theorem ensures_splitBlock
    {heap : Heap σ}
    {before after : List Block}
    {block : Block}
    {address size : Nat}
    (hLocated : Located heap before block after address)
    (hSize : 16 ∣ size)
    (hFits : size ≤ block.size) :
    Ensures (fun _ => False) (splitBlock address size) heap
      fun _ final =>
        Reshaped heap
          (before ++ (splitBlocks block size ++ after))
          final := by
  have hBounds := hLocated.bounds
  have hHeader := hLocated.header
  have hAccessible := hLocated.accessible
  have hLinked := hLocated.layout.linked
  rw [linked_middle_iff, ← hLocated.address_eq] at hLinked
  unfold kheapBase kheapMaxSize at hBounds
  have hSum :
      wrap 64 (size + 32 + heapAlign) = size + 48 :=
    wrap_of_lt (by unfold heapAlign; omega)
  have hSplit :
      wrap 64 (blockPayload address + size) =
        address + 32 + size := by
    rw [hLocated.payload]
    exact wrap_of_lt (by omega)
  unfold splitBlock
  simp only [blockOverhead_eq, ensures_bind_iff,
    ensures_loadField_iff hAccessible, hHeader.size, hSum,
    hSplit]
  by_cases hSmall : block.size < size + 48
  · simp only [hSmall, if_true, ensures_pure_iff, splitBlocks,
      List.cons_append, List.nil_append]
    exact hLocated.layout.reshaped
  have hLeft :
      wrapSub 64 (wrapSub 64 block.size size) 32 =
        block.size - size - 32 := by
    rw [wrapSub_of_le, wrapSub_of_le]
    · omega
    · omega
    · rw [wrapSub_of_le]
      · omega
      · omega
      · omega
    · rw [wrapSub_of_le]
      · omega
      · omega
      · omega
  have hSplitAccessible :
      heap.Accessible (address + 32 + size)
        heapBlockSize := by
    unfold Heap.Accessible heapBlockSize kheapBase at *
    omega
  have hApart : Apart address (address + 32 + size) := by
    unfold Apart heapBlockSize
    omega
  simp only [hSmall, if_false, ensures_bind_iff,
    ensures_storeFree_iff, ensures_storeField_iff,
    ensures_loadField_iff, accessible_setField,
    hSplitAccessible, hAccessible, hApart.symm,
    getField_setField_apart, hHeader.size, hHeader.next,
    hLeft]
  have hNext :
      entry 0 (address + 32 + block.size) after <
        2 ^ 64 := by
    unfold entry
    split_ifs <;> omega
  have hWritten :=
    @writeHeader_header σ heap (address + 32 + size)
      { size := block.size - size - 32, free := true }
      address (entry 0 (address + 32 + block.size) after)
      (show block.size - size - 32 < 2 ^ 64 by omega)
      (by omega) hNext
  have hKept :=
    fun a other p n hOld hOther =>
      @Header.writeHeader σ heap a other p n hOld
        (address + 32 + size) hOther
        { size := block.size - size - 32, free := true }
        address (entry 0 (address + 32 + block.size) after)
  change Ensures _ _
    (heap.writeHeader (address + 32 + size)
      { size := block.size - size - 32, free := true }
      address (entry 0 (address + 32 + block.size) after)) _
  generalize hName :
    heap.writeHeader (address + 32 + size)
      { size := block.size - size - 32, free := true }
      address (entry 0 (address + 32 + block.size) after) =
    written at hWritten hKept ⊢
  have hSame : SameRange heap written := by
    subst hName
    exact ⟨rfl, rfl, rfl, rfl, rfl⟩
  have hLast : written.lastBlock = heap.lastBlock := by
    subst hName
    rfl
  have hWrittenKept :
      KeptOutside [address + 32 + size] heap written := by
    subst hName
    exact keptOutside_writeHeader heap _ _ _ _
  -- The rest of the list is linked back to the new block.
  have hAfter :
      Linked 32 (Header written.memory) 0 address
        (address + 32 + block.size) after := by
    have hOld := hLinked.2.2
    rw [Block.span, ← Nat.add_assoc] at hOld
    apply hOld.mono
    intro a other p n hAbove _ hHeader
    apply hKept a other p n hHeader
    unfold Apart heapBlockSize
    omega
  have hSplitBelow :
      address + 32 + size + heapBlockSize ≤
        address + 32 + block.size := by
    unfold heapBlockSize
    omega
  have hLastAfter :
      written.lastBlock =
        lastAddress 32 address (address + 32 + block.size)
          after := by
    rw [hLast, hLocated.layout.last, lastAddress_append,
      lastAddress_cons, ← hLocated.address_eq, Block.span,
      Nat.add_assoc]
  have hInside :
      after ≠ [] →
        written.Accessible (address + 32 + block.size)
          heapBlockSize := by
    intro hNonempty
    have hNextBlock := hLocated.next_accessible hNonempty
    unfold Heap.Accessible at *
    rw [hSame.heapStart, hSame.heapEnd]
    exact hNextBlock
  have hSplitWritten :
      written.Accessible (address + 32 + size)
        heapBlockSize := by
    unfold Heap.Accessible at *
    rw [hSame.heapStart, hSame.heapEnd]
    exact hSplitAccessible
  apply (ensures_linkNextBack hSame hSplitWritten
    hWritten.next hSplitBelow (by omega) hAfter hLastAfter
    hInside).mono
  rintro _ linked
    ⟨hSame, hAllocated, hAfter, hLast, hKeptBelow,
      hLinkedKept⟩
  have hLinkedAccessible :
      linked.Accessible address heapBlockSize := by
    unfold Heap.Accessible at *
    rw [hSame.heapStart, hSame.heapEnd]
    exact hAccessible
  have hOldHeader := hKeptBelow _ _ _ _
    (by unfold heapBlockSize; omega)
    (hKept _ _ _ _ hHeader hApart.symm)
  have hNewHeader := hKeptBelow _ _ _ _ hSplitBelow hWritten
  simp only [ensures_storeField_iff, hLinkedAccessible,
    accessible_setField]
  simp only [splitBlocks, hSmall, if_false]
  have hSizeFits : size < 2 ^ 64 := by omega
  have hSplitFits : address + 32 + size < 2 ^ 64 := by omega
  have hOldAllocated :
      written.allocatedBytes = heap.allocatedBytes := by
    subst hName
    rfl
  have hEnd :
      address + 32 + size + 32 + (block.size - size - 32) =
        address + 32 + block.size := by
    omega
  refine ⟨⟨?_, hAllocated.trans hOldAllocated⟩, ?_⟩
  case refine_2 =>
    intro x hUsed
    have hMem := List.mem_singleton_self address
    have hHeader := hUsed.outside
    rw [List.cons_append, List.append_cons] at hUsed
    have hSplitHeader := hUsed.outside
    rw [List.singleton_append, List.append_cons] at hUsed
    have hNextHeader := hUsed.outside
    simp only [stop_append, stop_cons, stop_nil, Block.span,
      ← hLocated.address_eq, ← Nat.add_assoc, hEnd]
      at hHeader hSplitHeader hNextHeader
    apply (hWrittenKept.trans (hLinkedKept.trans
      (((KeptOutside.refl [address] linked).setField hMem _
        _).setField hMem _ _))) x
    simpa using ⟨hSplitHeader, hNextHeader, hHeader⟩
  have hLayout :
      Layout heap (before ++ ([block] ++ after)) :=
    hLocated.layout
  apply hLayout.replace
    ((hSame.setField _ _ _).setField _ _ _)
    (List.cons_ne_nil _ _) (List.cons_ne_nil _ _)
  · rw [← hLocated.address_eq]
    simp only [stop_cons, stop_nil, Block.span]
    omega
  · intro piece hPiece
    simp only [List.mem_cons, List.not_mem_nil, or_false]
      at hPiece
    rcases hPiece with rfl | rfl
    · exact hSize
    · simp only
      omega
  · intro a other p n hBelow hOther
    rw [← hLocated.address_eq] at hBelow
    unfold Block.span at hBelow
    have hApartA : Apart address a := by
      unfold Apart heapBlockSize
      omega
    have hApartS : Apart (address + 32 + size) a := by
      unfold Apart heapBlockSize
      omega
    have hWrittenOther := hKept _ _ _ _ hOther hApartS
    have hLinkedOther := hKeptBelow _ _ _ _
      (by unfold heapBlockSize; omega) hWrittenOther
    exact (hLinkedOther.setField hApartA _ _).setField
      hApartA _ _
  · rw [← hLocated.address_eq]
    simp only [List.cons_append, List.nil_append, Linked,
      entry_cons, Block.span, ← Nat.add_assoc, hEnd]
    refine ⟨?_, ?_, ?_⟩
    · constructor
      · simp [hOldHeader.magic]
      · simp [hOldHeader.free]
      · simp [word_fits hSizeFits]
      · simp [hOldHeader.prev]
      · simp [word_fits hSplitFits]
    · exact (hNewHeader.setField hApart _ _).setField hApart
        _ _
    · apply hAfter.mono
      intro a other p n hAbove _ hOther
      have hApartA : Apart address a := by
        unfold Apart heapBlockSize
        omega
      exact (hOther.setField hApartA _ _).setField hApartA
        _ _
  · rw [← hLocated.address_eq]
    simp only [List.cons_append, List.nil_append,
      lastAddress_cons, Block.span, ← Nat.add_assoc, hEnd]
    exact hLast

/-
  The last steps of merging a block with the next one: its
  size and its next pointer are written, and the rest of the
  list is linked back to it.
-/
theorem ensures_merge
    {heap : Heap σ}
    {before rest : List Block}
    {block other : Block}
    {address : Nat}
    (hLocated :
      Located heap before block (other :: rest) address) :
    Ensures (fun _ => False) (linkNextBack address)
      ((heap.setField address .size
        (block.size + 32 + other.size)).setField address .next
          (entry 0
            (address + 32 + block.size + 32 + other.size)
            rest))
      fun _ final =>
        Reshaped heap
          (before ++
            { size := block.size + 32 + other.size
              free := block.free } :: rest)
          final := by
  have hBounds := hLocated.bounds
  have hHeader := hLocated.header
  have hAccessible := hLocated.accessible
  have hNext := hLocated.next
  have hNextBounds := hNext.bounds
  have hLinked := hNext.layout.linked
  rw [linked_middle_iff, ← hNext.address_eq, Block.span,
    ← Nat.add_assoc] at hLinked
  unfold kheapBase kheapMaxSize at hBounds hNextBounds
  generalize hWritten :
    (heap.setField address .size
      (block.size + 32 + other.size)).setField address .next
        (entry 0
          (address + 32 + block.size + 32 + other.size)
          rest) = written
  have hSame : SameRange heap written := by
    subst hWritten
    exact ⟨rfl, rfl, rfl, rfl, rfl⟩
  have hWrittenKept : KeptOutside [address] heap written := by
    subst hWritten
    have hMem := List.mem_singleton_self address
    exact ((KeptOutside.refl _ heap).setField hMem _
      _).setField hMem _ _
  have hKept :
      ∀ a later p n, Apart address a →
        Header heap.memory a later p n →
          Header written.memory a later p n := by
    intro a later p n hApart hLater
    subst hWritten
    exact (hLater.setField hApart _ _).setField hApart _ _
  have hNextFits :
      entry 0 (address + 32 + block.size + 32 + other.size)
          rest < 2 ^ 64 := by
    unfold entry
    split_ifs <;> omega
  have hSizeFits :
      block.size + 32 + other.size < 2 ^ 64 := by
    omega
  have hMerged :
      Header written.memory address
        { size := block.size + 32 + other.size
          free := block.free }
        (lastAddress 32 0 kheapBase before)
        (entry 0
          (address + 32 + block.size + 32 + other.size)
          rest) := by
    subst hWritten
    constructor
    · simp [hHeader.magic]
    · simp [hHeader.free]
    · simp [word_fits hSizeFits]
    · simp [hHeader.prev]
    · simp [word_fits hNextFits]
  have hAfter :
      Linked 32 (Header written.memory) 0
        (address + 32 + block.size)
        (address + 32 + block.size + 32 + other.size)
        rest := by
    apply hLinked.2.2.mono
    intro a later p n hAbove _ hLater
    apply hKept a later p n _ hLater
    unfold Apart heapBlockSize
    omega
  have hLast :
      written.lastBlock =
        lastAddress 32 (address + 32 + block.size)
          (address + 32 + block.size + 32 + other.size)
          rest := by
    have hOld := hNext.layout.last
    rw [lastAddress_append, lastAddress_cons,
      ← hNext.address_eq, Block.span, ← Nat.add_assoc] at hOld
    subst hWritten
    exact hOld
  have hInside :
      rest ≠ [] →
        written.Accessible
          (address + 32 + block.size + 32 + other.size)
          heapBlockSize := by
    intro hNonempty
    have hLater := hNext.next_accessible hNonempty
    unfold Heap.Accessible at *
    rw [hSame.heapStart, hSame.heapEnd]
    exact hLater
  have hWrittenAccessible :
      written.Accessible address heapBlockSize := by
    unfold Heap.Accessible at *
    rw [hSame.heapStart, hSame.heapEnd]
    exact hAccessible
  apply (ensures_linkNextBack hSame hWrittenAccessible
    hMerged.next (by unfold heapBlockSize; omega) (by omega)
    hAfter hLast hInside).mono
  rintro _ final
    ⟨hSame, hAllocated, hAfter, hLast, hKeptBelow,
      hFinalKept⟩
  have hOldAllocated :
      written.allocatedBytes = heap.allocatedBytes := by
    subst hWritten
    rfl
  have hLayout :
      Layout heap (before ++ ([block, other] ++ rest)) :=
    hLocated.layout
  have hEnd :
      address + 32 + (block.size + 32 + other.size) =
        address + 32 + block.size + 32 + other.size := by
    omega
  refine ⟨⟨?_, hAllocated.trans hOldAllocated⟩, ?_⟩
  case refine_2 =>
    intro x hUsed
    have hHeader := hUsed.outside
    rw [List.append_cons] at hUsed
    have hNextHeader := hUsed.outside
    simp only [stop_append, stop_cons, stop_nil, Block.span,
      ← hLocated.address_eq, ← Nat.add_assoc]
      at hHeader hNextHeader
    apply (hWrittenKept.trans hFinalKept) x
    simpa using ⟨hHeader, hNextHeader⟩
  change Layout final
    (before ++
      ([{ size := block.size + 32 + other.size
          free := block.free }] ++ rest))
  apply hLayout.replace hSame (List.cons_ne_nil _ _)
    (List.cons_ne_nil _ _)
  · rw [← hLocated.address_eq]
    simp only [stop_cons, stop_nil, Block.span]
    omega
  · intro piece hPiece
    rw [List.mem_singleton] at hPiece
    subst hPiece
    simp only
    omega
  · intro a earlier p n hBelow hEarlier
    rw [← hLocated.address_eq] at hBelow
    unfold Block.span at hBelow
    apply hKeptBelow _ _ _ _
      (by unfold heapBlockSize; omega)
    apply hKept a earlier p n _ hEarlier
    unfold Apart heapBlockSize
    omega
  · rw [← hLocated.address_eq]
    simp only [List.cons_append, List.nil_append, Linked,
      Block.span, ← Nat.add_assoc]
    exact ⟨hKeptBelow _ _ _ _
      (by unfold heapBlockSize; omega) hMerged, hAfter⟩
  · rw [← hLocated.address_eq]
    simp only [List.cons_append, List.nil_append,
      lastAddress_cons, Block.span, ← Nat.add_assoc]
    simpa only [← Nat.add_assoc] using hLast

/- What `coalesce_with_next` makes of a block and the rest. -/
def mergeBlocks
    (block : Block) :
    List Block → List Block
| [] => [block]
| other :: rest =>
    if other.free then
      { size := block.size + 32 + other.size
        free := block.free } :: rest
    else
      block :: other :: rest

theorem ensures_coalesceWithNext
    {heap : Heap σ}
    {before after : List Block}
    {block : Block}
    {address : Nat}
    (hLocated : Located heap before block after address) :
    Ensures (fun _ => False) (coalesceWithNext address) heap
      fun _ final =>
        Reshaped heap (before ++ mergeBlocks block after)
          final := by
  have hBounds := hLocated.bounds
  have hHeader := hLocated.header
  have hAccessible := hLocated.accessible
  unfold coalesceWithNext
  rw [ensures_bind_iff, ensures_loadField_iff hAccessible,
    hHeader.next]
  cases after with
  | nil =>
      simp only [entry_nil, if_true, ensures_pure_iff]
      exact hLocated.layout.reshaped
  | cons other rest =>
      have hNext := hLocated.next
      have hNextBounds := hNext.bounds
      have hNextHeader := hNext.header
      have hNextAccessible := hNext.accessible
      simp only [entry_cons, hNext.ne_zero, if_false,
        ensures_bind_iff,
        ensures_loadFree_iff hNextAccessible,
        hNextHeader.free]
      cases hFree : other.free with
      | false =>
          simp only [mergeBlocks, hFree, Bool.toNat_false,
            ne_eq, not_true_eq_false, decide_false,
            Bool.not_false, if_true, ensures_pure_iff,
            Bool.false_eq_true, if_false]
          exact hLocated.layout.reshaped
      | true =>
          have hApart :
              Apart address (address + 32 + block.size) := by
            unfold Apart heapBlockSize
            omega
          have hSum :
              wrap 64 (block.size + (32 + other.size)) =
                block.size + 32 + other.size := by
            unfold kheapBase kheapMaxSize at hBounds
            unfold kheapBase kheapMaxSize at hNextBounds
            rw [← Nat.add_assoc]
            exact wrap_of_lt (by omega)
          simp only [hFree, Bool.toNat_true, ne_eq,
            one_ne_zero, not_false_eq_true, decide_true,
            Bool.not_true, Bool.false_eq_true, if_false,
            if_true, ensures_bind_iff, mergeBlocks,
            ensures_loadField_iff, ensures_storeField_iff,
            accessible_setField, hAccessible,
            hNextAccessible, hHeader.size, hNextHeader.size,
            blockOverhead_eq, hSum, getField_setField_apart,
            hApart, hNextHeader.next]
          exact ensures_merge hLocated

/- Merging to the left, when the previous block is free. -/
theorem ensures_coalescePrev
    {heap : Heap σ}
    {before after : List Block}
    {block : Block}
    {address : Nat}
    (hLocated : Located heap before block after address) :
    Ensures (fun _ => False) (coalescePrev address) heap
      fun _ final =>
        (Reshaped heap (before ++ block :: after) final ∧
            ∀ last ∈ before.getLast?, last.free = false) ∨
          ∃ front last,
            before = front ++ [last] ∧
              last.free = true ∧
              Reshaped heap
                (front ++ mergeBlocks last (block :: after))
                final := by
  have hHeader := hLocated.header
  have hAccessible := hLocated.accessible
  unfold coalescePrev
  simp only [ensures_bind_iff,
    ensures_loadField_iff hAccessible, hHeader.prev]
  rcases List.eq_nil_or_concat before with
    rfl | ⟨front, last, rfl⟩
  · simp only [lastAddress_nil, ne_eq, not_true_eq_false,
      if_false, ensures_pure_iff]
    exact .inl ⟨hLocated.layout.reshaped, by simp⟩
  · rw [List.concat_eq_append] at *
    have hPrevious :
        Located heap front last (block :: after)
          (stop 32 kheapBase front) := by
      refine ⟨?_, rfl⟩
      have hLayout := hLocated.layout
      rw [List.append_assoc] at hLayout
      exact hLayout
    have hPrev :
        lastAddress 32 0 kheapBase (front ++ [last]) =
          stop 32 kheapBase front := by
      rw [lastAddress_append]
      rfl
    simp only [hPrev, ne_eq, hPrevious.ne_zero,
      not_false_eq_true, if_true, ensures_bind_iff,
      ensures_loadField_iff hAccessible, hHeader.prev,
      ensures_loadFree_iff hPrevious.accessible,
      hPrevious.header.free]
    cases hLast : last.free with
    | false =>
        simp only [Bool.toNat_false, ne_eq,
          not_true_eq_false, decide_false,
          Bool.false_eq_true, if_false, ensures_pure_iff]
        refine .inl ⟨hLocated.layout.reshaped, ?_⟩
        intro other hOther
        rw [List.getLast?_concat, Option.mem_some_iff]
          at hOther
        exact hOther ▸ hLast
    | true =>
        simp only [Bool.toNat_true, ne_eq, one_ne_zero,
          not_false_eq_true, decide_true, if_true,
          ensures_bind_iff,
          ensures_loadField_iff hAccessible, hHeader.prev,
          hPrev]
        apply (ensures_coalesceWithNext hPrevious).mono
        intro _ final hFinal
        exact .inr ⟨front, last, rfl, hLast, hFinal⟩

end KernelHeap

end Whirliscope
