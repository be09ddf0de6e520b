import Whirliscope.Library.ByteMemory
import Whirliscope.Library.FaultProgram

/-
  The kernel heap.

  The heap keeps a doubly linked list of blocks in the mapped
  range from `heap_start` to `heap_end`. Pointers are 64-bit
  addresses, with 0 for `NULL`. An access outside the mapped
  range is a page fault. The page allocator and the page
  tables are a parameter that may answer in any way.

  Key definitions include:
    * `PageSource`, `Heap`
    * `splitBlock`, `coalesceWithNext`, `expandHeap`
    * `kmalloc`, `kcalloc`, `krealloc`, `kfree`
    * `kheapValidate`
-/

------------------------------------------------------------
-- The Heap State
------------------------------------------------------------

namespace Whirliscope

namespace KernelHeap

open ByteMemory FaultProgram

def kheapBase : Nat := 0xffffc00000000000
def kheapMaxSize : Nat := 64 * 1024 * 1024
def kheapChunkSize : Nat := 64 * 1024
def heapAlign : Nat := 16
def heapMagic : Nat := 0x48454150
def vmmPageSize : Nat := 4096
def vmmWritable : Nat := 2 ^ 1

/-
  Physical pages and page tables, over a state `σ`. A frame
  shows its `contents` when it is mapped.
-/
structure PageSource (σ : Type) where
  pmmAllocPage : σ → Nat × σ
  pmmFreePage : Nat → σ → σ
  vmmMapPage : Nat → Nat → Nat → σ → Bool × σ
  vmmUnmapPage : Nat → σ → σ
  vmmVirtToPhys : Nat → σ → Option Nat
  contents : Nat → σ → Bytes

/- The static variables of the heap, memory and machine. -/
structure Heap (σ : Type) where
  memory : Bytes
  firstBlock : Nat
  lastBlock : Nat
  heapStart : Nat
  heapEnd : Nat
  mappedBytes : Nat
  allocatedBytes : Nat
  initialized : Bool
  machine : σ

inductive HeapFault where
| pageFault
| panic
| noReturn
deriving DecidableEq, Repr

abbrev HeapM (σ α : Type) :=
  Program (Heap σ) HeapFault α

variable {σ : Type}

/- An access inside the mapped range. -/
def Heap.Accessible
    (heap : Heap σ)
    (address count : Nat) : Prop :=
  heap.heapStart ≤ address ∧
    address + count ≤ heap.heapEnd

instance
    (heap : Heap σ)
    (address count : Nat) :
    Decidable (heap.Accessible address count) :=
  inferInstanceAs (Decidable (_ ∧ _))

def Heap.withMemory
    (heap : Heap σ)
    (memory : Bytes) : Heap σ :=
  { heap with memory := memory }

/- The fields of `struct heap_block`. -/
inductive Field where
| magic
| free
| size
| prev
| next
deriving DecidableEq, Repr

def Field.offset : Field → Nat
| .magic => 0
| .free => 4
| .size => 8
| .prev => 16
| .next => 24

def Field.width : Field → Nat
| .magic => 4
| .free => 1
| .size => 8
| .prev => 8
| .next => 8

/- `sizeof(struct heap_block)`. -/
def heapBlockSize : Nat := 32

def getField
    (memory : Bytes)
    (block : Nat)
    (field : Field) : Nat :=
  getLE memory (block + field.offset) field.width

def Heap.setField
    (heap : Heap σ)
    (block : Nat)
    (field : Field)
    (value : Nat) : Heap σ :=
  heap.withMemory
    (putLE heap.memory (block + field.offset) field.width
      value)

/- Read a field of a block header. -/
def loadField
    (field : Field)
    (block : Nat) : HeapM σ Nat := do
  let heap ← get
  if heap.Accessible (block + field.offset) field.width then
    return getField heap.memory block field
  else
    throw .pageFault

/- Write a field of a block header. -/
def storeField
    (field : Field)
    (block value : Nat) : HeapM σ Unit := do
  let heap ← get
  if heap.Accessible (block + field.offset) field.width then
    set (heap.setField block field value)
  else
    throw .pageFault

def loadFree
    (block : Nat) : HeapM σ Bool := do
  return (← loadField .free block) ≠ 0

def storeFree
    (block : Nat)
    (value : Bool) : HeapM σ Unit :=
  storeField .free block value.toNat

/- `align_up_size`. -/
def alignUpSize
    (value alignment : Nat) : Nat :=
  alignUp 64 value alignment

/- `block_overhead`. -/
def blockOverhead : Nat :=
  alignUpSize heapBlockSize heapAlign

/- `block_payload`. -/
def blockPayload
    (block : Nat) : Nat :=
  wrap 64 (block + blockOverhead)

/- `payload_block`. -/
def payloadBlock
    (ptr : Nat) : Nat :=
  wrapSub 64 ptr blockOverhead

/- `assert`. -/
def assert
    (condition : Bool) : HeapM σ Unit :=
  if condition then return () else throw .panic

end KernelHeap

end Whirliscope

------------------------------------------------------------
-- The Block List
------------------------------------------------------------

namespace Whirliscope

namespace KernelHeap

open ByteMemory FaultProgram

variable {σ : Type}

def setFirstBlock
    (block : Nat) : HeapM σ Unit :=
  modify fun heap => { heap with firstBlock := block }

def setLastBlock
    (block : Nat) : HeapM σ Unit :=
  modify fun heap => { heap with lastBlock := block }

/- `append_block`. -/
def appendBlock
    (block : Nat) : HeapM σ Unit := do
  storeField .prev block (← get).lastBlock
  storeField .next block 0
  if (← get).lastBlock ≠ 0 then
    storeField .next (← get).lastBlock block
  else
    setFirstBlock block
  setLastBlock block

/-
  Link the next block back to a block; without a next block
  it is the last one. Part of `split_block` and of
  `coalesce_with_next`.
-/
def linkNextBack
    (block : Nat) : HeapM σ Unit := do
  if (← loadField .next block) ≠ 0 then
    storeField .prev (← loadField .next block) block
  else
    setLastBlock block

/- `split_block`. -/
def splitBlock
    (block size : Nat) : HeapM σ Unit := do
  let overhead := blockOverhead
  let blockSize ← loadField .size block
  if blockSize < wrap 64 (size + overhead + heapAlign) then
    return ()
  let split := wrap 64 (blockPayload block + size)
  storeField .magic split heapMagic
  storeFree split true
  storeField .size split
    (wrapSub 64 (wrapSub 64 (← loadField .size block) size)
      overhead)
  storeField .prev split block
  storeField .next split (← loadField .next block)
  linkNextBack split
  storeField .size block size
  storeField .next block split

/- `coalesce_with_next`. -/
def coalesceWithNext
    (block : Nat) : HeapM σ Unit := do
  let next ← loadField .next block
  if next = 0 then return ()
  if !(← loadFree next) then return ()
  storeField .size block
    (wrap 64 ((← loadField .size block) +
      (blockOverhead + (← loadField .size next))))
  storeField .next block (← loadField .next next)
  linkNextBack block

/- Merge the next block with the one after it, if free. -/
def coalesceNext
    (block : Nat) : HeapM σ Unit := do
  if (← loadField .next block) ≠ 0 then
    if (← loadFree (← loadField .next block)) then
      coalesceWithNext (← loadField .next block)

/- Merge a block into the previous one, if that is free. -/
def coalescePrev
    (block : Nat) : HeapM σ Unit := do
  if (← loadField .prev block) ≠ 0 then
    if (← loadFree (← loadField .prev block)) then
      coalesceWithNext (← loadField .prev block)

/- One pass of `find_free_block`. -/
def findFreeVisit
    (size block : Nat) : HeapM σ (Nat ⊕ Nat) := do
  if block = 0 then
    return .inr 0
  else if (← loadFree block) then
    if (← loadField .size block) ≥ size then
      return .inr block
    else
      return .inl (← loadField .next block)
  else
    return .inl (← loadField .next block)

/- `find_free_block`. -/
def findFreeBlock
    (size : Nat) : HeapM σ Nat := do
  loop (throw .noReturn) (findFreeVisit size) (2 ^ 64)
    (← get).firstBlock

end KernelHeap

end Whirliscope

------------------------------------------------------------
-- Growing the Heap
------------------------------------------------------------

namespace Whirliscope

namespace KernelHeap

open ByteMemory FaultProgram

variable {σ : Type} (source : PageSource σ)

def pmmAllocPage : HeapM σ Nat := do
  let heap ← get
  let result := source.pmmAllocPage heap.machine
  set { heap with machine := result.2 }
  return result.1

def pmmFreePage
    (physical : Nat) : HeapM σ Unit :=
  modify fun heap =>
    { heap with
      machine :=
        source.pmmFreePage physical heap.machine }

/- A mapped page shows the contents of its frame. -/
def vmmMapPage
    (vaddr physical flags : Nat) : HeapM σ Bool := do
  let heap ← get
  let result :=
    source.vmmMapPage vaddr physical flags heap.machine
  if result.1 then
    set
      { heap with
        machine := result.2
        memory :=
          write heap.memory vaddr vmmPageSize
            (source.contents physical result.2) }
  else
    set { heap with machine := result.2 }
  return result.1

/- One pass of `rollback_heap_mapping`. -/
def rollbackVisit
    (start bytes offset : Nat) : HeapM σ (Nat ⊕ Unit) := do
  if offset < bytes then
    let vaddr := wrap 64 (start + offset)
    modify fun heap =>
      match source.vmmVirtToPhys vaddr heap.machine with
      | none => heap
      | some physical =>
          { heap with
            machine :=
              source.pmmFreePage physical
                (source.vmmUnmapPage vaddr heap.machine) }
    return .inl (wrap 64 (offset + vmmPageSize))
  else
    return .inr ()

/- `rollback_heap_mapping`. -/
def rollbackHeapMapping
    (start bytes : Nat) : HeapM σ Unit :=
  loop (throw .noReturn) (rollbackVisit source start bytes)
    (2 ^ 64) 0

/-
  One pass of the mapping loop of `expand_heap`. The
  accumulator is `offset`, which `mapped_this_expand` equals.
-/
def mapVisit
    (blockAddress bytes offset : Nat) :
    HeapM σ (Nat ⊕ Bool) := do
  if offset < bytes then
    let physical ← pmmAllocPage source
    if physical = 0 then
      rollbackHeapMapping source blockAddress offset
      return .inr false
    let vaddr := wrap 64 ((← get).heapEnd + offset)
    if !(← vmmMapPage source vaddr physical vmmWritable) then
      pmmFreePage source physical
      rollbackHeapMapping source blockAddress offset
      return .inr false
    return .inl (wrap 64 (offset + vmmPageSize))
  else
    return .inr true

/- The new free block of `expand_heap`. -/
def writeChunk
    (blockAddress bytes : Nat) : HeapM σ Unit := do
  storeField .magic blockAddress heapMagic
  storeFree blockAddress true
  storeField .size blockAddress
    (wrapSub 64 bytes blockOverhead)
  appendBlock blockAddress

/- The last steps of `expand_heap`. -/
def addChunk
    (blockAddress bytes : Nat) : HeapM σ Unit := do
  modify fun heap =>
    { heap with
      heapEnd := wrap 64 (heap.heapEnd + bytes)
      mappedBytes := wrap 64 (heap.mappedBytes + bytes) }
  writeChunk blockAddress bytes
  coalescePrev blockAddress

/- `expand_heap`. -/
def expandHeap
    (minPayloadSize : Nat) : HeapM σ Bool := do
  let totalNeeded :=
    wrap 64 (minPayloadSize + blockOverhead)
  let bytes := alignUpSize totalNeeded kheapChunkSize
  let heap ← get
  let newEnd := wrap 64 (heap.heapEnd + bytes)
  if newEnd < heap.heapEnd ∨
      newEnd > wrap 64 (heap.heapStart + kheapMaxSize) then
    return false
  let blockAddress := heap.heapEnd
  let mapped ←
    loop (throw .noReturn)
      (mapVisit source blockAddress bytes) (2 ^ 64) 0
  if !mapped then return false
  addChunk blockAddress bytes
  return true

end KernelHeap

end Whirliscope

------------------------------------------------------------
-- Allocation
------------------------------------------------------------

namespace Whirliscope

namespace KernelHeap

open ByteMemory FaultProgram

variable {σ : Type} (source : PageSource σ)

/- `kheap_init`. -/
def kheapInit
    (memory : Bytes)
    (machine : σ) : Heap σ where
  memory := memory
  firstBlock := 0
  lastBlock := 0
  heapStart := kheapBase
  heapEnd := kheapBase
  mappedBytes := 0
  allocatedBytes := 0
  initialized := true
  machine := machine

/- The last steps of `kmalloc`: the block is taken. -/
def takeBlock
    (block size : Nat) : HeapM σ Nat := do
  splitBlock block size
  storeFree block false
  let blockSize ← loadField .size block
  modify fun heap =>
    { heap with
      allocatedBytes :=
        wrap 64 (heap.allocatedBytes + blockSize) }
  return blockPayload block

/- `kmalloc`. -/
def kmalloc
    (size : Nat) : HeapM σ Nat := do
  if !(← get).initialized || size == 0 then return 0
  let size := alignUpSize size heapAlign
  let found ← findFreeBlock size
  if found ≠ 0 then
    takeBlock found size
  else
    if !(← expandHeap source size) then return 0
    let block ← findFreeBlock size
    if block = 0 then return 0
    takeBlock block size

/- `memset` to zero. -/
def clearRange
    (address count : Nat) : HeapM σ Unit := do
  let heap ← get
  if heap.Accessible address count then
    set (heap.withMemory
      (write heap.memory address count zeros))
  else
    throw .pageFault

/- `memcpy`. -/
def copyRange
    (dest src count : Nat) : HeapM σ Unit := do
  let heap ← get
  if heap.Accessible dest count ∧
      heap.Accessible src count then
    set (heap.withMemory
      (write heap.memory dest count
        (slice heap.memory src)))
  else
    throw .pageFault

/- `kcalloc`. -/
def kcalloc
    (count size : Nat) : HeapM σ Nat := do
  if size ≠ 0 ∧ count > (2 ^ 64 - 1) / size then return 0
  let bytes := wrap 64 (count * size)
  let ptr ← kmalloc source bytes
  if ptr ≠ 0 then clearRange ptr bytes
  return ptr

/- `kfree`. -/
def kfree
    (ptr : Nat) : HeapM σ Unit := do
  if ptr = 0 then return ()
  let block := payloadBlock ptr
  assert ((← loadField .magic block) == heapMagic)
  assert (!(← loadFree block))
  storeFree block true
  let blockSize ← loadField .size block
  modify fun heap =>
    { heap with
      allocatedBytes :=
        wrapSub 64 heap.allocatedBytes blockSize }
  coalesceWithNext block
  coalescePrev block

/- The branch of `krealloc` for a block that is large enough. -/
def shrinkBlock
    (block alignedSize : Nat) : HeapM σ Unit := do
  let oldSize ← loadField .size block
  splitBlock block alignedSize
  coalesceNext block
  let blockSize ← loadField .size block
  modify fun heap =>
    { heap with
      allocatedBytes :=
        wrapSub 64 heap.allocatedBytes
          (wrapSub 64 oldSize blockSize) }

/- `krealloc`. -/
def krealloc
    (ptr size : Nat) : HeapM σ Nat := do
  if ptr = 0 then
    kmalloc source size
  else if size = 0 then
    kfree ptr
    return 0
  else
    let block := payloadBlock ptr
    assert ((← loadField .magic block) == heapMagic)
    let alignedSize := alignUpSize size heapAlign
    if (← loadField .size block) ≥ alignedSize then
      shrinkBlock block alignedSize
      return ptr
    else
      let newPtr ← kmalloc source size
      if newPtr = 0 then return 0
      copyRange newPtr ptr (← loadField .size block)
      kfree ptr
      return newPtr

/- One pass of `kheap_validate`. -/
def validateVisit
    (state : Nat × Nat × Nat) :
    HeapM σ ((Nat × Nat × Nat) ⊕ Option (Nat × Nat)) := do
  let (block, previous, allocated) := state
  if block = 0 then
    return .inr (some (previous, allocated))
  else
    let heap ← get
    let payload := blockPayload block
    let size ← loadField .size block
    let blockEnd := wrap 64 (payload + size)
    if (← loadField .magic block) ≠ heapMagic ∨
        (← loadField .prev block) ≠ previous ∨
        block < heap.heapStart ∨
        block ≥ heap.heapEnd ∨
        payload < block ∨
        blockEnd < payload ∨
        blockEnd > heap.heapEnd ∨
        size &&& (heapAlign - 1) ≠ 0 then
      return .inr none
    let next ← loadField .next block
    let free ← loadFree block
    if free && next ≠ 0 then
      if (← loadFree next) then return .inr none
    return .inl
      (next, block,
        if free then allocated else wrap 64 (allocated + size))

/- `kheap_validate`. -/
def kheapValidate : HeapM σ Bool := do
  if !(← get).initialized then return false
  match ← loop (throw .noReturn) validateVisit (2 ^ 64)
      ((← get).firstBlock, 0, 0) with
  | none => return false
  | some (previous, allocated) =>
      let heap ← get
      return previous == heap.lastBlock &&
        allocated == heap.allocatedBytes

end KernelHeap

end Whirliscope
