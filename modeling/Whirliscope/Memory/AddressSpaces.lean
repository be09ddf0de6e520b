import Whirliscope.Memory.Heap
import Whirliscope.Memory.PageRefinement

/-
  Address spaces that share their kernel half.

  A new space starts with a copy of the kernel half of the
  active root. The kernel heap maps its pages in whichever
  space is active.

  Key definitions include:
    * `Spaces`, `vmmCreateAddressSpace`
    * `spaceSource`
    * `System`, `SpaceStep`, `SpaceRun`
-/

------------------------------------------------------------
-- Creating and Activating Spaces
------------------------------------------------------------

namespace Whirliscope

namespace Vmm

open ByteMemory

/- Table memory, the kernel root and the active root. -/
structure Spaces where
  paging : Paging
  kernelCr3 : Nat
  pml4 : Nat

def Spaces.withPaging
    (s : Spaces)
    (paging : Paging) : Spaces :=
  { s with paging := paging }

/- The loop that copies the entries from 256 to 511. -/
def copyKernelHalf
    (source dest : Nat)
    (s : Paging) : Paging :=
  { s with
    tables :=
      write s.tables (dest + 8 * 256) (8 * 256)
        (slice s.tables (source + 8 * 256)) }

/- `vmm_create_address_space`. -/
def vmmCreateAddressSpace
    (s : Spaces) : Nat × Spaces :=
  let (page, paging) := pmmAllocPage s.paging
  if page = 0 then
    (0, s.withPaging paging)
  else
    (page,
      s.withPaging
        (copyKernelHalf s.pml4 page (paging.clear page)))

/- `vmm_activate_address_space`. -/
def vmmActivateAddressSpace
    (pml4Phys : Nat)
    (s : Spaces) : Spaces :=
  { s with
    pml4 := if pml4Phys = 0 then s.kernelCr3 else pml4Phys }

end Vmm

end Whirliscope

------------------------------------------------------------
-- The Kernel Heap Over the Active Space
------------------------------------------------------------

namespace Whirliscope

namespace Vmm

open ByteMemory FaultProgram KernelHeap

/- The page functions that the kernel heap uses. -/
def spaceSource : PageSource Spaces where
  pmmAllocPage := fun s =>
    let (page, paging) := pmmAllocPage s.paging
    (page, s.withPaging paging)
  pmmFreePage := fun page s =>
    s.withPaging (pmmFreePage page s.paging)
  vmmMapPage := fun target physical flags s =>
    let (ok, paging) :=
      vmmMapPage s.pml4 target physical flags s.paging
    (ok, s.withPaging paging)
  vmmUnmapPage := fun target s =>
    s.withPaging (vmmUnmapPage s.pml4 target s.paging).2
  vmmVirtToPhys := fun target s =>
    vmmVirtToPhys s.paging.tables s.pml4 target
  contents := fun page s => slice s.paging.tables page

/-
  The kernel heap with the spaces below it, the roots of the
  spaces that were created, and whether an allocation has
  succeeded.
-/
structure System where
  heap : Heap Spaces
  created : List Nat
  warmed : Bool

def System.spaces
    (system : System) : Spaces :=
  system.heap.machine

def System.withSpaces
    (system : System)
    (spaces : Spaces) : System :=
  { system with
    heap := { system.heap with machine := spaces } }

/- The roots of all spaces. -/
def System.roots
    (system : System) : List Nat :=
  system.spaces.kernelCr3 :: system.created

/- Calls of the kernel heap, with the pointer they return. -/
inductive HeapCall where
| kmalloc (size : Nat)
| kcalloc (count size : Nat)
| krealloc (ptr size : Nat)
| kfree (ptr : Nat)
deriving DecidableEq, Repr

def HeapCall.run : HeapCall → HeapM Spaces Nat
| .kmalloc size => KernelHeap.kmalloc spaceSource size
| .kcalloc count size =>
    KernelHeap.kcalloc spaceSource count size
| .krealloc ptr size =>
    KernelHeap.krealloc spaceSource ptr size
| .kfree ptr => do
    KernelHeap.kfree ptr
    return 0

/- The call got its pointer from a successful `kmalloc`. -/
def HeapCall.allocates
    (ptr : Nat) : HeapCall → Bool
| .kmalloc _ => ptr ≠ 0
| .kcalloc _ _ => ptr ≠ 0
| .krealloc old _ => ptr ≠ 0 && ptr ≠ old
| .kfree _ => false

/- One event of a run. -/
inductive SpaceStep :
    System → System → Prop
/- A page that is taken for data. -/
| allocPage
    (system : System) :
    SpaceStep system
      (system.withSpaces
        (system.spaces.withPaging
          (pmmAllocPage system.spaces.paging).2))
/- Creation fails when there is no page for the root. -/
| create
    (system : System)
    (hWarmed : system.warmed = true) :
    SpaceStep system
      (let result := vmmCreateAddressSpace system.spaces
       { system.withSpaces result.2 with
         created :=
           if result.1 = 0 then system.created
           else result.1 :: system.created })
| activate
    (system : System)
    (space : Nat)
    (hSpace : space = 0 ∨ space ∈ system.created) :
    SpaceStep system
      (system.withSpaces
        (vmmActivateAddressSpace space system.spaces))
| mapUser
    (system : System)
    (space target physical flags : Nat)
    (hSpace : space ∈ system.created)
    (hUser : levelIndex target 0 < 256)
    (hWord : physical < 2 ^ 64 ∧ flags < 2 ^ 64) :
    SpaceStep system
      (system.withSpaces
        (system.spaces.withPaging
          (vmmMapPageInSpace space target physical flags
            system.spaces.paging).2))
| heap
    (system : System)
    (call : HeapCall)
    (ptr : Nat)
    (heap : Heap Spaces)
    (hReturns : Returns call.run system.heap ptr heap) :
    SpaceStep system
      { system with
        heap := heap
        warmed := system.warmed || call.allocates ptr }

/- Events one after the other. -/
inductive SpaceRun :
    System → System → Prop
| refl
    (system : System) :
    SpaceRun system system
| step
    {first middle last : System}
    (hRun : SpaceRun first middle)
    (hStep : SpaceStep middle last) :
    SpaceRun first last

/-
  The system at start: an empty heap, no space besides the
  kernel's, whose tables form a tree.
-/
structure System.Initial
    (system : System) : Prop where
  heap :
    ∃ memory, system.heap = kheapInit memory system.spaces
  created : system.created = []
  warmed : system.warmed = false
  active : system.spaces.pml4 = system.spaces.kernelCr3
  tree :
    PageTree system.spaces.kernelCr3 system.spaces.paging

end Vmm

end Whirliscope
