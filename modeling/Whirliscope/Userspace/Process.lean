import Whirliscope.Library.FaultProgram
import Whirliscope.Userspace.Elf

/-
  Loading the segments of a validated ELF image.

  The page allocator and the page tables are a parameter: a
  `PageManager` answers each request in any way and keeps a
  state of its own. Every read of the image and every mapping
  that is asked for is recorded.

  Key definitions include:
    * `PageManager`, `Request`
    * `loadSegmentPage`, `loadUserSegment`
    * `loadUserImageSegments`
-/

------------------------------------------------------------
-- Requests of the Loader
------------------------------------------------------------

namespace Whirliscope

namespace Elf

open ByteMemory FaultProgram

/- Physical memory and page tables, over a state `σ`. -/
structure PageManager (σ : Type) where
  pmmAllocPage : σ → Nat × σ
  storePhys : Nat → Nat → Bytes → σ → σ
  vmmMapPageInSpace :
    Nat → Nat → Nat → Nat → σ → Bool × σ

/- What the loader asks for. -/
inductive Request where
| read (offset count : Nat)
| map (vaddr : Nat)
deriving DecidableEq, Repr

structure Loading (σ : Type) where
  machine : σ
  requests : List Request

/- A loop that passed every 64-bit counter. -/
inductive LoadFault where
| noReturn
deriving DecidableEq, Repr

abbrev LoadM (σ α : Type) :=
  Program (Loading σ) LoadFault α

section Requests

variable {σ : Type}

def pmmAllocPage
    (manager : PageManager σ) : LoadM σ Nat := do
  let state ← get
  let result := manager.pmmAllocPage state.machine
  set { state with machine := result.2 }
  return result.1

/- `memset` and `memcpy` into a physical page. -/
def storePhys
    (manager : PageManager σ)
    (address count : Nat)
    (source : Bytes) : LoadM σ Unit :=
  modify fun state =>
    { state with
      machine :=
        manager.storePhys address count source
          state.machine }

/- Read `count` bytes of the image. -/
def readImage
    (image : Bytes)
    (offset count : Nat) : LoadM σ Bytes := do
  modify fun state =>
    { state with
      requests :=
        state.requests ++ [Request.read offset count] }
  return fun i => image (wrap 64 (offset + i))

def vmmMapPageInSpace
    (manager : PageManager σ)
    (pml4Phys vaddr phys flags : Nat) : LoadM σ Bool := do
  let state ← get
  let result :=
    manager.vmmMapPageInSpace pml4Phys vaddr phys flags
      state.machine
  set
    { state with
      machine := result.2
      requests := state.requests ++ [Request.map vaddr] }
  return result.1

end Requests

end Elf

end Whirliscope

------------------------------------------------------------
-- Loading Segments
------------------------------------------------------------

namespace Whirliscope

namespace Elf

open ByteMemory FaultProgram

def vmmWritable : Nat := 2 ^ 1
def vmmUser : Nat := 2 ^ 2
def vmmNoexec : Nat := 2 ^ 63

/- `segment_map_flags`. -/
def segmentMapFlags
    (phdr : Elf64Phdr) : Nat :=
  vmmUser |||
    (if phdr.pFlags &&& 2 ≠ 0 then vmmWritable else 0) |||
    (if phdr.pFlags &&& 1 = 0 then vmmNoexec else 0)

/- The part of the file that belongs to a page. -/
def copyStart
    (phdr : Elf64Phdr)
    (pageVaddr : Nat) : Nat :=
  if pageVaddr > phdr.pVaddr then pageVaddr else phdr.pVaddr

def copyEnd
    (phdr : Elf64Phdr)
    (pageVaddr : Nat) : Nat :=
  let fileEnd := wrap 64 (phdr.pVaddr + phdr.pFilesz)
  let pageEnd := wrap 64 (pageVaddr + vmmPageSize)
  if pageEnd < fileEnd then pageEnd else fileEnd

def fileOffset
    (phdr : Elf64Phdr)
    (pageVaddr : Nat) : Nat :=
  wrapSub 64
    (wrap 64 (phdr.pOffset + copyStart phdr pageVaddr))
    phdr.pVaddr

variable {σ : Type}

/- `load_segment_page`. -/
def loadSegmentPage
    (manager : PageManager σ)
    (pml4Phys : Nat)
    (image : Bytes)
    (phdr : Elf64Phdr)
    (pageVaddr : Nat) : LoadM σ Bool := do
  let pagePhys ← pmmAllocPage manager
  if pagePhys = 0 then return false
  storePhys manager pagePhys vmmPageSize zeros
  let first := copyStart phdr pageVaddr
  let last := copyEnd phdr pageVaddr
  if first < last then
    let bytes ←
      readImage image (fileOffset phdr pageVaddr)
        (last - first)
    storePhys manager
      (pagePhys + wrapSub 64 first pageVaddr)
      (last - first) bytes
  vmmMapPageInSpace manager pml4Phys pageVaddr pagePhys
    (segmentMapFlags phdr)

/- One pass of the page loop. -/
def loadPageVisit
    (manager : PageManager σ)
    (pml4Phys : Nat)
    (image : Bytes)
    (phdr : Elf64Phdr)
    (endPage pageVaddr : Nat) : LoadM σ (Nat ⊕ Bool) := do
  if pageVaddr < endPage then
    if !(← loadSegmentPage manager pml4Phys image phdr
        pageVaddr) then
      return .inr false
    return .inl (wrap 64 (pageVaddr + vmmPageSize))
  else
    return .inr true

/- The pages between which a segment is loaded. -/
def firstPage
    (phdr : Elf64Phdr) : Nat :=
  alignDown 64 phdr.pVaddr vmmPageSize

def endPage
    (phdr : Elf64Phdr) : Nat :=
  alignUp 64 (wrap 64 (phdr.pVaddr + phdr.pMemsz))
    vmmPageSize

/- `load_user_segment`. -/
def loadUserSegment
    (manager : PageManager σ)
    (pml4Phys : Nat)
    (image : Bytes)
    (phdr : Elf64Phdr) : LoadM σ Bool := do
  if phdr.pType ≠ ptLoad then return true
  let segmentEnd := wrap 64 (phdr.pVaddr + phdr.pMemsz)
  if segmentEnd < phdr.pVaddr then return false
  loop (throw .noReturn)
    (loadPageVisit manager pml4Phys image phdr
      (endPage phdr))
    (2 ^ 53) (firstPage phdr)

/- One pass of the header loop. -/
def loadHeaderVisit
    (manager : PageManager σ)
    (pml4Phys : Nat)
    (image : Bytes)
    (elf : Elf64Image)
    (i : Nat) : LoadM σ (Nat ⊕ Bool) := do
  if i < elf.phnum then
    let base := phdrOffset elf.phoff elf.phentsize i
    let _ ← readImage image base phdrSize
    if !(← loadUserSegment manager pml4Phys image
        (elf64Phdr image base)) then
      return .inr false
    return .inl (wrap 16 (i + 1))
  else
    return .inr true

/- `load_user_image_segments`. -/
def loadUserImageSegments
    (manager : PageManager σ)
    (pml4Phys : Nat)
    (image : Bytes)
    (elf : Elf64Image) : LoadM σ Bool :=
  loop (throw .noReturn)
    (loadHeaderVisit manager pml4Phys image elf)
    (2 ^ 17) 0

end Elf

end Whirliscope
