import Whirliscope.Memory.PageTable

/-
  Mapping and unmapping pages.

  Tables are created on the way down, in frames that the
  allocator hands out. The free list of the allocator is a
  list of frames.

  Key definitions include:
    * `Paging`, `pmmAllocPage`
    * `ensureNextTable`, `walkToLevelCreate`
    * `mapAtLevelInRoot`, `vmmUnmapPage`
    * `PageCall.run`, `runPageCalls`
-/

------------------------------------------------------------
-- Table Memory and the Page Allocator
------------------------------------------------------------

namespace Whirliscope

namespace Vmm

open ByteMemory

def vmmWritable : Nat := 2 ^ 1
def vmmUser : Nat := 2 ^ 2
def pteTableFlags : Nat := vmmPresent ||| vmmWritable

/- `VMM_PAGE_SIZE`. -/
def pageSize : Nat := 4096

def vmmHuge2mSize : Nat := 2 * 1024 * 1024
def vmmHuge1gSize : Nat := 1024 * 1024 * 1024

/- Table memory and the free list of the page allocator. -/
structure Paging where
  tables : Bytes
  free : List Nat

/- `pmm_alloc_page`: a frame, or 0 when there is none. -/
def pmmAllocPage
    (s : Paging) : Nat × Paging :=
  match s.free with
  | [] => (0, s)
  | page :: rest => (page, { s with free := rest })

/- `pmm_free_page`. -/
def pmmFreePage
    (page : Nat)
    (s : Paging) : Paging :=
  if page = 0 ∨ page % pageSize ≠ 0 then s
  else { s with free := page :: s.free }

/- Store a table entry. -/
def storeEntry
    (tables : Bytes)
    (entry value : Nat) : Bytes :=
  putLE tables entry 8 value

def Paging.store
    (s : Paging)
    (entry value : Nat) : Paging :=
  { s with tables := storeEntry s.tables entry value }

/- `memset` of a whole frame. -/
def Paging.clear
    (s : Paging)
    (page : Nat) : Paging :=
  { s with tables := write s.tables page pageSize zeros }

end Vmm

end Whirliscope

------------------------------------------------------------
-- Creating Tables
------------------------------------------------------------

namespace Whirliscope

namespace Vmm

open ByteMemory

/- `ensure_next_table`. -/
def ensureNextTable
    (table index shift flags : Nat)
    (s : Paging) : Option Nat × Paging :=
  let entry := loadEntry s.tables (table + 8 * index)
  if entry &&& vmmPresent ≠ 0 then
    if isHugeEntry entry shift then (none, s)
    else (some (entryToTable entry), s)
  else
    let (page, s) := pmmAllocPage s
    if page = 0 then
      (none, s)
    else
      (some page,
        (s.clear page).store (table + 8 * index)
          (page ||| pteTableFlags ||| (flags &&& vmmUser)))

/- The loop of `walk_to_level_in_root`, with creation. -/
def walkLevelsCreate
    (virtualAddress flags targetShift : Nat) :
    List Nat → Nat → Paging → Option VmmMapping × Paging
| [], _, s => (none, s)
| shift :: shifts, table, s =>
    let index := tableIndex virtualAddress shift
    let entry := loadEntry s.tables (table + 8 * index)
    if shift = targetShift then
      (some ⟨table + 8 * index, shift⟩, s)
    else if entry &&& vmmPresent = 0 then
      match ensureNextTable table index shift flags s with
      | (none, s) => (none, s)
      | (some next, s) =>
          walkLevelsCreate virtualAddress flags targetShift
            shifts next s
    else if isHugeEntry entry shift then
      (none, s)
    else
      walkLevelsCreate virtualAddress flags targetShift
        shifts (entryToTable entry) s

/- `walk_to_level_in_root` with `create` true. -/
def walkToLevelCreate
    (root virtualAddress flags targetShift : Nat)
    (s : Paging) : Option VmmMapping × Paging :=
  walkLevelsCreate virtualAddress flags targetShift
    [39, 30, 21, 12] root s

end Vmm

end Whirliscope

------------------------------------------------------------
-- Mapping and Unmapping
------------------------------------------------------------

namespace Whirliscope

namespace Vmm

open ByteMemory

/- `addresses_are_aligned`. -/
def addressesAreAligned
    (virtualAddress physicalAddress size : Nat) : Bool :=
  virtualAddress &&& (size - 1) == 0 &&
    physicalAddress &&& (size - 1) == 0

/- The entry that a mapping stores. -/
def leafEntry
    (physicalAddress flags targetShift : Nat) : Nat :=
  physicalAddress |||
    (flags ||| vmmPresent |||
      (if targetShift ≠ 12 then vmmHuge else 0))

/- `map_at_level_in_root`. -/
def mapAtLevelInRoot
    (root virtualAddress physicalAddress size targetShift
      flags : Nat)
    (s : Paging) : Bool × Paging :=
  if !addressesAreAligned virtualAddress physicalAddress size
  then
    (false, s)
  else
    match walkToLevelCreate root virtualAddress flags
        targetShift s with
    | (none, s) => (false, s)
    | (some mapping, s) =>
        if mapping.shift ≠ targetShift ∨
            loadEntry s.tables mapping.entry &&& vmmPresent ≠ 0
        then
          (false, s)
        else
          (true,
            s.store mapping.entry
              (leafEntry physicalAddress flags targetShift))

/- `vmm_map_page_in_space`. -/
def vmmMapPageInSpace
    (pml4Phys virtualAddress physicalAddress flags : Nat)
    (s : Paging) : Bool × Paging :=
  if pml4Phys = 0 then
    (false, s)
  else
    mapAtLevelInRoot pml4Phys virtualAddress physicalAddress
      pageSize 12 flags s

/- `vmm_map_page`, with the active root. -/
def vmmMapPage
    (root virtualAddress physicalAddress flags : Nat)
    (s : Paging) : Bool × Paging :=
  mapAtLevelInRoot root virtualAddress physicalAddress
    pageSize 12 flags s

/- `vmm_map_huge_2m`, with the active root. -/
def vmmMapHuge2m
    (root virtualAddress physicalAddress flags : Nat)
    (s : Paging) : Bool × Paging :=
  mapAtLevelInRoot root virtualAddress physicalAddress
    vmmHuge2mSize 21 flags s

/- `vmm_map_huge_1g`, with the active root. -/
def vmmMapHuge1g
    (root virtualAddress physicalAddress flags : Nat)
    (s : Paging) : Bool × Paging :=
  mapAtLevelInRoot root virtualAddress physicalAddress
    vmmHuge1gSize 30 flags s

/- `vmm_unmap_page`, with the active root. -/
def vmmUnmapPage
    (root virtualAddress : Nat)
    (s : Paging) : Bool × Paging :=
  if virtualAddress &&& (pageSize - 1) ≠ 0 then
    (false, s)
  else
    match walkToExistingMapping s.tables root
        virtualAddress with
    | none => (false, s)
    | some mapping =>
        if mapping.shift ≠ 12 ∧
            virtualAddress &&& (2 ^ mapping.shift - 1) ≠ 0
        then
          (false, s)
        else
          (true, s.store mapping.entry 0)

end Vmm

end Whirliscope

------------------------------------------------------------
-- Sequences of Calls
------------------------------------------------------------

namespace Whirliscope

namespace Vmm

open ByteMemory

/- The calls that change the translation of a space. -/
inductive PageCall where
| mapPageInSpace
    (pml4Phys virtualAddress physicalAddress flags : Nat)
| mapPage (virtualAddress physicalAddress flags : Nat)
| mapHuge2m (virtualAddress physicalAddress flags : Nat)
| mapHuge1g (virtualAddress physicalAddress flags : Nat)
| unmapPage (virtualAddress : Nat)
deriving DecidableEq, Repr

/- Run a call while `root` is the active root. -/
def PageCall.run
    (root : Nat) :
    PageCall → Paging → Bool × Paging
| .mapPageInSpace pml4Phys virtualAddress physicalAddress
    flags =>
    vmmMapPageInSpace pml4Phys virtualAddress
      physicalAddress flags
| .mapPage virtualAddress physicalAddress flags =>
    vmmMapPage root virtualAddress physicalAddress flags
| .mapHuge2m virtualAddress physicalAddress flags =>
    vmmMapHuge2m root virtualAddress physicalAddress flags
| .mapHuge1g virtualAddress physicalAddress flags =>
    vmmMapHuge1g root virtualAddress physicalAddress flags
| .unmapPage virtualAddress =>
    vmmUnmapPage root virtualAddress

/- Run a sequence of calls; the replies come in order. -/
def runPageCalls
    (root : Nat) :
    List PageCall → Paging → List Bool × Paging
| [], s => ([], s)
| call :: calls, s =>
    let (reply, s) := call.run root s
    let (replies, s) := runPageCalls root calls s
    (reply :: replies, s)

end Vmm

end Whirliscope
