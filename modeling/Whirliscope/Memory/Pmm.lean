import Mathlib.Data.Set.Card
import Whirliscope.Library.FreeList
import Whirliscope.Memory.PageMapping

/-
  The physical memory manager.

  The pages that the memory map offers are threaded into a
  list through their own first words. A run hands pages out
  and takes them back, and the owners of pages write to them
  in between.

  Key definitions include:
    * `PmmState`, `pmmInit`, `pmmAllocPage`, `pmmFreePage`
    * `WholePage`, `Run`
    * `Serves`, `Rounds`

  Main theorems:
    * `Lists.alloc_refines`, `Lists.free_refines`
    * `run_serves`
-/

------------------------------------------------------------
-- Memory Map and Free List
------------------------------------------------------------

namespace Whirliscope

namespace Pmm

open ByteMemory

/- `struct limine_memmap_entry`. -/
structure MemmapEntry where
  base : Nat
  length : Nat
  type : Nat
  base_lt : base < 2 ^ 64
  length_lt : length < 2 ^ 64

/- `LIMINE_MEMMAP_USABLE`. -/
def limineMemmapUsable : Nat := 0

/- `PMM_PAGE_SIZE`. -/
def pmmPageSize : Nat := 4096

/-
  The static variables of the manager, and the memory that it
  sees through the direct map.
-/
structure PmmState where
  memory : Bytes
  freeList : Nat
  hhdmBase : Nat
  totalPages : Nat
  freePages : Nat
  initialized : Bool

/- The address of a page in the direct map. -/
def physToVirt
    (hhdmBase physicalAddress : Nat) : Nat :=
  wrap 64 (hhdmBase + physicalAddress)

/- `pmm_phys_to_virt`. -/
def pmmPhysToVirt
    (physicalAddress : Nat)
    (s : PmmState) : Nat :=
  physToVirt s.hhdmBase physicalAddress

/- `pmm_virt_to_phys`. -/
def pmmVirtToPhys
    (virtualAddress : Nat)
    (s : PmmState) : Nat :=
  wrapSub 64 virtualAddress s.hhdmBase

/- The `next` field of `struct free_page`. -/
def nextPage
    (memory : Bytes)
    (page : Nat) : Nat :=
  getLE memory page 8

/- `push_page`. -/
def pushPage
    (physicalAddress : Nat)
    (s : PmmState) : PmmState :=
  let page := pmmPhysToVirt physicalAddress s
  { s with
    memory := putLE s.memory page 8 s.freeList
    freeList := page
    freePages := wrap 64 (s.freePages + 1) }

/- The body of the inner loop of `pmm_init`. -/
def addPage
    (page : Nat)
    (s : PmmState) : PmmState :=
  if page = 0 then
    s
  else
    { pushPage page s with
      totalPages := wrap 64 (s.totalPages + 1) }

/-
  The inner loop of `pmm_init`. The bound is a rounded word,
  so the counter does not wrap around before it.
-/
def addPages
    (page last : Nat)
    (s : PmmState) : PmmState :=
  if page < last then
    addPages (page + pmmPageSize) last (addPage page s)
  else
    s
termination_by last - page
decreasing_by
  simp only [pmmPageSize]
  omega

/- The body of the loop over the entries in `pmm_init`. -/
def addEntry
    (s : PmmState)
    (entry : MemmapEntry) : PmmState :=
  if entry.type ≠ limineMemmapUsable then
    s
  else
    addPages (alignUp 64 entry.base pmmPageSize)
      (alignDown 64 (wrap 64 (entry.base + entry.length))
        pmmPageSize)
      s

/- `pmm_init`. -/
def pmmInit
    (memmap : Option (List MemmapEntry))
    (hhdm : Option Nat)
    (s : PmmState) : PmmState :=
  let s :=
    { s with
      freeList := 0
      hhdmBase := 0
      totalPages := 0
      freePages := 0
      initialized := false }
  match memmap, hhdm with
  | some entries, some offset =>
      { entries.foldl addEntry { s with hhdmBase := offset }
        with initialized := true }
  | _, _ => s

/- `pmm_alloc_page`. -/
def pmmAllocPage
    (s : PmmState) : Nat × PmmState :=
  if s.initialized = false ∨ s.freeList = 0 then
    (0, s)
  else
    let page := s.freeList
    let s :=
      { s with
        freeList := nextPage s.memory page
        freePages := wrapSub 64 s.freePages 1 }
    (pmmVirtToPhys page s, s)

/- `pmm_free_page`. -/
def pmmFreePage
    (physicalAddress : Nat)
    (s : PmmState) : PmmState :=
  if s.initialized = false ∨ physicalAddress = 0 ∨
      physicalAddress &&& (pmmPageSize - 1) ≠ 0 then
    s
  else
    pushPage physicalAddress s

/- `struct pmm_stats`. -/
structure PmmStats where
  totalPages : Nat
  freePages : Nat
  usedPages : Nat
  totalBytes : Nat
  freeBytes : Nat
  usedBytes : Nat

/- `pmm_get_stats`. -/
def pmmGetStats
    (s : PmmState) : PmmStats :=
  let used := wrapSub 64 s.totalPages s.freePages
  { totalPages := s.totalPages
    freePages := s.freePages
    usedPages := used
    totalBytes := wrap 64 (s.totalPages * pmmPageSize)
    freeBytes := wrap 64 (s.freePages * pmmPageSize)
    usedBytes := wrap 64 (used * pmmPageSize) }

end Pmm

end Whirliscope

------------------------------------------------------------
-- Runs
------------------------------------------------------------

namespace Whirliscope

namespace Pmm

open ByteMemory

def MemmapEntry.Usable
    (entry : MemmapEntry) : Prop :=
  entry.type = limineMemmapUsable

/- The addresses of an entry. -/
def MemmapEntry.Contains
    (entry : MemmapEntry)
    (address : Nat) : Prop :=
  entry.base ≤ address ∧ address < entry.base + entry.length

/- A page, other than the first, inside one usable entry. -/
def WholePage
    (entries : List MemmapEntry)
    (page : Nat) : Prop :=
  page ≠ 0 ∧ page % pmmPageSize = 0 ∧
    ∃ entry ∈ entries,
      entry.Usable ∧ entry.base ≤ page ∧
        page + pmmPageSize ≤ entry.base + entry.length

/- No address lies in two usable entries. -/
def EntriesDisjoint
    (entries : List MemmapEntry) : Prop :=
  entries.Pairwise fun left right =>
    left.Usable → right.Usable →
      ∀ address, left.Contains address →
        ¬ right.Contains address

/- Usable entries end at 2^64 at the latest. -/
def EntriesEnd
    (entries : List MemmapEntry) : Prop :=
  ∀ entry ∈ entries, entry.Usable →
    entry.base + entry.length ≤ 2 ^ 64

/-
  The manager starts on a memory map and then serves calls.
  Pages are freed by their owners, and between the calls the
  pages of the map that are not handed out keep their bytes.
-/
inductive Run
    (entries : List MemmapEntry)
    (hhdm : Nat) :
    PmmState → Finset Nat → Prop
| init
    (s : PmmState) :
    Run entries hhdm (pmmInit (some entries) (some hhdm) s) ∅
| alloc
    {s : PmmState}
    {outstanding : Finset Nat}
    (hRun : Run entries hhdm s outstanding)
    (hPage : (pmmAllocPage s).1 ≠ 0) :
    Run entries hhdm (pmmAllocPage s).2
      (insert (pmmAllocPage s).1 outstanding)
| refuse
    {s : PmmState}
    {outstanding : Finset Nat}
    (hRun : Run entries hhdm s outstanding)
    (hPage : (pmmAllocPage s).1 = 0) :
    Run entries hhdm (pmmAllocPage s).2 outstanding
| free
    {s : PmmState}
    {outstanding : Finset Nat}
    {page : Nat}
    (hRun : Run entries hhdm s outstanding)
    (hHeld : page ∈ outstanding) :
    Run entries hhdm (pmmFreePage page s)
      (outstanding.erase page)
| owners
    {s : PmmState}
    {outstanding : Finset Nat}
    {memory : Bytes}
    (hRun : Run entries hhdm s outstanding)
    (hKept :
      ∀ page, WholePage entries page → page ∉ outstanding →
        ∀ offset, offset < pmmPageSize →
          memory (physToVirt hhdm page + offset) =
            s.memory (physToVirt hhdm page + offset)) :
    Run entries hhdm { s with memory := memory } outstanding

/- What the manager promises in a state of a run. -/
structure Serves
    (entries : List MemmapEntry)
    (s : PmmState)
    (outstanding : Finset Nat) : Prop where
  fresh :
    ∀ page, (pmmAllocPage s).1 = page → page ≠ 0 →
      page % pmmPageSize = 0 ∧
        (∃ entry ∈ entries,
          entry.Usable ∧ entry.base ≤ page ∧
            page + pmmPageSize ≤
              entry.base + entry.length) ∧
        page ∉ outstanding
  exhausted :
    (pmmAllocPage s).1 = 0 ↔
      ∀ page, WholePage entries page → page ∈ outstanding
  used : (pmmGetStats s).usedPages = outstanding.card
  total :
    (pmmGetStats s).totalPages =
      { page | WholePage entries page }.ncard

/-
  The bounds of an entry are rounded inward: its base can be
  rounded up and its end is a word, or it lies in the last
  page up to its end.
-/
def MemmapEntry.Rounds
    (entry : MemmapEntry) : Prop :=
  (entry.base ≤ 2 ^ 64 - pmmPageSize ∧
      entry.base + entry.length < 2 ^ 64) ∨
    (2 ^ 64 - pmmPageSize < entry.base ∧
      entry.base + entry.length = 2 ^ 64)

/-
  Every usable entry is rounded inward, and no page that is
  handed out has the null address in the direct map.
-/
def Rounds
    (entries : List MemmapEntry)
    (hhdm : Nat) : Prop :=
  (∀ entry ∈ entries, entry.Usable → entry.Rounds) ∧
    ∀ page, WholePage entries page →
      physToVirt hhdm page ≠ 0

end Pmm

end Whirliscope

------------------------------------------------------------
-- The Free List
------------------------------------------------------------

namespace Whirliscope

namespace Pmm

open ByteMemory FreeList

theorem physToVirt_ne
    (hhdm : Nat)
    {left right : Nat}
    (hLeft : left < 2 ^ 64)
    (hRight : right < 2 ^ 64)
    (hNe : left ≠ right) :
    physToVirt hhdm left ≠ physToVirt hhdm right := by
  simp only [physToVirt, wrap]
  omega

/- Two pages have their bytes apart in the direct map. -/
theorem physToVirt_apart
    (hhdm : Nat)
    {left right : Nat}
    (hLeft : left < 2 ^ 64 ∧ left % pmmPageSize = 0)
    (hRight : right < 2 ^ 64 ∧ right % pmmPageSize = 0)
    (hNe : left ≠ right) :
    physToVirt hhdm left + pmmPageSize ≤
        physToVirt hhdm right ∨
      physToVirt hhdm right + pmmPageSize ≤
        physToVirt hhdm left := by
  have hVirtual :=
    physToVirt_ne hhdm hLeft.1 hRight.1 hNe
  simp only [physToVirt, wrap, pmmPageSize] at *
  omega

theorem wrapSub_physToVirt
    (hhdm : Nat)
    {page : Nat}
    (hPage : page < 2 ^ 64) :
    wrapSub 64 (physToVirt hhdm page) hhdm = page := by
  simp only [wrapSub, physToVirt, wrap]
  omega

/- There are fewer pages than words. -/
theorem card_pages_le
    {pages : Finset Nat}
    (hPages :
      ∀ page ∈ pages,
        page % pmmPageSize = 0 ∧ page < 2 ^ 64) :
    pages.card ≤ 2 ^ 52 := by
  have hSubset :
      pages ⊆
        (Finset.range (2 ^ 52)).image (pmmPageSize * ·) := by
    intro page hPage
    have hFacts := hPages page hPage
    refine Finset.mem_image.mpr
      ⟨page / pmmPageSize, ?_,
        Nat.mul_div_cancel'
          (Nat.dvd_of_mod_eq_zero hFacts.1)⟩
    rw [Finset.mem_range]
    simp only [pmmPageSize]
    omega
  calc
    pages.card
        ≤ ((Finset.range (2 ^ 52)).image
            (pmmPageSize * ·)).card :=
      Finset.card_le_card hSubset
    _ ≤ (Finset.range (2 ^ 52)).card := Finset.card_image_le
    _ = 2 ^ 52 := Finset.card_range _

/- The list of the manager holds these pages. -/
structure Lists
    (hhdm : Nat)
    (s : PmmState)
    (free : List Nat) : Prop where
  hhdmBase : s.hhdmBase = hhdm
  threaded :
    Threaded (nextPage s.memory) 0 s.freeList
      (free.map (physToVirt hhdm))
  nodup : free.Nodup
  page :
    ∀ page ∈ free,
      page ≠ 0 ∧ page % pmmPageSize = 0 ∧ page < 2 ^ 64
  count : s.freePages = free.length

theorem Lists.length_le
    {hhdm : Nat}
    {s : PmmState}
    {free : List Nat}
    (hLists : Lists hhdm s free) :
    free.length ≤ 2 ^ 52 := by
  rw [← List.toFinset_card_of_nodup hLists.nodup]
  exact card_pages_le fun page hPage =>
    (hLists.page page (List.mem_toFinset.mp hPage)).2

section Steps

variable {hhdm page : Nat} {s : PmmState} {free : List Nat}

theorem Lists.freeList_lt
    (hLists : Lists hhdm s free) :
    s.freeList < 2 ^ 64 := by
  have hThreaded := hLists.threaded
  cases free with
  | nil =>
      rw [show s.freeList = 0 from hThreaded]
      exact Nat.two_pow_pos 64
  | cons first rest =>
      rw [hThreaded.1]
      exact wrap_lt 64 _

/- The bytes of the listed pages are all that matters. -/
theorem Lists.congr
    (hLists : Lists hhdm s free)
    {memory : Bytes}
    (hSame :
      ∀ page ∈ free, ∀ offset, offset < pmmPageSize →
        memory (physToVirt hhdm page + offset) =
          s.memory (physToVirt hhdm page + offset)) :
    Lists hhdm { s with memory := memory } free where
  hhdmBase := hLists.hhdmBase
  threaded := by
    apply hLists.threaded.congr
    intro cell hCell
    rcases List.mem_map.mp hCell with ⟨page, hPage, rfl⟩
    apply getLE_congr
    intro index hIndex
    exact hSame page hPage index
      (Nat.lt_trans hIndex (by decide))
  nodup := hLists.nodup
  page := hLists.page
  count := hLists.count

/- A page outside the list goes to its front. -/
theorem Lists.push
    (hLists : Lists hhdm s free)
    (hPage :
      page ≠ 0 ∧ page % pmmPageSize = 0 ∧ page < 2 ^ 64)
    (hFresh : page ∉ free)
    (hNull : physToVirt hhdm page ≠ 0) :
    Lists hhdm (pushPage page s) (page :: free) where
  hhdmBase := hLists.hhdmBase
  threaded := by
    simp only [pushPage, pmmPhysToVirt, hLists.hhdmBase,
      List.map_cons]
    apply hLists.threaded.push hNull
    · rw [nextPage, getLE_putLE_same]
      exact Nat.mod_eq_of_lt hLists.freeList_lt
    · intro cell hCell
      rcases List.mem_map.mp hCell with ⟨other, hOther, rfl⟩
      have hNe : other ≠ page := by
        rintro rfl
        exact hFresh hOther
      have hApart :=
        physToVirt_apart hhdm (hLists.page other hOther).2.symm
          hPage.2.symm hNe
      apply getLE_putLE_of_disjoint
      simp only [pmmPageSize] at hApart
      omega
  nodup := List.nodup_cons.mpr ⟨hFresh, hLists.nodup⟩
  page := List.forall_mem_cons.mpr ⟨hPage, hLists.page⟩
  count := by
    have hLength := hLists.length_le
    simp only [pushPage, hLists.count, List.length_cons]
    exact wrap_of_lt (by omega)

theorem pmmAllocPage_nil
    (hLists : Lists hhdm s []) :
    pmmAllocPage s = (0, s) :=
  if_pos (.inr hLists.threaded)

/- The first page of the list is handed out. -/
theorem Lists.pop
    (hLists : Lists hhdm s (page :: free))
    (hStarted : s.initialized = true) :
    (pmmAllocPage s).1 = page ∧
      Lists hhdm (pmmAllocPage s).2 free := by
  have hFacts := hLists.page page List.mem_cons_self
  have hNull : s.freeList ≠ 0 := fun hNull => by
    cases hLists.threaded.head_eq_null_iff.mp hNull
  have hLength := hLists.length_le
  have hPop := hLists.threaded.pop
  have hCount := hLists.count
  rw [List.length_cons] at hCount hLength
  rw [pmmAllocPage, if_neg (by simp [hStarted, hNull])]
  constructor
  · simp only [pmmVirtToPhys, hLists.hhdmBase, hPop.1]
    exact wrapSub_physToVirt hhdm hFacts.2.2
  · exact
      { hhdmBase := hLists.hhdmBase
        threaded := hPop.2
        nodup := (List.nodup_cons.mp hLists.nodup).2
        page := (List.forall_mem_cons.mp hLists.page).2
        count := by
          simp only [hCount]
          rw [wrapSub_of_le (by omega) (by omega)]
          omega }

/-
  On the list of its pages the manager is the allocator that
  the paging calls use.
-/
theorem Lists.alloc_refines
    (hLists : Lists hhdm s free)
    (hStarted : s.initialized = true)
    (tables : Bytes) :
    let paging := Vmm.pmmAllocPage ⟨tables, free⟩
    (pmmAllocPage s).1 = paging.1 ∧
      Lists hhdm (pmmAllocPage s).2 paging.2.free := by
  cases free with
  | nil =>
      rw [pmmAllocPage_nil hLists]
      exact ⟨rfl, hLists⟩
  | cons page free => exact hLists.pop hStarted

theorem Lists.free_refines
    (hLists : Lists hhdm s free)
    (hStarted : s.initialized = true)
    (hPage : page < 2 ^ 64)
    (hFresh : page ∉ free)
    (hNull : physToVirt hhdm page ≠ 0)
    (tables : Bytes) :
    Lists hhdm (pmmFreePage page s)
      (Vmm.pmmFreePage page ⟨tables, free⟩).free := by
  have hMask :
      page &&& (pmmPageSize - 1) = page % pmmPageSize :=
    Nat.and_two_pow_sub_one_eq_mod page 12
  have hEither :
      (s.initialized = false ∨ page = 0 ∨
          page &&& (pmmPageSize - 1) ≠ 0) ↔
        page = 0 ∨ page % Vmm.pageSize ≠ 0 := by
    rw [hMask]
    simp [hStarted, Vmm.pageSize, pmmPageSize]
  rw [pmmFreePage, Vmm.pmmFreePage]
  by_cases hRefuse : page = 0 ∨ page % Vmm.pageSize ≠ 0
  · rw [if_pos hRefuse, if_pos (hEither.mpr hRefuse)]
    exact hLists
  · rw [if_neg hRefuse, if_neg (hEither.not.mpr hRefuse)]
    push Not at hRefuse
    exact hLists.push ⟨hRefuse.1, hRefuse.2, hPage⟩ hFresh
      hNull

end Steps

end Pmm

end Whirliscope

------------------------------------------------------------
-- The Pages of the Map
------------------------------------------------------------

namespace Whirliscope

namespace Pmm

open ByteMemory

/- The pages that an entry offers. -/
def MemmapEntry.Offers
    (entry : MemmapEntry)
    (page : Nat) : Prop :=
  page ≠ 0 ∧ page % pmmPageSize = 0 ∧
    entry.Usable ∧ entry.base ≤ page ∧
      page + pmmPageSize ≤ entry.base + entry.length

theorem wholePage_iff
    (entries : List MemmapEntry)
    (page : Nat) :
    WholePage entries page ↔
      ∃ entry ∈ entries, entry.Offers page := by
  constructor
  · rintro ⟨hNull, hAligned, entry, hEntry, hRest⟩
    exact ⟨entry, hEntry, hNull, hAligned, hRest⟩
  · rintro ⟨entry, hEntry, hNull, hAligned, hRest⟩
    exact ⟨hNull, hAligned, entry, hEntry, hRest⟩

/- The rounded bounds enclose the pages that are offered. -/
theorem MemmapEntry.Rounds.offers_iff
    {entry : MemmapEntry}
    (hRounds : entry.Rounds)
    (hUsable : entry.Usable)
    {page : Nat}
    (hNull : page ≠ 0)
    (hAligned : page % pmmPageSize = 0) :
    entry.Offers page ↔
      alignUp 64 entry.base pmmPageSize ≤ page ∧
        page <
          alignDown 64 (wrap 64 (entry.base + entry.length))
            pmmPageSize := by
  have hSize : pmmPageSize = 2 ^ 12 := rfl
  have hBase := entry.base_lt
  have hLength := entry.length_lt
  rw [alignUp, hSize,
    alignDown_two_pow (by decide) (wrap_lt 64 _),
    alignDown_two_pow (by decide) (wrap_lt 64 _)]
  simp only [Offers, hNull, hAligned, hUsable, ne_eq,
    not_false_eq_true, true_and, wrap]
  simp only [Rounds, pmmPageSize] at *
  omega

theorem Rounds.wholePage_lt
    {entries : List MemmapEntry}
    {hhdm page : Nat}
    (hRounds : Rounds entries hhdm)
    (hWhole : WholePage entries page) :
    page < 2 ^ 64 := by
  rcases hWhole with ⟨-, -, entry, hEntry, hUsable, -, hLast⟩
  have hEntryRounds := hRounds.1 entry hEntry hUsable
  simp only [MemmapEntry.Rounds, pmmPageSize] at *
  omega

theorem MemmapEntry.Offers.contains
    {entry : MemmapEntry}
    {page : Nat}
    (hOffers : entry.Offers page) :
    entry.Contains page := by
  have hLast := hOffers.2.2.2.2
  simp only [pmmPageSize] at hLast
  exact ⟨hOffers.2.2.2.1, by omega⟩

theorem wholePage_cons
    (entry : MemmapEntry)
    (entries : List MemmapEntry)
    (page : Nat) :
    WholePage (entry :: entries) page ↔
      entry.Offers page ∨ WholePage entries page := by
  simp [wholePage_iff]

theorem alignDown_page
    {value : Nat}
    (hValue : value < 2 ^ 64) :
    alignDown 64 value pmmPageSize % pmmPageSize = 0 ∧
      alignDown 64 value pmmPageSize < 2 ^ 64 := by
  have hSize : pmmPageSize = 2 ^ 12 := rfl
  rw [hSize, alignDown_two_pow (by decide) hValue]
  omega

/- The pages of a range that the loop does not skip. -/
def InRange
    (first last page : Nat) : Prop :=
  page ≠ 0 ∧ page % pmmPageSize = 0 ∧ first ≤ page ∧
    page < last

theorem inRange_iff
    {first last : Nat}
    (hMore : first < last)
    (hAligned : first % pmmPageSize = 0)
    (page : Nat) :
    InRange first last page ↔
      (page = first ∧ first ≠ 0) ∨
        InRange (first + pmmPageSize) last page := by
  simp only [InRange, pmmPageSize] at *
  omega

section Init

variable {hhdm page last : Nat} {s : PmmState} {free : List Nat}

/- The state of the manager while it adds pages. -/
structure Adds
    (hhdm : Nat)
    (s : PmmState)
    (free : List Nat) : Prop
    extends Lists hhdm s free where
  total : s.totalPages = free.length

/- A page of the range joins the list. -/
theorem Adds.addPage
    (hAdds : Adds hhdm s free)
    (hPage :
      page ≠ 0 → page % pmmPageSize = 0 ∧ page < 2 ^ 64)
    (hFresh : page ≠ 0 → page ∉ free)
    (hNull : page ≠ 0 → physToVirt hhdm page ≠ 0) :
    Adds hhdm (Pmm.addPage page s)
      (if page = 0 then free else page :: free) := by
  by_cases hZero : page = 0
  · rw [Pmm.addPage, if_pos hZero, if_pos hZero]
    exact hAdds
  · have hPushed :=
      hAdds.toLists.push ⟨hZero, hPage hZero⟩ (hFresh hZero)
        (hNull hZero)
    have hLength := hPushed.length_le
    rw [List.length_cons] at hLength
    rw [Pmm.addPage, if_neg hZero, if_neg hZero]
    exact
      { hhdmBase := hPushed.hhdmBase
        threaded := hPushed.threaded
        nodup := hPushed.nodup
        page := hPushed.page
        count := hPushed.count
        total := by
          simp only [hAdds.total, List.length_cons]
          exact wrap_of_lt (by omega) }

/- The pages between two bounds join the list. -/
theorem Adds.addPages
    (hAdds : Adds hhdm s free)
    (hAligned : page % pmmPageSize = 0)
    (hLast : last < 2 ^ 64)
    (hFresh :
      ∀ other, InRange page last other → other ∉ free)
    (hNull :
      ∀ other, InRange page last other →
        physToVirt hhdm other ≠ 0) :
    ∃ free',
      Adds hhdm (Pmm.addPages page last s) free' ∧
        ∀ other, other ∈ free' ↔
          other ∈ free ∨ InRange page last other := by
  induction page, s using Pmm.addPages.induct last
    generalizing free with
  | case1 page s hMore ih =>
      rw [Pmm.addPages, if_pos hMore]
      have hRange := inRange_iff hMore hAligned
      have hHere : page ≠ 0 → InRange page last page :=
        fun hZero => (hRange page).mpr (.inl ⟨rfl, hZero⟩)
      have hStep :=
        hAdds.addPage
          (fun _ => ⟨hAligned, Nat.lt_trans hMore hLast⟩)
          (fun hZero => hFresh page (hHere hZero))
          (fun hZero => hNull page (hHere hZero))
      have hMem :
          ∀ other,
            (other ∈ if page = 0 then free
              else page :: free) ↔
              (other = page ∧ page ≠ 0) ∨ other ∈ free := by
        intro other
        by_cases hZero : page = 0
        · simp [hZero]
        · simp [hZero]
      have hFresh' :
          ∀ other,
            InRange (page + pmmPageSize) last other →
              other ∉ if page = 0 then free
                else page :: free := by
        intro other hOther hIn
        rcases (hMem other).mp hIn with ⟨rfl, -⟩ | hIn
        · have hLow := hOther.2.2.1
          simp only [pmmPageSize] at hLow
          omega
        · exact hFresh other
            ((hRange other).mpr (.inr hOther)) hIn
      rcases ih hStep
          (by rw [Nat.add_mod_right, hAligned])
          hFresh'
          (fun other hOther =>
            hNull other ((hRange other).mpr (.inr hOther)))
        with ⟨free', hAdds', hFree'⟩
      refine ⟨free', hAdds', fun other => ?_⟩
      rw [hFree' other, hMem other, hRange other]
      tauto
  | case2 page s hDone =>
      rw [Pmm.addPages, if_neg hDone]
      refine ⟨free, hAdds, fun other => ?_⟩
      have hNot : ¬ InRange page last other := fun hOther =>
        hDone (Nat.lt_of_le_of_lt hOther.2.2.1 hOther.2.2.2)
      simp [hNot]

/- The pages that an entry offers join the list. -/
theorem Adds.addEntry
    (hAdds : Adds hhdm s free)
    {entry : MemmapEntry}
    (hRounds : entry.Usable → entry.Rounds)
    (hFresh : ∀ other, entry.Offers other → other ∉ free)
    (hNull :
      ∀ other, entry.Offers other →
        physToVirt hhdm other ≠ 0) :
    ∃ free',
      Adds hhdm (Pmm.addEntry s entry) free' ∧
        ∀ other, other ∈ free' ↔
          other ∈ free ∨ entry.Offers other := by
  by_cases hUsable : entry.Usable
  · have hOffers :
        ∀ other, entry.Offers other ↔
          InRange (alignUp 64 entry.base pmmPageSize)
            (alignDown 64
              (wrap 64 (entry.base + entry.length))
              pmmPageSize)
            other := by
      intro other
      constructor
      · intro hOther
        exact ⟨hOther.1, hOther.2.1,
          ((hRounds hUsable).offers_iff hUsable hOther.1
            hOther.2.1).mp hOther⟩
      · intro hOther
        exact ((hRounds hUsable).offers_iff hUsable hOther.1
          hOther.2.1).mpr hOther.2.2
    have hAdd :
        Pmm.addEntry s entry =
          Pmm.addPages (alignUp 64 entry.base pmmPageSize)
            (alignDown 64
              (wrap 64 (entry.base + entry.length))
              pmmPageSize)
            s :=
      if_neg (not_not.mpr hUsable)
    simp only [hOffers] at hFresh hNull ⊢
    rw [hAdd]
    exact hAdds.addPages
      (alignDown_page (wrap_lt 64 _)).1
      (alignDown_page (wrap_lt 64 _)).2 hFresh hNull
  · have hAdd : Pmm.addEntry s entry = s := if_pos hUsable
    rw [hAdd]
    refine ⟨free, hAdds, fun other => ?_⟩
    simp [MemmapEntry.Offers, hUsable]

/- The pages of the entries join the list. -/
theorem Adds.addEntries
    {entries : List MemmapEntry}
    (hAdds : Adds hhdm s free)
    (hDisjoint : EntriesDisjoint entries)
    (hRounds : Rounds entries hhdm)
    (hFresh :
      ∀ other, WholePage entries other → other ∉ free) :
    ∃ free',
      Adds hhdm (entries.foldl Pmm.addEntry s) free' ∧
        ∀ other, other ∈ free' ↔
          other ∈ free ∨ WholePage entries other := by
  induction entries generalizing s free with
  | nil =>
      refine ⟨free, hAdds, fun other => ?_⟩
      simp [WholePage]
  | cons entry entries ih =>
      have hWhole := fun other =>
        wholePage_cons entry entries other
      rcases List.pairwise_cons.mp hDisjoint with
        ⟨hHead, hTail⟩
      rcases hAdds.addEntry
          (hRounds.1 entry List.mem_cons_self)
          (fun other hOther =>
            hFresh other ((hWhole other).mpr (.inl hOther)))
          (fun other hOther =>
            hRounds.2 other ((hWhole other).mpr (.inl hOther)))
        with ⟨middle, hMiddle, hFirst⟩
      have hRounds' : Rounds entries hhdm :=
        ⟨fun other hOther =>
            hRounds.1 other (List.mem_cons_of_mem _ hOther),
          fun other hOther =>
            hRounds.2 other ((hWhole other).mpr (.inr hOther))⟩
      have hFresh' :
          ∀ other, WholePage entries other →
            other ∉ middle := by
        intro other hOther hIn
        rcases (hFirst other).mp hIn with hIn | hOffers
        · exact hFresh other
            ((hWhole other).mpr (.inr hOther)) hIn
        · -- Two entries would share the page.
          rcases (wholePage_iff entries other).mp hOther with
            ⟨owner, hOwner, hOffers'⟩
          exact hHead owner hOwner hOffers.2.2.1
            hOffers'.2.2.1 other hOffers.contains
            hOffers'.contains
      rcases ih hMiddle hTail hRounds' hFresh' with
        ⟨free', hFree', hRest⟩
      refine ⟨free', hFree', fun other => ?_⟩
      rw [hRest other, hFirst other, hWhole other, or_assoc]

end Init

end Pmm

end Whirliscope

------------------------------------------------------------
-- Runs of the Manager
------------------------------------------------------------

namespace Whirliscope

namespace Pmm

open ByteMemory

/-
  Every page of the map is on the list or handed out, and not
  both.
-/
structure Sound
    (entries : List MemmapEntry)
    (hhdm : Nat)
    (s : PmmState)
    (free : List Nat)
    (outstanding : Finset Nat) : Prop
    extends Lists hhdm s free where
  started : s.initialized = true
  whole :
    ∀ page, WholePage entries page ↔
      page ∈ free ∨ page ∈ outstanding
  apart : ∀ page ∈ free, page ∉ outstanding
  total : s.totalPages = free.length + outstanding.card

section Run

variable {entries : List MemmapEntry} {hhdm page : Nat}
variable {s : PmmState} {free : List Nat}
variable {outstanding : Finset Nat}

/- The manager starts with every page on the list. -/
theorem sound_pmmInit
    (hDisjoint : EntriesDisjoint entries)
    (hRounds : Rounds entries hhdm)
    (s : PmmState) :
    ∃ free,
      Sound entries hhdm
        (pmmInit (some entries) (some hhdm) s) free ∅ := by
  have hEmpty :
      Adds hhdm
        { s with
          freeList := 0
          hhdmBase := hhdm
          totalPages := 0
          freePages := 0
          initialized := false }
        [] :=
    { hhdmBase := rfl
      threaded := rfl
      nodup := List.nodup_nil
      page := by simp
      count := rfl
      total := rfl }
  rcases hEmpty.addEntries hDisjoint hRounds (by simp) with
    ⟨free, hAdds, hMem⟩
  refine ⟨free, ?_⟩
  exact
    { hhdmBase := hAdds.hhdmBase
      threaded := hAdds.threaded
      nodup := hAdds.nodup
      page := hAdds.page
      count := hAdds.count
      started := rfl
      whole := fun page => by simp [hMem page]
      apart := by simp
      total := hAdds.total }

theorem Sound.alloc
    (hSound : Sound entries hhdm s free outstanding)
    (hPage : (pmmAllocPage s).1 ≠ 0) :
    ∃ free',
      Sound entries hhdm (pmmAllocPage s).2 free'
        (insert (pmmAllocPage s).1 outstanding) := by
  cases free with
  | nil =>
      rw [pmmAllocPage_nil hSound.toLists] at hPage
      exact absurd rfl hPage
  | cons first free =>
      rcases hSound.toLists.pop hSound.started with
        ⟨hFirst, hLists⟩
      have hFresh := hSound.apart first List.mem_cons_self
      have hFields :
          (pmmAllocPage s).2.initialized = true ∧
            (pmmAllocPage s).2.totalPages =
              s.totalPages := by
        rw [pmmAllocPage]
        split_ifs
        · exact ⟨hSound.started, rfl⟩
        · exact ⟨hSound.started, rfl⟩
      rw [hFirst]
      refine ⟨free, ?_⟩
      exact
        { toLists := hLists
          started := hFields.1
          whole := by
            intro page
            rw [hSound.whole page, List.mem_cons,
              Finset.mem_insert]
            tauto
          apart := by
            intro page hIn hOut
            rcases Finset.mem_insert.mp hOut with rfl | hOut
            · exact (List.nodup_cons.mp hSound.nodup).1 hIn
            · exact hSound.apart page
                (List.mem_cons_of_mem _ hIn) hOut
          total := by
            rw [hFields.2, hSound.total,
              Finset.card_insert_of_notMem hFresh,
              List.length_cons]
            omega }

theorem Sound.refuse
    (hSound : Sound entries hhdm s free outstanding)
    (hPage : (pmmAllocPage s).1 = 0) :
    free = [] ∧ (pmmAllocPage s).2 = s := by
  cases free with
  | nil =>
      rw [pmmAllocPage_nil hSound.toLists]
      exact ⟨rfl, rfl⟩
  | cons first free =>
      have hFirst :=
        (hSound.toLists.pop hSound.started).1
      have hFacts :=
        hSound.page first List.mem_cons_self
      exact absurd (hFirst ▸ hPage) hFacts.1

theorem Sound.release
    (hSound : Sound entries hhdm s free outstanding)
    (hRounds : Rounds entries hhdm)
    (hHeld : page ∈ outstanding) :
    Sound entries hhdm (pmmFreePage page s) (page :: free)
      (outstanding.erase page) := by
  have hWhole := (hSound.whole page).mpr (.inr hHeld)
  have hLinked := hRounds.2 page hWhole
  have hFresh : page ∉ free := fun hIn =>
    hSound.apart page hIn hHeld
  have hBound := hRounds.wholePage_lt hWhole
  have hMask :
      page &&& (pmmPageSize - 1) = page % pmmPageSize :=
    Nat.and_two_pow_sub_one_eq_mod page 12
  have hPush : pmmFreePage page s = pushPage page s :=
    if_neg (by
      simp [hSound.started, hWhole.1, hMask, hWhole.2.1])
  have hPositive : 0 < outstanding.card :=
    Finset.card_pos.mpr ⟨page, hHeld⟩
  rw [hPush]
  exact
    { toLists :=
        hSound.toLists.push
          ⟨hWhole.1, hWhole.2.1, hBound⟩ hFresh hLinked
      started := hSound.started
      whole := by
        intro other
        rw [hSound.whole other, List.mem_cons,
          Finset.mem_erase]
        by_cases hOther : other = page
        · simp [hOther, hHeld]
        · simp [hOther]
      apart := by
        intro other hIn hOut
        rcases Finset.mem_erase.mp hOut with ⟨hNe, hOut⟩
        rcases List.mem_cons.mp hIn with rfl | hIn
        · exact hNe rfl
        · exact hSound.apart other hIn hOut
      total := by
        rw [Finset.card_erase_of_mem hHeld, List.length_cons]
        have hTotal := hSound.total
        simp only [pushPage]
        omega }

/- Owners write to their pages. -/
theorem Sound.owners
    (hSound : Sound entries hhdm s free outstanding)
    {memory : Bytes}
    (hKept :
      ∀ page, WholePage entries page → page ∉ outstanding →
        ∀ offset, offset < pmmPageSize →
          memory (physToVirt hhdm page + offset) =
            s.memory (physToVirt hhdm page + offset)) :
    Sound entries hhdm { s with memory := memory } free
      outstanding where
  toLists :=
    hSound.toLists.congr fun page hPage =>
      hKept page ((hSound.whole page).mpr (.inl hPage))
        (hSound.apart page hPage)
  started := hSound.started
  whole := hSound.whole
  apart := hSound.apart
  total := hSound.total

/- Every state of a run is sound. -/
theorem Run.sound
    (hDisjoint : EntriesDisjoint entries)
    (hRounds : Rounds entries hhdm)
    (hRun : Run entries hhdm s outstanding) :
    ∃ free, Sound entries hhdm s free outstanding := by
  induction hRun with
  | init s => exact sound_pmmInit hDisjoint hRounds s
  | alloc _ hPage ih =>
      rcases ih with ⟨free, hSound⟩
      exact hSound.alloc hPage
  | refuse _ hPage ih =>
      rcases ih with ⟨free, hSound⟩
      refine ⟨free, ?_⟩
      rw [(hSound.refuse hPage).2]
      exact hSound
  | free _ hHeld ih =>
      rcases ih with ⟨free, hSound⟩
      exact ⟨_, hSound.release hRounds hHeld⟩
  | owners _ hKept ih =>
      rcases ih with ⟨free, hSound⟩
      exact ⟨free, hSound.owners hKept⟩

/- The whole pages are those on the list and those held. -/
theorem Sound.wholePages
    (hSound : Sound entries hhdm s free outstanding) :
    { page | WholePage entries page } =
      ↑(free.toFinset ∪ outstanding) := by
  ext page
  simp [hSound.whole page]

theorem Sound.card_wholePages
    (hSound : Sound entries hhdm s free outstanding) :
    (free.toFinset ∪ outstanding).card = s.totalPages := by
  have hApart : Disjoint free.toFinset outstanding :=
    Finset.disjoint_left.mpr fun page hIn =>
      hSound.apart page (List.mem_toFinset.mp hIn)
  rw [Finset.card_union_of_disjoint hApart,
    List.toFinset_card_of_nodup hSound.nodup, hSound.total]

theorem Sound.totalPages_le
    (hSound : Sound entries hhdm s free outstanding)
    (hRounds : Rounds entries hhdm) :
    s.totalPages ≤ 2 ^ 52 := by
  rw [← hSound.card_wholePages]
  apply card_pages_le
  intro page hPage
  have hWhole : WholePage entries page :=
    hSound.wholePages.symm.subset hPage
  exact ⟨hWhole.2.1, hRounds.wholePage_lt hWhole⟩

/- A sound state serves the next call. -/
theorem Sound.serves
    (hSound : Sound entries hhdm s free outstanding)
    (hRounds : Rounds entries hhdm) :
    Serves entries s outstanding where
  fresh := by
    rintro page rfl hPage
    cases hFree : free with
    | nil =>
        rw [hFree] at hSound
        rw [pmmAllocPage_nil hSound.toLists] at hPage
        exact absurd rfl hPage
    | cons first rest =>
        rw [hFree] at hSound
        have hFirst :=
          (hSound.toLists.pop hSound.started).1
        have hWhole :=
          (hSound.whole first).mpr (.inl List.mem_cons_self)
        rw [hFirst]
        exact ⟨hWhole.2.1, hWhole.2.2,
          hSound.apart first List.mem_cons_self⟩
  exhausted := by
    constructor
    · intro hPage page hWhole
      rw [(hSound.refuse hPage).1] at hSound
      simpa using (hSound.whole page).mp hWhole
    · intro hAll
      cases free with
      | nil => rw [pmmAllocPage_nil hSound.toLists]
      | cons first rest =>
          have hIn : first ∈ first :: rest :=
            List.mem_cons_self
          exact absurd
            (hAll first ((hSound.whole first).mpr (.inl hIn)))
            (hSound.apart first hIn)
  used := by
    have hCount := hSound.count
    have hSum := hSound.total
    have hTotal := hSound.totalPages_le hRounds
    simp only [pmmGetStats]
    rw [wrapSub_of_le (by omega) (by omega)]
    omega
  total := by
    rw [hSound.wholePages, Set.ncard_coe_finset,
      hSound.card_wholePages]
    rfl

/-
  When the bounds of the usable entries are rounded inward,
  every state of every run serves the next call.
-/
theorem run_serves
    (hDisjoint : EntriesDisjoint entries)
    (hRounds : Rounds entries hhdm)
    (hRun : Run entries hhdm s outstanding) :
    Serves entries s outstanding := by
  rcases hRun.sound hDisjoint hRounds with ⟨free, hSound⟩
  exact hSound.serves hRounds

end Run

end Pmm

end Whirliscope

------------------------------------------------------------
-- Sample Maps
------------------------------------------------------------

namespace Whirliscope

namespace Pmm

open ByteMemory

/- The direct map of the boot loader. -/
def sampleHhdm : Nat := 0xffff800000000000

/- Low memory, a reserved range and unaligned memory above. -/
def sampleMap : List MemmapEntry :=
  [⟨0, 0x2000, 0, by decide, by decide⟩,
    ⟨0x2000, 0x1000, 1, by decide, by decide⟩,
    ⟨0x3001, 0x3000, 0, by decide, by decide⟩]

def sampleInit : PmmState :=
  pmmInit (some sampleMap) (some sampleHhdm)
    ⟨zeros, 0, 0, 0, 0, false⟩

theorem sampleInit_alloc :
    (pmmAllocPage sampleInit).1 = 0x5000 := by
  decide +kernel

theorem sampleMap_disjoint : EntriesDisjoint sampleMap := by
  simp [EntriesDisjoint, sampleMap, MemmapEntry.Usable,
    limineMemmapUsable, MemmapEntry.Contains]
  omega

theorem sampleMap_rounds : Rounds sampleMap sampleHhdm := by
  constructor
  · simp [sampleMap, MemmapEntry.Rounds, pmmPageSize]
  · rintro page ⟨-, -, entry, hEntry, -, -, hLast⟩
    have hLow : page < 0x7000 := by
      simp only [sampleMap, List.mem_cons,
        List.not_mem_nil, or_false] at hEntry
      rcases hEntry with rfl | rfl | rfl <;>
        simp only [pmmPageSize] at hLast <;> omega
    simp only [physToVirt, wrap, sampleHhdm]
    omega

/- The owner of the first page fills it. -/
theorem sampleRun_serves :
    Serves sampleMap
      { (pmmAllocPage sampleInit).2 with
        memory :=
          write (pmmAllocPage sampleInit).2.memory
            (physToVirt sampleHhdm 0x5000) pmmPageSize
            fun _ => 0xff }
      (insert (pmmAllocPage sampleInit).1 ∅) := by
  apply run_serves sampleMap_disjoint sampleMap_rounds
  apply Run.owners
    (.alloc (.init ⟨zeros, 0, 0, 0, 0, false⟩)
      (by
        change (pmmAllocPage sampleInit).1 ≠ 0
        rw [sampleInit_alloc]
        decide))
  rintro page hWhole hOut offset hOffset
  apply write_of_not_mem
  have hNe : page ≠ 0x5000 := by
    rintro rfl
    exact hOut (Finset.mem_insert.mpr
      (.inl sampleInit_alloc.symm))
  have hApart :=
    physToVirt_apart sampleHhdm
      ⟨sampleMap_rounds.wholePage_lt hWhole, hWhole.2.1⟩
      (show (0x5000 : Nat) < 2 ^ 64 ∧
          0x5000 % pmmPageSize = 0 by decide)
      hNe
  omega

/- A usable entry inside the last page of the words. -/
def topEntry : MemmapEntry :=
  ⟨2 ^ 64 - 100, 50, 0, by decide, by decide⟩

def topMap : List MemmapEntry := [topEntry]

/- Its base is rounded up to zero. -/
theorem addEntry_topEntry
    (s : PmmState) :
    addEntry s topEntry =
      addPages pmmPageSize (2 ^ 64 - pmmPageSize) s := by
  have hStart :
      alignUp 64 topEntry.base pmmPageSize = 0 := by
    decide
  have hLast :
      alignDown 64
          (wrap 64 (topEntry.base + topEntry.length))
          pmmPageSize =
        2 ^ 64 - pmmPageSize := by
    decide
  have hSkip : addPage 0 s = s := if_pos rfl
  have hUsable : ¬ topEntry.type ≠ limineMemmapUsable := by
    decide
  have hMore : 0 < 2 ^ 64 - pmmPageSize := by decide
  rw [addEntry, if_neg hUsable, hStart, hLast, addPages,
    if_pos hMore, hSkip, Nat.zero_add]

theorem addPages_totalPages
    {page : Nat}
    (hPage : page ≠ 0)
    (last : Nat)
    (s : PmmState) :
    (addPages page last s).totalPages % 2 ^ 64 =
      (s.totalPages +
          (last - page + (pmmPageSize - 1)) / pmmPageSize) %
        2 ^ 64 := by
  induction page, s using addPages.induct last with
  | case1 page s hMore ih =>
      have hNext : page + pmmPageSize ≠ 0 := by
        omega
      have hStep :
          (addPage page s).totalPages =
            wrap 64 (s.totalPages + 1) := by
        rw [addPage, if_neg hPage]
      rw [addPages, if_pos hMore, ih hNext, hStep]
      simp only [wrap, pmmPageSize]
      omega
  | case2 page s hDone =>
      rw [addPages, if_neg hDone]
      have hEmpty : last - page = 0 := by omega
      rw [hEmpty]
      rfl

theorem pmmInit_totalPages
    (entry : MemmapEntry)
    (hhdm : Nat)
    (s : PmmState) :
    (pmmGetStats
        (pmmInit (some [entry]) (some hhdm) s)).totalPages =
      (addEntry
        { s with
          freeList := 0
          hhdmBase := hhdm
          totalPages := 0
          freePages := 0
          initialized := false }
        entry).totalPages :=
  rfl

theorem topMap_totalPages
    (hhdm : Nat)
    (s : PmmState) :
    (pmmGetStats
        (pmmInit (some topMap) (some hhdm) s)).totalPages ≠
      0 := by
  have hPage : pmmPageSize ≠ 0 := by decide
  rw [topMap, pmmInit_totalPages, addEntry_topEntry]
  intro hTotal
  have hCount :=
    addPages_totalPages hPage (2 ^ 64 - pmmPageSize)
      { s with
        freeList := 0
        hhdmBase := hhdm
        totalPages := 0
        freePages := 0
        initialized := false }
  rw [hTotal] at hCount
  norm_num [pmmPageSize] at hCount

/- The manager counts pages although the map has none. -/
theorem topMap_not_serves :
    EntriesDisjoint topMap ∧ EntriesEnd topMap ∧
      ¬ ∀ s outstanding,
          Run topMap sampleHhdm s outstanding →
            Serves topMap s outstanding := by
  refine ⟨List.pairwise_singleton _ _, ?_, ?_⟩
  · simp [EntriesEnd, topMap, topEntry]
  intro hAll
  have hTotal :=
    (hAll _ _ (.init ⟨zeros, 0, 0, 0, 0, false⟩)).total
  have hNone :
      { page | WholePage topMap page } = ∅ := by
    ext page
    refine iff_of_false ?_ (Set.notMem_empty page)
    rintro ⟨-, -, entry, hEntry, -, hLow, hLast⟩
    rcases List.mem_singleton.mp hEntry with rfl
    simp only [topEntry, pmmPageSize] at hLow hLast
    omega
  rw [hNone, Set.ncard_empty] at hTotal
  exact topMap_totalPages _ _ hTotal

end Pmm

end Whirliscope
