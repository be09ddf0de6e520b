import Whirliscope.Memory.PageEntries
import Whirliscope.Memory.SpaceFrames

/-
  The pages that a space shows in the user half.

  The tables of the user half let the user through, so the
  last entry of a walk decides what a page permits.

  Key definitions include:
    * `Frame`, `ShowsPages`
    * `UserAccess`, `WriteAccess`, `ExecAccess`

  Main theorems:
    * `ShowsPages.access`
    * `ShowsPages.mapPage`
-/

------------------------------------------------------------
-- Bits of Entries
------------------------------------------------------------

namespace Whirliscope

namespace Vmm

open ByteMemory

/- `VMM_NOEXEC`. -/
def vmmNoexec : Nat := 2 ^ 63

theorem and_two_pow_ne_zero_iff
    (value bit : Nat) :
    value &&& 2 ^ bit ≠ 0 ↔ value.testBit bit = true := by
  rw [Nat.and_two_pow]
  cases value.testBit bit <;> simp

/- A frame number has no low and no high bits. -/
theorem testBit_frame
    {frame bit : Nat}
    (hFrame : IsFrame frame)
    (hBit : bit < 12 ∨ 52 ≤ bit) :
    frame.testBit bit = false := by
  rcases hBit with hLow | hHigh
  · have hShift : frame = (frame / 4096) <<< 12 := by
      have hMod := hFrame.2.1
      rw [Nat.shiftLeft_eq]
      omega
    rw [hShift, Nat.testBit_shiftLeft]
    simp [Nat.not_le.mpr hLow]
  · exact Nat.testBit_lt_two_pow
      (Nat.lt_of_lt_of_le hFrame.2.2
        (Nat.pow_le_pow_right (by decide) hHigh))

/- The flags of a mapping are bits of its entry. -/
theorem leafEntry_testBit
    {frame : Nat}
    (hFrame : IsFrame frame)
    (flags : Nat)
    {bit : Nat}
    (hBit : 0 < bit ∧ bit < 12 ∨ 52 ≤ bit) :
    (leafEntry frame flags 12).testBit bit =
      flags.testBit bit := by
  have hPresent : vmmPresent.testBit bit = false := by
    rw [vmmPresent, Nat.testBit_two_pow_of_ne]
    omega
  rw [leafEntry, Nat.testBit_or, Nat.testBit_or,
    Nat.testBit_or, testBit_frame hFrame (by omega), hPresent]
  simp

theorem leafEntry_present
    (physical flags shift : Nat) :
    leafEntry physical flags shift &&& vmmPresent ≠ 0 := by
  refine (and_two_pow_ne_zero_iff _ 0).mpr ?_
  simp [leafEntry, Nat.testBit_or, vmmPresent]

/- An entry that lets the user through to the next table. -/
structure Passes
    (entry level : Nat) : Prop where
  table : IsTable entry level
  writable : entry &&& vmmWritable ≠ 0
  user : entry &&& vmmUser ≠ 0
  exec : entry &&& vmmNoexec = 0

/- A table that is linked for a user page is one. -/
theorem passes_tableEntry
    {page flags : Nat}
    (hFrame : IsFrame page)
    (hUser : flags &&& vmmUser ≠ 0)
    (level : Nat) :
    Passes (page ||| pteTableFlags ||| (flags &&& vmmUser))
      level := by
  have hUserBit : flags.testBit 2 = true :=
    (and_two_pow_ne_zero_iff flags 2).mp hUser
  have hHigh : page.testBit 63 = false :=
    testBit_frame hFrame (.inr (by decide))
  have hTable :
      pteTableFlags.testBit 1 = true ∧
        pteTableFlags.testBit 63 = false := by
    decide
  have hMask :
      vmmUser.testBit 2 = true ∧
        vmmUser.testBit 63 = false := by
    decide
  refine
    { table := (tableEntry_facts hFrame flags level).2.1
      writable := (and_two_pow_ne_zero_iff _ 1).mpr ?_
      user := (and_two_pow_ne_zero_iff _ 2).mpr ?_
      exec := not_ne_iff.mp fun hSet => ?_ }
  · rw [Nat.testBit_or, Nat.testBit_or, hTable.1,
      Bool.or_true, Bool.true_or]
  · rw [Nat.testBit_or, Nat.testBit_and, hUserBit, hMask.1,
      Bool.and_true, Bool.or_true]
  · have hBit := (and_two_pow_ne_zero_iff _ 63).mp hSet
    rw [Nat.testBit_or, Nat.testBit_or, Nat.testBit_and,
      hHigh, hTable.2, hMask.2, Bool.and_false] at hBit
    cases hBit

end Vmm

end Whirliscope

------------------------------------------------------------
-- Pages of a Space
------------------------------------------------------------

namespace Whirliscope

namespace Vmm

open ByteMemory

/- The low half of the canonical addresses. -/
def UserHalf
    (virtualAddress : Nat) : Prop :=
  virtualAddress < 2 ^ 47

theorem UserHalf.levelIndex_lt
    {virtualAddress : Nat}
    (hHalf : UserHalf virtualAddress) :
    levelIndex virtualAddress 0 < 256 := by
  rw [levelIndex_eq]
  simp only [UserHalf, levelShift] at *
  omega

/- The page that an address selects; high bits are ignored. -/
def pageNumber
    (virtualAddress : Nat) : Nat :=
  virtualAddress % 2 ^ 48 / 4096

theorem UserHalf.pageNumber_eq
    {virtualAddress : Nat}
    (hHalf : UserHalf virtualAddress) :
    pageNumber virtualAddress = virtualAddress / 4096 := by
  simp only [pageNumber, UserHalf] at *
  rw [Nat.mod_eq_of_lt (by omega)]

theorem UserHalf.samePath_iff
    {virtualAddress : Nat}
    (hHalf : UserHalf virtualAddress)
    (target : Nat) :
    SamePath virtualAddress target 4 ↔
      virtualAddress / 4096 = pageNumber target := by
  rw [Vmm.samePath_iff (.inr (.inr rfl)),
    ← hHalf.pageNumber_eq]
  rfl

/- A frame that a page shows, and the flags of the mapping. -/
structure Frame where
  physical : Nat
  flags : Nat

/-
  The space shows these frames at these page numbers, and
  nothing else in the user half. Its tables let the user
  through.
-/
structure ShowsPages
    (root : Nat)
    (s : Paging)
    (pages : Nat → Option Frame) : Prop where
  passes :
    ∀ virtualAddress level entry,
      UserHalf virtualAddress → level < 3 →
      entryAt s.tables root virtualAddress level =
          some entry →
        entry &&& vmmPresent ≠ 0 → Passes entry level
  mapped :
    ∀ virtualAddress frame, UserHalf virtualAddress →
      pages (virtualAddress / 4096) = some frame →
        entryAt s.tables root virtualAddress 3 =
          some (leafEntry frame.physical frame.flags 12)
  unmapped :
    ∀ virtualAddress, UserHalf virtualAddress →
      pages (virtualAddress / 4096) = none →
        leafOf s.tables root virtualAddress = none

/- The pages depend on the tables only. -/
theorem ShowsPages.of_tables
    {root : Nat}
    {s s' : Paging}
    {pages : Nat → Option Frame}
    (hShows : ShowsPages root s pages)
    (hTables : s'.tables = s.tables) :
    ShowsPages root s' pages where
  passes := by rw [hTables]; exact hShows.passes
  mapped := by rw [hTables]; exact hShows.mapped
  unmapped := by rw [hTables]; exact hShows.unmapped

/- Every entry of the walk has the bit. -/
def EveryLevel
    (tables : Bytes)
    (root virtualAddress : Nat)
    (holds : Nat → Prop) : Prop :=
  ∀ level, level < 4 →
    ∃ entry,
      entryAt tables root virtualAddress level =
          some entry ∧
        entry &&& vmmPresent ≠ 0 ∧ holds entry

/- The user may access the address. -/
def UserAccess
    (tables : Bytes)
    (root virtualAddress : Nat) : Prop :=
  EveryLevel tables root virtualAddress fun entry =>
    entry &&& vmmUser ≠ 0

def WriteAccess
    (tables : Bytes)
    (root virtualAddress : Nat) : Prop :=
  EveryLevel tables root virtualAddress fun entry =>
    entry &&& vmmWritable ≠ 0

def ExecAccess
    (tables : Bytes)
    (root virtualAddress : Nat) : Prop :=
  EveryLevel tables root virtualAddress fun entry =>
    entry &&& vmmNoexec = 0

section Access

variable {root : Nat} {s : Paging}
variable {pages : Nat → Option Frame}

/- Above a mapped page the user passes. -/
theorem ShowsPages.passes_above
    (hShows : ShowsPages root s pages)
    {virtualAddress : Nat}
    {frame : Frame}
    (hHalf : UserHalf virtualAddress)
    (hPage : pages (virtualAddress / 4096) = some frame)
    {level : Nat}
    (hLevel : level < 3) :
    ∃ entry,
      entryAt s.tables root virtualAddress level =
          some entry ∧
        Passes entry level := by
  have hLast := hShows.mapped virtualAddress frame hHalf hPage
  rcases Option.map_eq_some_iff.mp hLast with
    ⟨table, hTable, -⟩
  rcases tableAt_isSome_of_le hTable
      (show level + 1 ≤ 3 by omega) with ⟨next, hNext⟩
  rcases entryAt_of_tableAt_succ hNext with
    ⟨entry, hEntry, hIsTable, -⟩
  exact ⟨entry, hEntry,
    hShows.passes virtualAddress level entry hHalf hLevel
      hEntry hIsTable.1⟩

/- The last entry decides what a page permits. -/
theorem ShowsPages.everyLevel_iff
    (hShows : ShowsPages root s pages)
    {virtualAddress : Nat}
    {frame : Frame}
    (hHalf : UserHalf virtualAddress)
    (hPage : pages (virtualAddress / 4096) = some frame)
    {holds : Nat → Prop}
    (hPasses :
      ∀ entry level, Passes entry level → holds entry) :
    EveryLevel s.tables root virtualAddress holds ↔
      holds (leafEntry frame.physical frame.flags 12) := by
  have hLast := hShows.mapped virtualAddress frame hHalf hPage
  constructor
  · intro hEvery
    rcases hEvery 3 (by decide) with
      ⟨entry, hEntry, -, hHolds⟩
    rw [hLast] at hEntry
    cases hEntry
    exact hHolds
  · intro hHolds level hLevel
    by_cases hInner : level < 3
    · rcases hShows.passes_above hHalf hPage hInner with
        ⟨entry, hEntry, hPass⟩
      exact ⟨entry, hEntry, hPass.table.1,
        hPasses entry level hPass⟩
    · have hThree : level = 3 := by omega
      subst hThree
      exact ⟨_, hLast, leafEntry_present _ _ _, hHolds⟩

/- What a page shows and permits. -/
theorem ShowsPages.access
    (hShows : ShowsPages root s pages)
    {virtualAddress : Nat}
    {frame : Frame}
    (hHalf : UserHalf virtualAddress)
    (hPage : pages (virtualAddress / 4096) = some frame)
    (hFrame : IsFrame frame.physical)
    (hArguments :
      MapArguments frame.physical frame.flags) :
    leafOf s.tables root virtualAddress =
        some ⟨frame.physical + virtualAddress % 4096, 12⟩ ∧
      (UserAccess s.tables root virtualAddress ↔
        frame.flags &&& vmmUser ≠ 0) ∧
      (WriteAccess s.tables root virtualAddress ↔
        frame.flags &&& vmmWritable ≠ 0) ∧
      (ExecAccess s.tables root virtualAddress ↔
        frame.flags &&& vmmNoexec = 0) := by
  have hLast := hShows.mapped virtualAddress frame hHalf hPage
  have hAligned :
      frame.physical % 2 ^ levelShift 3 = 0 := hFrame.2.1
  have hPresent :
      leafEntry frame.physical frame.flags 12 &&&
        vmmPresent ≠ 0 := leafEntry_present _ _ _
  have hBit :
      ∀ bit, 0 < bit ∧ bit < 12 ∨ 52 ≤ bit →
        (leafEntry frame.physical frame.flags 12 &&&
            2 ^ bit ≠ 0 ↔
          frame.flags &&& 2 ^ bit ≠ 0) := by
    intro bit hRange
    rw [and_two_pow_ne_zero_iff, and_two_pow_ne_zero_iff,
      leafEntry_testBit hFrame frame.flags hRange]
  refine ⟨?_, ?_, ?_, ?_⟩
  · rcases Option.map_eq_some_iff.mp hLast with
      ⟨table, hTable, hEntry⟩
    have hLeaf :=
      leafOf_of_ends ⟨by decide, hTable, .inl rfl⟩
    simp only [hEntry, if_neg hPresent] at hLeaf
    rw [hLeaf]
    exact congrArg some
      (leafFrom_leafEntry (.inr (.inr rfl)) hAligned
        hArguments.physical_lt hArguments.flags_clear
        hArguments.flags_lt virtualAddress)
  · rw [UserAccess, hShows.everyLevel_iff hHalf hPage
      fun _ _ hPass => hPass.user]
    exact hBit 2 (by omega)
  · rw [WriteAccess, hShows.everyLevel_iff hHalf hPage
      fun _ _ hPass => hPass.writable]
    exact hBit 1 (by omega)
  · rw [ExecAccess, hShows.everyLevel_iff hHalf hPage
      fun _ _ hPass => hPass.exec]
    exact not_iff_not.mp (hBit 63 (by omega))

end Access

end Vmm

end Whirliscope

------------------------------------------------------------
-- Mapping a Page
------------------------------------------------------------

namespace Whirliscope

namespace Vmm

open ByteMemory

/- Below an entry for a cleared table all entries are clear. -/
theorem SlotUpdate.entryAt_below
    {root target level value : Nat}
    {tables tables' : Bytes}
    (hUpdate :
      SlotUpdate root target level value tables tables')
    {virtualAddress table : Nat}
    (hOn : SamePath virtualAddress target (level + 1))
    (hLevel : level < 4)
    (hTable : tableAt tables root target level = some table)
    (hIsTable : IsTable value level)
    (hCleared :
      ∀ index, index < 512 →
        loadEntry tables'
          (entryToTable value + 8 * index) = 0)
    {k entry : Nat}
    (hBelow : level < k)
    (hEntry :
      entryAt tables' root virtualAddress k = some entry) :
    entry = 0 := by
  have hNext :=
    hUpdate.tableAt_on hOn hLevel hTable
  rw [if_pos hIsTable] at hNext
  have hFirst :
      entryAt tables' root virtualAddress (level + 1) =
        some 0 := by
    rw [entryAt, hNext, Option.map_some,
      hCleared _ (levelIndex_lt _ _)]
  by_cases hHere : k = level + 1
  · rw [hHere, hFirst] at hEntry
    exact (Option.some.inj hEntry).symm
  · -- The walk has stopped at the cleared table.
    rcases Option.map_eq_some_iff.mp hEntry with
      ⟨found, hFound, -⟩
    rcases tableAt_isSome_of_le hFound
        (show level + 1 + 1 ≤ k by omega) with
      ⟨below, hBelow'⟩
    rw [tableAt_succ_of_entryAt hFirst,
      if_neg fun h => h.1 rfl] at hBelow'
    cases hBelow'

section Steps

variable {roots : List Nat} {root target flags : Nat}
variable {s s' : Paging} {pages : Nat → Option Frame}

/- A linked table shows no page. -/
theorem ShowsPages.link
    (hShows : ShowsPages root s pages)
    (hForest : PageForest roots s)
    (hRoot : root ∈ roots)
    (hUser : flags &&& vmmUser ≠ 0)
    {level table page : Nat}
    {rest : List Nat}
    (hLevel : level < 3)
    (hTable :
      tableAt s.tables root target level = some table)
    (hAbsent :
      loadEntry s.tables
          (table + 8 * levelIndex target level) &&&
        vmmPresent = 0)
    (hPage : s.free = page :: rest) :
    ShowsPages root
      (s.link page rest
        (table + 8 * levelIndex target level) flags)
      pages := by
  have hFrame :=
    hForest.free_frame page
      (by rw [hPage]; exact List.mem_cons_self)
  rcases tableEntry_facts hFrame flags level with
    ⟨-, hIsTable, hNext⟩
  have hPasses := passes_tableEntry hFrame hUser level
  rcases hForest.link_update hRoot hLevel hTable hPage flags
    with ⟨hStores, hCleared⟩
  have hUpdate := (hStores root hRoot).1 (.inl rfl)
  change SlotUpdate _ _ _ _ _ (s.link _ _ _ _).tables
    at hUpdate
  change ∀ index, index < 512 →
    loadEntry (s.link _ _ _ _).tables _ = 0 at hCleared
  generalize s.link page rest _ flags = s'
    at hUpdate hCleared ⊢
  generalize page ||| pteTableFlags ||| (flags &&& vmmUser) =
    value at hIsTable hNext hPasses hUpdate
  rw [← hNext] at hCleared
  have hLevel' : level < 4 := by omega
  refine
    { passes := ?_, mapped := ?_, unmapped := ?_ }
  · intro v k entry hHalf hk hEntry hPresent
    by_cases hOn : SamePath v target (level + 1)
    · rcases Nat.lt_trichotomy k level with
        hAbove | rfl | hBelow
      · have hOld := hUpdate.entryAt_above v hAbove hLevel'
        exact hShows.passes v k entry hHalf hk
          (hOld.symm.trans hEntry) hPresent
      · have hNew := hUpdate.entryAt_on hOn hLevel' hTable
        rw [Option.some.inj (hEntry.symm.trans hNew)]
        exact hPasses
      · have hZero :=
          hUpdate.entryAt_below hOn hLevel' hTable hIsTable
            hCleared hBelow hEntry
        rw [hZero] at hPresent
        exact absurd rfl hPresent
    · have hOld :=
        hUpdate.entryAt_off hOn (show k < 4 by omega)
      exact hShows.passes v k entry hHalf hk
        (hOld.symm.trans hEntry) hPresent
  · intro v frame hHalf hFrameAt
    have hOld := hShows.mapped v frame hHalf hFrameAt
    have hOff : ¬ SamePath v target (level + 1) := by
      intro hOn
      rcases Option.map_eq_some_iff.mp hOld with
        ⟨last, hLast, -⟩
      rcases tableAt_isSome_of_le hLast
          (show level + 1 ≤ 3 by omega) with ⟨below, hBelow⟩
      rw [tableAt_samePath s.tables root hOn.symm,
        tableAt_succ, hTable] at hBelow
      simp only [Option.bind_some,
        if_neg (show ¬ IsTable _ level from
          fun h => h.1 hAbsent)] at hBelow
      cases hBelow
    exact (hUpdate.entryAt_off hOff (by decide)).trans hOld
  · intro v hHalf hNone
    exact (hUpdate.leafOf_of_link hLevel hTable hAbsent
      hIsTable hCleared v).trans (hShows.unmapped v hHalf hNone)

theorem ShowsPages.linked
    (hShows : ShowsPages root s pages)
    (hRoot : root ∈ roots)
    (hUser : flags &&& vmmUser ≠ 0)
    (hLinked : Linked roots root target flags s s') :
    ShowsPages root s' pages := by
  induction hLinked with
  | refl s => exact hShows
  | link hForest hLevel hTable hAbsent hPage _ ih =>
      exact ih (hShows.link hForest hRoot hUser hLevel hTable
        hAbsent hPage)

/- A store to the last entry shows its page. -/
theorem ShowsPages.store
    (hShows : ShowsPages root s pages)
    (hForest : PageForest roots s)
    (hRoot : root ∈ roots)
    {table physical : Nat}
    (hTable : tableAt s.tables root target 3 = some table)
    (hWord : physical < 2 ^ 64 ∧ flags < 2 ^ 64) :
    ShowsPages root
      (s.store (table + 8 * levelIndex target 3)
        (leafEntry physical flags 12))
      (Function.update pages (pageNumber target)
        (some ⟨physical, flags⟩)) := by
  have hValue := leafEntry_lt hWord.1 hWord.2 12
  have hUpdate :=
    (hForest.slotUpdate hRoot hRoot (by decide) hTable
      (fun _ _ _ _ _ => rfl)
      (leafEntry physical flags 12)).1 (.inl rfl)
  rw [Nat.mod_eq_of_lt hValue] at hUpdate
  change SlotUpdate _ _ _ _ _ (s.store _ _).tables at hUpdate
  generalize s.store _ _ = s' at hUpdate ⊢
  refine
    { passes := ?_, mapped := ?_, unmapped := ?_ }
  · intro v level entry hv hLevel hEntry
    have hOld := hUpdate.entryAt_above v hLevel (by decide)
    exact hShows.passes v level entry hv hLevel
      (hOld.symm.trans hEntry)
  · intro v frame hv hFrame
    have hSame := hv.samePath_iff target
    by_cases hOn : v / 4096 = pageNumber target
    · rw [hOn, Function.update_self] at hFrame
      cases hFrame
      exact hUpdate.entryAt_on (hSame.mpr hOn) (by decide)
        hTable
    · rw [Function.update_of_ne hOn] at hFrame
      exact (hUpdate.entryAt_off (mt hSame.mp hOn)
        (by decide)).trans (hShows.mapped v frame hv hFrame)
  · intro v hv hNone
    have hOff : v / 4096 ≠ pageNumber target := by
      intro hOn
      rw [hOn, Function.update_self] at hNone
      cases hNone
    rw [Function.update_of_ne hOff] at hNone
    exact (hUpdate.leafOf_off
      (mt (hv.samePath_iff target).mp hOff)).trans
        (hShows.unmapped v hv hNone)

/- What a call that maps a small page does to the pages. -/
theorem ShowsPages.mapPage
    (hShows : ShowsPages root s pages)
    (hRoot : root ∈ roots)
    (hUser : flags &&& vmmUser ≠ 0)
    {physical : Nat}
    (hArguments : MapArguments physical flags)
    {ok : Bool}
    (hMaps : MapsPage roots root target physical flags s ok s') :
    ShowsPages root s'
        (if ok then
          Function.update pages (pageNumber target)
            (some ⟨physical, flags⟩)
        else pages) ∧
      (ok = true → pageNumber target < 2 ^ 35 →
        pages (pageNumber target) = none) := by
  cases hMaps with
  | refused hForest hLinked =>
      exact ⟨hShows.linked hRoot hUser hLinked, by simp⟩
  | @stored _ table hForest hLinked hTable hAbsent hAligned =>
      have hMiddle := hShows.linked hRoot hUser hLinked
      have hWord : physical < 2 ^ 64 ∧ flags < 2 ^ 64 :=
        ⟨Nat.lt_trans hArguments.physical_lt (by decide),
          hArguments.flags_lt⟩
      refine ⟨hMiddle.store hForest hRoot hTable hWord,
        fun _ hHalf => ?_⟩
      -- An entry that showed a page would be present.
      cases hPage : pages (pageNumber target) with
      | none => rfl
      | some frame =>
          let v := pageNumber target * 4096
          have hv : UserHalf v := by
            simp only [UserHalf, v]
            omega
          have hNumber : v / 4096 = pageNumber target :=
            Nat.mul_div_cancel _ (by decide)
          have hEntry :=
            hMiddle.mapped v frame hv
              (by rw [hNumber]; exact hPage)
          rw [← entryAt_samePath _ _
              ((hv.samePath_iff target).mpr hNumber),
            entryAt, hTable, Option.map_some] at hEntry
          rw [Option.some.inj hEntry] at hAbsent
          exact absurd hAbsent (leafEntry_present _ _ _)

end Steps

end Vmm

end Whirliscope

------------------------------------------------------------
-- A New Space
------------------------------------------------------------

namespace Whirliscope

namespace Vmm

open ByteMemory

/- A root whose user half is clear shows no page. -/
theorem showsPages_of_clear
    {root : Nat}
    {s : Paging}
    (hClear :
      ∀ virtualAddress, UserHalf virtualAddress →
        loadEntry s.tables
            (root + 8 * levelIndex virtualAddress 0) = 0) :
    ShowsPages root s fun _ => none := by
  have hTop :
      ∀ v, UserHalf v →
        entryAt s.tables root v 0 = some 0 := by
    intro v hHalf
    exact congrArg some (hClear v hHalf)
  refine
    { passes := ?_, mapped := ?_, unmapped := ?_ }
  · intro v level entry hHalf hLevel hEntry hPresent
    cases level with
    | zero =>
        rw [hTop v hHalf] at hEntry
        cases hEntry
        exact absurd rfl hPresent
    | succ level =>
        rcases Option.map_eq_some_iff.mp hEntry with
          ⟨table, hTable, -⟩
        rcases tableAt_isSome_of_le hTable
            (show 0 + 1 ≤ level + 1 by omega) with
          ⟨first, hFirst⟩
        rw [tableAt_succ_of_entryAt (hTop v hHalf),
          if_neg fun h => h.1 rfl] at hFirst
        cases hFirst
  · intro v frame _ hFrame
    cases hFrame
  · intro v hHalf _
    have hEnds :
        Ends s.tables root v 0 root := by
      refine ⟨by decide, rfl, .inr ?_⟩
      rw [hClear v hHalf]
      exact fun h => h.1 rfl
    rw [leafOf_of_ends hEnds, hClear v hHalf]
    rfl

theorem PageForest.create_shows
    {roots rest : List Nat}
    {source page : Nat}
    {s : Paging}
    (hForest : PageForest roots s)
    (hSource : source ∈ roots)
    (hFree : s.free = page :: rest) :
    ShowsPages page
      (copyKernelHalf source page
        (({ s with free := rest } : Paging).clear page))
      fun _ => none := by
  have hMem : page ∈ s.free := by
    rw [hFree]
    exact List.mem_cons_self
  have hNe : source ≠ page := by
    rintro rfl
    exact hForest.not_free source 0 0 source hSource
      (by decide) rfl hMem
  apply showsPages_of_clear
  intro v hHalf
  refine (loadEntry_copyKernelHalf_new hNe
    (hForest.root_mod source hSource)
    (hForest.free_frame page hMem).2.1
    (levelIndex_lt v 0)).trans ?_
  exact if_pos hHalf.levelIndex_lt

end Vmm

end Whirliscope
