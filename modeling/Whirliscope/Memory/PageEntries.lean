import Whirliscope.Memory.PageRefinement

/-
  The entries of a walk, and where the tables of a walk come
  from.

  A mapping call links cleared frames of the free list into
  the tree and then stores one entry. `Linked` is the first
  part as a sequence of single links.

  Key definitions include:
    * `entryAt`
    * `Linked`
    * `KeepsTables`, `UsesFree`

  Main theorems:
    * `mapAtLevelInRoot_tables`
    * `mapAtLevelInRoot_succeeds`
-/

------------------------------------------------------------
-- The Entries of a Walk
------------------------------------------------------------

namespace Whirliscope

namespace Vmm

open ByteMemory

/- The entry that the walk of an address meets at a level. -/
def entryAt
    (tables : Bytes)
    (root virtualAddress level : Nat) : Option Nat :=
  (tableAt tables root virtualAddress level).map fun table =>
    loadEntry tables
      (table + 8 * levelIndex virtualAddress level)

theorem tableAt_succ_of_entryAt
    {tables : Bytes}
    {root virtualAddress level entry : Nat}
    (hEntry :
      entryAt tables root virtualAddress level = some entry) :
    tableAt tables root virtualAddress (level + 1) =
      if IsTable entry level then some (entryToTable entry)
      else none := by
  rcases Option.map_eq_some_iff.mp hEntry with
    ⟨table, hTable, rfl⟩
  rw [tableAt_succ, hTable]
  rfl

/- A walk that goes on has passed a table entry. -/
theorem entryAt_of_tableAt_succ
    {tables : Bytes}
    {root virtualAddress level table : Nat}
    (hTable :
      tableAt tables root virtualAddress (level + 1) =
        some table) :
    ∃ entry,
      entryAt tables root virtualAddress level = some entry ∧
        IsTable entry level ∧
        table = entryToTable entry := by
  rcases tableAt_isSome_of_le hTable (Nat.le_succ level) with
    ⟨above, hAbove⟩
  have hEntry :
      entryAt tables root virtualAddress level =
        some (loadEntry tables
          (above + 8 * levelIndex virtualAddress level)) := by
    rw [entryAt, hAbove]
    rfl
  have hNext := tableAt_succ_of_entryAt hEntry
  rw [hTable] at hNext
  split_ifs at hNext with hIsTable
  exact ⟨_, hEntry, hIsTable, Option.some.inj hNext⟩

theorem entryAt_samePath
    (tables : Bytes)
    (root : Nat)
    {left right level : Nat}
    (hPath : SamePath left right (level + 1)) :
    entryAt tables root right level =
      entryAt tables root left level := by
  rw [entryAt, entryAt,
    tableAt_samePath tables root
      (hPath.mono (Nat.le_succ level)),
    hPath level (Nat.lt_succ_self level)]

theorem SameTree.entryAt_eq
    {root : Nat}
    {tables tables' : Bytes}
    (hSame : SameTree root tables tables')
    (virtualAddress : Nat)
    {level : Nat}
    (hLevel : level < 4) :
    entryAt tables' root virtualAddress level =
      entryAt tables root virtualAddress level := by
  rw [entryAt, entryAt,
    hSame.tableAt_eq virtualAddress (by omega)]
  cases hTable : tableAt tables root virtualAddress level with
  | none => rfl
  | some table =>
      rw [Option.map_some, Option.map_some,
        hSame virtualAddress level table hLevel hTable]

section SlotUpdate

variable {root target level value : Nat}
variable {tables tables' : Bytes}

/- Entries on other paths are as before. -/
theorem SlotUpdate.entryAt_off
    (hUpdate :
      SlotUpdate root target level value tables tables')
    {virtualAddress : Nat}
    (hOff : ¬ SamePath virtualAddress target (level + 1))
    {k : Nat}
    (hk : k < 4) :
    entryAt tables' root virtualAddress k =
      entryAt tables root virtualAddress k := by
  rw [entryAt, entryAt, hUpdate.tableAt_off hOff (by omega)]
  cases hTable : tableAt tables root virtualAddress k with
  | none => rfl
  | some table =>
      rw [Option.map_some, Option.map_some,
        hUpdate virtualAddress k table hk hTable,
        if_neg fun h => hOff h.2]

/- Entries above the changed one are as before. -/
theorem SlotUpdate.entryAt_above
    (hUpdate :
      SlotUpdate root target level value tables tables')
    (virtualAddress : Nat)
    {k : Nat}
    (hk : k < level)
    (hLevel : level < 4) :
    entryAt tables' root virtualAddress k =
      entryAt tables root virtualAddress k := by
  rw [entryAt, entryAt,
    hUpdate.tableAt_above virtualAddress (by omega) hLevel]
  cases hTable : tableAt tables root virtualAddress k with
  | none => rfl
  | some table =>
      rw [Option.map_some, Option.map_some,
        hUpdate virtualAddress k table (by omega) hTable,
        if_neg fun h => Nat.ne_of_lt hk h.1]

/- The changed entry has the new value. -/
theorem SlotUpdate.entryAt_on
    (hUpdate :
      SlotUpdate root target level value tables tables')
    {virtualAddress table : Nat}
    (hOn : SamePath virtualAddress target (level + 1))
    (hLevel : level < 4)
    (hTable : tableAt tables root target level = some table) :
    entryAt tables' root virtualAddress level = some value := by
  have hHere :
      tableAt tables root virtualAddress level =
        some table := by
    rw [← hTable]
    exact tableAt_samePath tables root
      (hOn.symm.mono (Nat.le_succ level))
  rw [entryAt,
    hUpdate.tableAt_above virtualAddress (le_refl level)
      hLevel,
    hHere, Option.map_some,
    hUpdate virtualAddress level table hLevel hHere,
    if_pos ⟨rfl, hOn⟩]

/- Replacing an entry that led nowhere keeps the tables. -/
theorem SlotUpdate.tableAt_kept
    (hUpdate :
      SlotUpdate root target level value tables tables')
    (hLevel : level < 4)
    {table : Nat}
    (hTable : tableAt tables root target level = some table)
    (hOld :
      level = 3 ∨
        ¬ IsTable
          (loadEntry tables
            (table + 8 * levelIndex target level)) level)
    {virtualAddress k found : Nat}
    (hk : k < 4)
    (hFound :
      tableAt tables root virtualAddress k = some found) :
    tableAt tables' root virtualAddress k = some found := by
  by_cases hOn : SamePath virtualAddress target (level + 1)
  · by_cases hAbove : k ≤ level
    · rw [hUpdate.tableAt_above virtualAddress hAbove hLevel]
      exact hFound
    · -- Below the entry there was no table.
      rcases hOld with hThree | hStop
      · omega
      rcases tableAt_isSome_of_le hFound
          (show level + 1 ≤ k by omega) with
        ⟨below, hBelow⟩
      rw [tableAt_samePath tables root hOn.symm, tableAt_succ,
        hTable] at hBelow
      simp only [Option.bind_some, if_neg hStop] at hBelow
      cases hBelow
  · rw [hUpdate.tableAt_off hOn (by omega)]
    exact hFound

end SlotUpdate

end Vmm

end Whirliscope

------------------------------------------------------------
-- Linked Frames
------------------------------------------------------------

namespace Whirliscope

namespace Vmm

open ByteMemory

/- The first free frame becomes a table below an entry. -/
def Paging.link
    (s : Paging)
    (page : Nat)
    (rest : List Nat)
    (entry flags : Nat) : Paging :=
  (({ s with free := rest } : Paging).clear page).store entry
    (page ||| pteTableFlags ||| (flags &&& vmmUser))

/-
  Frames are linked one after the other below absent entries
  on the path of an address.
-/
inductive Linked
    (roots : List Nat)
    (root target flags : Nat) :
    Paging → Paging → Prop
| refl
    (s : Paging) :
    Linked roots root target flags s s
| link
    {s s' : Paging}
    {level table page : Nat}
    {rest : List Nat}
    (hForest : PageForest roots s)
    (hLevel : level < 3)
    (hTable :
      tableAt s.tables root target level = some table)
    (hAbsent :
      loadEntry s.tables
          (table + 8 * levelIndex target level) &&&
        vmmPresent = 0)
    (hPage : s.free = page :: rest)
    (hRest :
      Linked roots root target flags
        (s.link page rest
          (table + 8 * levelIndex target level) flags)
        s') :
    Linked roots root target flags s s'

/- The walk that creates tables links frames. -/
theorem walkLevelsCreate_linked
    {roots : List Nat}
    {root target flags targetShift : Nat}
    (hRoot : root ∈ roots)
    {shifts : List Nat}
    {level table : Nat}
    {s : Paging}
    (hShifts : shifts = [39, 30, 21, 12].drop level)
    (hForest : PageForest roots s)
    (hTable :
      tableAt s.tables root target level = some table)
    (hAhead :
      ∃ last, level ≤ last ∧ last < 4 ∧
        levelShift last = targetShift)
    (hLinkable : 0 < level ∨ Linkable roots root target s) :
    Linked roots root target flags s
      (walkLevelsCreate target flags targetShift shifts table
        s).2 := by
  induction shifts generalizing level table s with
  | nil => exact .refl s
  | cons shift shifts ih =>
      have hLevel : level < 4 := by
        by_contra hNot
        rw [List.drop_eq_nil_of_le
          (show [39, 30, 21, 12].length ≤ level by
            simp; omega)] at hShifts
        cases hShifts
      have hShift :
          shift = levelShift level ∧
            shifts = [39, 30, 21, 12].drop (level + 1) := by
        match level, hLevel with
        | 0, _ => cases hShifts; exact ⟨rfl, rfl⟩
        | 1, _ => cases hShifts; exact ⟨rfl, rfl⟩
        | 2, _ => cases hShifts; exact ⟨rfl, rfl⟩
        | 3, _ => cases hShifts; exact ⟨rfl, rfl⟩
      rcases hShift with ⟨rfl, hRest⟩
      have hIndex :
          tableIndex target (levelShift level) =
            levelIndex target level := rfl
      simp only [walkLevelsCreate, hIndex]
      by_cases hTarget : levelShift level = targetShift
      · rw [if_pos hTarget]
        exact .refl s
      rw [if_neg hTarget]
      have hBelow :
          ∃ last, level + 1 ≤ last ∧ last < 4 ∧
            levelShift last = targetShift := by
        rcases hAhead with ⟨last, hLe, hLast, hEq⟩
        refine ⟨last, ?_, hLast, hEq⟩
        rcases Nat.lt_or_eq_of_le hLe with hLt | rfl
        · exact hLt
        · exact absurd hEq hTarget
      have hInner : level < 3 := by
        rcases hBelow with ⟨last, hLe, hLast, -⟩
        omega
      by_cases hAbsent :
          loadEntry s.tables
              (table + 8 * levelIndex target level) &&&
            vmmPresent = 0
      · rw [if_pos hAbsent]
        simp only [ensureNextTable, hAbsent, ne_eq,
          not_true_eq_false, if_false]
        cases hFree : s.free with
        | nil =>
            simp only [pmmAllocPage, hFree, if_true]
            exact .refl s
        | cons page rest =>
            have hFrame :=
              hForest.free_frame page
                (by rw [hFree]; exact List.mem_cons_self)
            simp only [pmmAllocPage, hFree, if_neg hFrame.1]
            have hKeeps :
                KeepsShared roots root target level := by
              rcases hLinkable with
                hPos | hOnly | hPrivate | hPresent
              · exact .inl hPos
              · exact .inr (.inr hOnly)
              · exact .inr (.inl hPrivate)
              · refine .inl (Nat.pos_of_ne_zero ?_)
                rintro rfl
                cases hTable
                exact hPresent hAbsent
            rcases hForest.link hRoot hInner hTable hAbsent
                hFree hKeeps flags with
              ⟨hForest', -, -, -, hNext⟩
            exact .link hForest hInner hTable hAbsent hFree
              (ih hRest hForest' hNext hBelow
                (.inl (Nat.succ_pos level)))
      rw [if_neg hAbsent]
      by_cases hHuge :
          isHugeEntry
            (loadEntry s.tables
              (table + 8 * levelIndex target level))
            (levelShift level) = true
      · rw [if_pos hHuge]
        exact .refl s
      · rw [if_neg hHuge]
        apply ih hRest hForest _ hBelow
          (.inl (Nat.succ_pos level))
        rw [tableAt, hTable]
        exact if_pos ⟨hAbsent, by simpa using hHuge⟩

/- A frame that is a table below one of the roots. -/
def IsTableOf
    (roots : List Nat)
    (s : Paging)
    (page : Nat) : Prop :=
  ∃ root ∈ roots, ∃ virtualAddress level,
    level < 4 ∧
      tableAt s.tables root virtualAddress level = some page

/- Tables stay where they are. -/
def KeepsTables
    (roots : List Nat)
    (s s' : Paging) : Prop :=
  ∀ root ∈ roots, ∀ virtualAddress level table, level < 4 →
    tableAt s.tables root virtualAddress level =
        some table →
      tableAt s'.tables root virtualAddress level = some table

/- The frames that leave the free list become tables. -/
def UsesFree
    (roots : List Nat)
    (s s' : Paging) : Prop :=
  ∀ page ∈ s.free, page ∈ s'.free ∨ IsTableOf roots s' page

theorem KeepsTables.refl
    (roots : List Nat)
    (s : Paging) :
    KeepsTables roots s s :=
  fun _ _ _ _ _ _ hTable => hTable

theorem KeepsTables.trans
    {roots : List Nat}
    {s s' s'' : Paging}
    (hFirst : KeepsTables roots s s')
    (hSecond : KeepsTables roots s' s'') :
    KeepsTables roots s s'' :=
  fun root hRoot v level table hLevel hTable =>
    hSecond root hRoot v level table hLevel
      (hFirst root hRoot v level table hLevel hTable)

theorem KeepsTables.isTableOf
    {roots : List Nat}
    {s s' : Paging}
    (hKeeps : KeepsTables roots s s')
    {page : Nat}
    (hTable : IsTableOf roots s page) :
    IsTableOf roots s' page := by
  rcases hTable with ⟨root, hRoot, v, level, hLevel, hAt⟩
  exact ⟨root, hRoot, v, level, hLevel,
    hKeeps root hRoot v level page hLevel hAt⟩

theorem UsesFree.refl
    (roots : List Nat)
    (s : Paging) :
    UsesFree roots s s :=
  fun _ hPage => .inl hPage

theorem UsesFree.trans
    {roots : List Nat}
    {s s' s'' : Paging}
    (hFirst : UsesFree roots s s')
    (hSecond : UsesFree roots s' s'')
    (hKeeps : KeepsTables roots s' s'') :
    UsesFree roots s s'' := by
  intro page hPage
  rcases hFirst page hPage with hFree | hTable
  · exact hSecond page hFree
  · exact .inr (hKeeps.isTableOf hTable)

/- One link keeps the tables and makes its frame one. -/
theorem PageForest.link_tables
    {roots : List Nat}
    {s : Paging}
    (hForest : PageForest roots s)
    {root target level table page : Nat}
    {rest : List Nat}
    (hRoot : root ∈ roots)
    (hLevel : level < 3)
    (hTable :
      tableAt s.tables root target level = some table)
    (hAbsent :
      loadEntry s.tables
          (table + 8 * levelIndex target level) &&&
        vmmPresent = 0)
    (hPage : s.free = page :: rest)
    (flags : Nat) :
    let s' :=
      s.link page rest (table + 8 * levelIndex target level)
        flags
    KeepsTables roots s s' ∧ UsesFree roots s s' := by
  intro s'
  have hFrame :=
    hForest.free_frame page
      (by rw [hPage]; exact List.mem_cons_self)
  rcases tableEntry_facts hFrame flags level with
    ⟨-, hIsTable, hNext⟩
  have hStore :=
    (hForest.link_update hRoot hLevel hTable hPage flags).1
  constructor
  · intro other hOther v k found hk hFound
    by_cases hSees : Sees root target level other
    · exact ((hStore other hOther).1 hSees).tableAt_kept
        (by omega)
        (hForest.tableAt_of_sees hRoot hOther hTable hSees)
        (.inr fun h => h.1 hAbsent) hk hFound
    · exact (((hStore other hOther).2 hSees).tableAt_eq v
        (Nat.le_of_lt hk)).trans hFound
  · intro frame hMem
    rw [hPage] at hMem
    rcases List.mem_cons.mp hMem with rfl | hRest
    · refine .inr ⟨root, hRoot, target, level + 1, by omega,
        ?_⟩
      have hOn : SamePath target target (level + 1) :=
        fun _ _ => rfl
      exact (((hStore root hRoot).1 (.inl rfl)).tableAt_on hOn
        (by omega) hTable).trans
          (by rw [if_pos hIsTable, hNext])
    · exact .inl hRest

theorem Linked.tables
    {roots : List Nat}
    {root target flags : Nat}
    {s s' : Paging}
    (hLinked : Linked roots root target flags s s')
    (hRoot : root ∈ roots) :
    KeepsTables roots s s' ∧ UsesFree roots s s' := by
  induction hLinked with
  | refl s => exact ⟨.refl roots s, .refl roots s⟩
  | link hForest hLevel hTable hAbsent hPage _ ih =>
      have hStep :=
        hForest.link_tables hRoot hLevel hTable hAbsent hPage
          flags
      exact ⟨hStep.1.trans ih.1,
        hStep.2.trans ih.2 ih.1⟩

/-
  A call that maps a small page: links, and then a store to
  an absent entry of the last level if it succeeds.
-/
inductive MapsPage
    (roots : List Nat)
    (root target physical flags : Nat)
    (s : Paging) :
    Bool → Paging → Prop
| refused
    {middle : Paging}
    (hForest : PageForest roots middle)
    (hLinked : Linked roots root target flags s middle) :
    MapsPage roots root target physical flags s false middle
| stored
    {middle : Paging}
    {table : Nat}
    (hForest : PageForest roots middle)
    (hLinked : Linked roots root target flags s middle)
    (hTable :
      tableAt middle.tables root target 3 = some table)
    (hAbsent :
      loadEntry middle.tables
          (table + 8 * levelIndex target 3) &&&
        vmmPresent = 0)
    (hAligned :
      target % 4096 = 0 ∧ physical % 4096 = 0) :
    MapsPage roots root target physical flags s true
      (middle.store (table + 8 * levelIndex target 3)
        (leafEntry physical flags 12))

theorem mapAtLevelInRoot_mapsPage
    {roots : List Nat}
    {root target physical flags : Nat}
    {s : Paging}
    (hRoot : root ∈ roots)
    (hForest : PageForest roots s)
    (hLinkable : Linkable roots root target s) :
    let call :=
      mapAtLevelInRoot root target physical pageSize 12 flags s
    MapsPage roots root target physical flags s call.1
      call.2 := by
  have hAhead :
      ∃ last, 0 ≤ last ∧ last < 4 ∧ levelShift last = 12 :=
    ⟨3, by decide, by decide, rfl⟩
  have hTop : tableAt s.tables root target 0 = some root := rfl
  have hLinked :
      Linked roots root target flags s
        (walkToLevelCreate root target flags 12 s).2 :=
    walkLevelsCreate_linked hRoot rfl hForest hTop hAhead
      (.inr hLinkable)
  have hWalk :
      WalkOutcome roots root target 12 s
        (walkToLevelCreate root target flags 12 s).1
        (walkToLevelCreate root target flags 12 s).2 :=
    walkLevelsCreate_outcome hRoot rfl hForest hTop hAhead
      (.inr hLinkable)
  have hMask :
      ∀ value, value &&& (pageSize - 1) = value % 4096 :=
    fun value => Nat.and_two_pow_sub_one_eq_mod value 12
  simp only [mapAtLevelInRoot, addressesAreAligned, hMask]
  by_cases hAligned : target % 4096 = 0 ∧ physical % 4096 = 0
  · rw [if_neg (by simp [hAligned])]
    cases hResult :
        walkToLevelCreate root target flags 12 s with
    | mk result middle =>
        rw [hResult] at hWalk hLinked
        cases result with
        | none => exact .refused hWalk.forest hLinked
        | some mapping =>
            rcases hWalk.arrives mapping rfl with
              ⟨level, table, hLevel, hShift, hTable, rfl⟩
            have hLast : level = 3 := by
              unfold levelShift at hShift
              omega
            subst hLast
            by_cases hAbsent :
                loadEntry middle.tables
                    (table + 8 * levelIndex target 3) &&&
                  vmmPresent = 0
            · simp only [ne_eq, not_true_eq_false, hAbsent,
                or_self, if_false]
              exact .stored hWalk.forest hLinked hTable hAbsent
                hAligned
            · simp only [ne_eq, hAbsent, not_false_eq_true,
                or_true, if_true]
              exact .refused hWalk.forest hLinked
  · have hNot :
        (!(target % 4096 == 0 && physical % 4096 == 0)) =
          true := by
      rw [Bool.not_eq_true', Bool.eq_false_iff]
      simpa using hAligned
    rw [if_pos hNot]
    exact .refused hForest (.refl s)

end Vmm

end Whirliscope

------------------------------------------------------------
-- Tables Stay, and Frames Suffice
------------------------------------------------------------

namespace Whirliscope

namespace Vmm

open ByteMemory

/- An entry of the last level leads to no table. -/
theorem PageForest.store_last_tables
    {roots : List Nat}
    {s : Paging}
    (hForest : PageForest roots s)
    {root target table : Nat}
    (hRoot : root ∈ roots)
    (hTable : tableAt s.tables root target 3 = some table)
    (value : Nat) :
    KeepsTables roots s
      (s.store (table + 8 * levelIndex target 3) value) := by
  intro other hOther v k found hk hFound
  have hStore :=
    hForest.slotUpdate hRoot hOther (by decide) hTable
      (fun _ _ _ _ _ => rfl) value
  by_cases hSees : Sees root target 3 other
  · exact (hStore.1 hSees).tableAt_kept (by decide)
      (hForest.tableAt_of_sees hRoot hOther hTable hSees)
      (.inl rfl) hk hFound
  · exact ((hStore.2 hSees).tableAt_eq v
      (Nat.le_of_lt hk)).trans hFound

/- Mapping a page takes frames for tables only. -/
theorem mapAtLevelInRoot_tables
    {roots : List Nat}
    {root target physical flags : Nat}
    {s : Paging}
    (hRoot : root ∈ roots)
    (hForest : PageForest roots s)
    (hLinkable : Linkable roots root target s) :
    let call :=
      mapAtLevelInRoot root target physical pageSize 12 flags s
    KeepsTables roots s call.2 ∧ UsesFree roots s call.2 := by
  intro call
  have hMaps : MapsPage roots root target physical flags s
      call.1 call.2 :=
    mapAtLevelInRoot_mapsPage hRoot hForest hLinkable
  generalize call.1 = ok, call.2 = after at hMaps
  cases hMaps with
  | refused _ hLinked => exact hLinked.tables hRoot
  | stored hMiddle hLinked hTable =>
      have hLinks := hLinked.tables hRoot
      have hStore :=
        hMiddle.store_last_tables hRoot hTable
          (leafEntry physical flags 12)
      exact ⟨hLinks.1.trans hStore,
        hLinks.2.trans (fun _ hFree => .inl hFree) hStore⟩

/- Unmapping a small page keeps the tables. -/
theorem vmmUnmapPage_tables
    {roots : List Nat}
    {root target physical : Nat}
    {s : Paging}
    (hRoot : root ∈ roots)
    (hForest : PageForest roots s)
    (hLeaf :
      leafOf s.tables root target = some ⟨physical, 12⟩)
    (hAligned : target % 4096 = 0) :
    (vmmUnmapPage root target s).1 = true ∧
      KeepsTables roots s (vmmUnmapPage root target s).2 := by
  rcases exists_ends s.tables root target with
    ⟨level, table, hEnds⟩
  have hWalk := walkToExistingMapping_of_ends hEnds
  rw [leafOf, hWalk] at hLeaf
  dsimp only at hWalk hLeaf
  split at hLeaf
  · cases hLeaf
  rename_i hPresent
  rw [if_neg hPresent] at hWalk
  have hShift : levelShift level = 12 := by
    have hBoth := Option.some.inj hLeaf
    exact congrArg Leaf.shift hBoth
  have hLast : level = 3 := by
    have hLevel := hEnds.1
    unfold levelShift at hShift
    omega
  subst hLast
  have hMask : target &&& (pageSize - 1) = 0 :=
    (Nat.and_two_pow_sub_one_eq_mod target 12).trans hAligned
  unfold vmmUnmapPage
  rw [if_neg (fun hNot => hNot hMask), hWalk]
  dsimp only
  rw [if_neg (fun hNot => hNot.1 hShift)]
  exact ⟨rfl, hForest.store_last_tables hRoot hEnds.2.1 0⟩

/- A step of the walk that creates tables. -/
theorem walkLevelsCreate_cons
    (target flags table : Nat)
    (s : Paging)
    {shift : Nat}
    (hShift : shift ≠ 12)
    (shifts : List Nat) :
    walkLevelsCreate target flags 12 (shift :: shifts) table s =
      let slot := table + 8 * tableIndex target shift
      let entry := loadEntry s.tables slot
      if entry &&& vmmPresent = 0 then
        match s.free with
        | [] => (none, s)
        | page :: rest =>
            if page = 0 then
              (none, { s with free := rest })
            else
              walkLevelsCreate target flags 12 shifts page
                (s.link page rest slot flags)
      else if isHugeEntry entry shift then
        (none, s)
      else
        walkLevelsCreate target flags 12 shifts
          (entryToTable entry) s := by
  simp only [walkLevelsCreate, if_neg hShift]
  split_ifs with hAbsent
  · simp only [ensureNextTable, hAbsent, ne_eq,
      not_true_eq_false, if_false]
    cases hFree : s.free with
    | nil => simp only [pmmAllocPage, hFree, if_true]
    | cons page rest =>
        simp only [pmmAllocPage, hFree]
        split_ifs <;> rfl
  · rfl
  · rfl

/- One level of the walk that creates tables. -/
theorem walkLevelsCreate_of_lt
    (target flags table : Nat)
    (s : Paging)
    {level : Nat}
    (hLevel : level < 3) :
    walkLevelsCreate target flags 12
        ([39, 30, 21, 12].drop level) table s =
      let slot := table + 8 * levelIndex target level
      let entry := loadEntry s.tables slot
      if entry &&& vmmPresent = 0 then
        match s.free with
        | [] => (none, s)
        | page :: rest =>
            if page = 0 then
              (none, { s with free := rest })
            else
              walkLevelsCreate target flags 12
                ([39, 30, 21, 12].drop (level + 1)) page
                (s.link page rest slot flags)
      else if isHugeEntry entry (levelShift level) then
        (none, s)
      else
        walkLevelsCreate target flags 12
          ([39, 30, 21, 12].drop (level + 1))
          (entryToTable entry) s := by
  have hCases : level = 0 ∨ level = 1 ∨ level = 2 := by omega
  rcases hCases with rfl | rfl | rfl
  · exact walkLevelsCreate_cons target flags table s
      (by decide) [30, 21, 12]
  · exact walkLevelsCreate_cons target flags table s
      (by decide) [21, 12]
  · exact walkLevelsCreate_cons target flags table s
      (by decide) [12]

/- A large page in the way of a walk is a mapping. -/
theorem leafOf_of_huge
    {tables : Bytes}
    {root target level table : Nat}
    (hLevel : level < 4)
    (hTable : tableAt tables root target level = some table)
    (hPresent :
      loadEntry tables
          (table + 8 * levelIndex target level) &&&
        vmmPresent ≠ 0)
    (hHuge :
      isHugeEntry
          (loadEntry tables
            (table + 8 * levelIndex target level))
          (levelShift level) = true) :
    leafOf tables root target ≠ none := by
  have hEnds : Ends tables root target level table := by
    refine ⟨hLevel, hTable, .inr ?_⟩
    rintro ⟨-, hNot⟩
    rw [hHuge] at hNot
    cases hNot
  rw [leafOf_of_ends hEnds]
  dsimp only
  rw [if_neg hPresent]
  exact Option.some_ne_none _

/- One frame for each level below suffices for the walk. -/
theorem walkLevelsCreate_succeeds
    {roots : List Nat}
    {root target flags : Nat}
    (hRoot : root ∈ roots)
    {below level table : Nat}
    {s : Paging}
    (hLevel : level + below = 3)
    (hForest : PageForest roots s)
    (hTable :
      tableAt s.tables root target level = some table)
    (hLinkable : 0 < level ∨ Linkable roots root target s)
    (hNone : leafOf s.tables root target = none)
    (hRoom : below ≤ s.free.length) :
    let walk :=
      walkLevelsCreate target flags 12
        ([39, 30, 21, 12].drop level) table s
    walk.1.isSome ∧
      s.free.length ≤ walk.2.free.length + below := by
  induction below generalizing level table s with
  | zero =>
      have hLast : level = 3 := hLevel
      subst hLast
      exact ⟨rfl, Nat.le_refl _⟩
  | succ below ih =>
      have hInner : level < 3 := by omega
      intro walk
      have hWalk := walkLevelsCreate_of_lt target flags table s
        hInner
      change walk = _ at hWalk
      dsimp only at hWalk
      split at hWalk
      · rename_i hAbsent
        cases hFree : s.free with
        | nil =>
            rw [hFree] at hRoom
            exact absurd hRoom (Nat.not_succ_le_zero below)
        | cons page rest =>
            have hFrame :=
              hForest.free_frame page
                (by rw [hFree]; exact List.mem_cons_self)
            have hKeeps :
                KeepsShared roots root target level := by
              rcases hLinkable with
                hPos | hOnly | hPrivate | hPresent
              · exact .inl hPos
              · exact .inr (.inr hOnly)
              · exact .inr (.inl hPrivate)
              · refine .inl (Nat.pos_of_ne_zero ?_)
                rintro rfl
                cases hTable
                exact hPresent hAbsent
            rcases hForest.link hRoot hInner hTable hAbsent
                hFree hKeeps flags with
              ⟨hForest', hLeaves, -, -, hNext⟩
            rw [hFree] at hWalk hRoom
            dsimp only at hWalk
            rw [if_neg hFrame.1] at hWalk
            have hRest :=
              ih (Nat.add_right_comm level 1 below ▸ hLevel)
                hForest' hNext (.inl (Nat.succ_pos level))
                ((hLeaves root hRoot target).trans hNone)
                (Nat.le_of_succ_le_succ hRoom)
            rw [hWalk]
            refine ⟨hRest.1, ?_⟩
            rw [List.length_cons]
            exact Nat.succ_le_succ hRest.2
      · rename_i hPresent
        split at hWalk
        · rename_i hHuge
          exact absurd hNone
            (leafOf_of_huge (by omega) hTable hPresent hHuge)
        · rename_i hSmall
          have hNext :
              tableAt s.tables root target (level + 1) =
                some
                  (entryToTable
                    (loadEntry s.tables
                      (table + 8 * levelIndex target level))) := by
            have hIsTable :
                IsTable
                  (loadEntry s.tables
                    (table + 8 * levelIndex target level))
                  level :=
              ⟨hPresent, Bool.eq_false_iff.mpr hSmall⟩
            rw [tableAt_succ, hTable, Option.bind_some]
            dsimp only
            rw [if_pos hIsTable]
          have hRest :=
            ih (Nat.add_right_comm level 1 below ▸ hLevel)
              hForest hNext (.inl (Nat.succ_pos level)) hNone
              (Nat.le_of_succ_le hRoom)
          rw [hWalk]
          exact ⟨hRest.1, Nat.le_succ_of_le hRest.2⟩

/- Three frames suffice to map a page that is not mapped. -/
theorem mapAtLevelInRoot_succeeds
    {roots : List Nat}
    {root target physical flags : Nat}
    {s : Paging}
    (hRoot : root ∈ roots)
    (hForest : PageForest roots s)
    (hLinkable : Linkable roots root target s)
    (hNone : leafOf s.tables root target = none)
    (hAligned : target % 4096 = 0 ∧ physical % 4096 = 0)
    (hRoom : 3 ≤ s.free.length) :
    let call :=
      mapAtLevelInRoot root target physical pageSize 12 flags s
    call.1 = true ∧
      s.free.length ≤ call.2.free.length + 3 := by
  have hTop : tableAt s.tables root target 0 = some root := rfl
  have hWalk :
      WalkOutcome roots root target 12 s
        (walkToLevelCreate root target flags 12 s).1
        (walkToLevelCreate root target flags 12 s).2 :=
    walkLevelsCreate_outcome hRoot rfl hForest hTop
      ⟨3, by decide, by decide, rfl⟩ (.inr hLinkable)
  have hSucceeds :
      (walkToLevelCreate root target flags 12 s).1.isSome ∧
        s.free.length ≤
          (walkToLevelCreate root target flags 12
            s).2.free.length + 3 :=
    walkLevelsCreate_succeeds hRoot rfl hForest hTop
      (.inr hLinkable) hNone hRoom
  have hMask :
      ∀ value, value &&& (pageSize - 1) = value % 4096 :=
    fun value => Nat.and_two_pow_sub_one_eq_mod value 12
  simp only [mapAtLevelInRoot, addressesAreAligned, hMask,
    hAligned.1, hAligned.2]
  cases hResult : walkToLevelCreate root target flags 12 s with
  | mk result middle =>
      rw [hResult] at hWalk hSucceeds
      rcases Option.isSome_iff_exists.mp hSucceeds.1 with
        ⟨mapping, rfl⟩
      rcases hWalk.arrives mapping rfl with
        ⟨level, table, hLevel, hShift, hTable, rfl⟩
      have hLast : level = 3 := by
        unfold levelShift at hShift
        omega
      subst hLast
      have hAbsent :
          loadEntry middle.tables
              (table + 8 * levelIndex target 3) &&&
            vmmPresent = 0 := by
        have hLeaf :=
          (hWalk.leaves root hRoot target).trans hNone
        rw [leafOf_of_ends
          (⟨by decide, hTable, .inl rfl⟩ :
            Ends middle.tables root target 3 table)] at hLeaf
        by_contra hPresent
        dsimp only at hLeaf
        rw [if_neg hPresent] at hLeaf
        cases hLeaf
      simp only [ne_eq, not_true_eq_false, hAbsent, or_self,
        if_false]
      exact ⟨rfl, hSucceeds.2⟩

end Vmm

end Whirliscope
