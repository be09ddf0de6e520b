import Mathlib.Data.Nat.Bitwise
import Whirliscope.Memory.PageMapping

/-
  Page tables as a partial function on addresses.

  The tables of a space form a tree: no frame is reached on
  two paths, and no table is on the free list. A store to one
  entry then changes the translation of exactly the addresses
  whose walk passes through that entry.

  Key definitions include:
    * `tableAt`, `SamePath`
    * `PageTree`
    * `leafOf`, `specStep`

  Main theorem:
    * `runPageCalls_refines`
-/

------------------------------------------------------------
-- Levels and Paths
------------------------------------------------------------

namespace Whirliscope

namespace Vmm

open ByteMemory

/- The shift of a level, from the root down. -/
def levelShift
    (level : Nat) : Nat :=
  39 - 9 * level

/- The index of an address in its table at a level. -/
def levelIndex
    (virtualAddress level : Nat) : Nat :=
  tableIndex virtualAddress (levelShift level)

/- The walk goes on below this entry. -/
def IsTable
    (entry level : Nat) : Prop :=
  entry &&& vmmPresent ≠ 0 ∧
    isHugeEntry entry (levelShift level) = false

instance
    (entry level : Nat) :
    Decidable (IsTable entry level) :=
  inferInstanceAs (Decidable (_ ∧ _))

/- The table that the walk of an address meets at a level. -/
def tableAt
    (tables : Bytes)
    (root virtualAddress : Nat) : Nat → Option Nat
| 0 => some root
| level + 1 =>
    match tableAt tables root virtualAddress level with
    | none => none
    | some table =>
        let entry :=
          loadEntry tables
            (table + 8 * levelIndex virtualAddress level)
        if IsTable entry level then
          some (entryToTable entry)
        else
          none

theorem tableAt_succ
    (tables : Bytes)
    (root virtualAddress level : Nat) :
    tableAt tables root virtualAddress (level + 1) =
      (tableAt tables root virtualAddress level).bind
        fun table =>
          let entry :=
            loadEntry tables
              (table + 8 * levelIndex virtualAddress level)
          if IsTable entry level then
            some (entryToTable entry)
          else
            none := by
  rw [tableAt]
  cases tableAt tables root virtualAddress level <;> rfl

/- The walks of two addresses take the same entries. -/
def SamePath
    (left right level : Nat) : Prop :=
  ∀ k, k < level → levelIndex left k = levelIndex right k

instance
    (left right level : Nat) :
    Decidable (SamePath left right level) :=
  inferInstanceAs
    (Decidable
      (∀ k, k < level →
        levelIndex left k = levelIndex right k))

theorem SamePath.symm
    {left right level : Nat}
    (hSame : SamePath left right level) :
    SamePath right left level :=
  fun k hk => (hSame k hk).symm

theorem SamePath.mono
    {left right level lower : Nat}
    (hSame : SamePath left right level)
    (hLower : lower ≤ level) :
    SamePath left right lower :=
  fun k hk => hSame k (by omega)

theorem SamePath.succ
    {left right level : Nat}
    (hSame : SamePath left right level)
    (hIndex : levelIndex left level = levelIndex right level) :
    SamePath left right (level + 1) := by
  intro k hk
  rcases Nat.lt_succ_iff_lt_or_eq.mp hk with hLt | rfl
  · exact hSame k hLt
  · exact hIndex

theorem levelIndex_lt
    (virtualAddress level : Nat) :
    levelIndex virtualAddress level < 512 := by
  have hMask :
      levelIndex virtualAddress level =
        (virtualAddress >>> levelShift level) % 2 ^ 9 := by
    rw [← Nat.and_two_pow_sub_one_eq_mod]
    rfl
  omega

theorem levelIndex_eq
    (virtualAddress level : Nat) :
    levelIndex virtualAddress level =
      virtualAddress / 2 ^ levelShift level % 512 := by
  rw [levelIndex, tableIndex, Nat.shiftRight_eq_div_pow]
  exact Nat.and_two_pow_sub_one_eq_mod _ 9

/- A table address is the address of a frame. -/
theorem entryToTable_mod
    (entry : Nat) :
    entryToTable entry % 4096 = 0 := by
  have hMask : pteAddrMask = 0xffffffffff <<< 12 := by
    decide
  rw [entryToTable, hMask, and_shiftLeft_eq,
    Nat.shiftLeft_eq]
  omega

theorem tableAt_mod
    {tables : Bytes}
    {root virtualAddress level table : Nat}
    (hRoot : root % 4096 = 0)
    (hTable :
      tableAt tables root virtualAddress level =
        some table) :
    table % 4096 = 0 := by
  cases level with
  | zero =>
      cases hTable
      exact hRoot
  | succ level =>
      rw [tableAt] at hTable
      split at hTable
      · cases hTable
      · simp only at hTable
        split_ifs at hTable
        cases hTable
        exact entryToTable_mod _

/- Same entries on the way, same tables. -/
theorem tableAt_congr
    {tables tables' : Bytes}
    {root left right level : Nat}
    (hPath : SamePath left right level)
    (hSame :
      ∀ k table, k < level →
        tableAt tables root left k = some table →
          loadEntry tables'
              (table + 8 * levelIndex right k) =
            loadEntry tables
              (table + 8 * levelIndex left k)) :
    tableAt tables' root right level =
      tableAt tables root left level := by
  induction level with
  | zero => rfl
  | succ level ih =>
      have hAbove :=
        ih (hPath.mono (by omega))
          (fun k table hk => hSame k table (by omega))
      rw [tableAt, tableAt, hAbove]
      cases hTable : tableAt tables root left level with
      | none => rfl
      | some table =>
          simp only [hSame level table (by omega) hTable]

/- Addresses on one path share their tables. -/
theorem tableAt_samePath
    (tables : Bytes)
    (root : Nat)
    {left right level : Nat}
    (hPath : SamePath left right level) :
    tableAt tables root right level =
      tableAt tables root left level :=
  tableAt_congr hPath
    (fun k table hk _ => by rw [hPath k hk])

theorem tableAt_isSome_of_le
    {tables : Bytes}
    {root virtualAddress level lower table : Nat}
    (hTable :
      tableAt tables root virtualAddress level = some table)
    (hLower : lower ≤ level) :
    ∃ above,
      tableAt tables root virtualAddress lower =
        some above := by
  induction level generalizing table with
  | zero =>
      rw [Nat.le_zero.mp hLower]
      exact ⟨root, rfl⟩
  | succ level ih =>
      rcases Nat.le_succ_iff.mp hLower with hLe | rfl
      · cases hAbove :
            tableAt tables root virtualAddress level with
        | none =>
            rw [tableAt, hAbove] at hTable
            cases hTable
        | some above => exact ih hAbove hLe
      · exact ⟨table, hTable⟩

end Vmm

end Whirliscope

------------------------------------------------------------
-- Leaves
------------------------------------------------------------

namespace Whirliscope

namespace Vmm

open ByteMemory

/- A mapping: a physical address and the size of its page. -/
structure Leaf where
  physical : Nat
  shift : Nat
deriving DecidableEq, Repr

/- The walk ends at this entry with a page. -/
def IsLeaf
    (entry level : Nat) : Prop :=
  entry &&& vmmPresent ≠ 0 ∧
    (level = 3 ∨
      isHugeEntry entry (levelShift level) = true)

/- What an entry maps an address to. -/
def leafFrom
    (entry shift virtualAddress : Nat) : Leaf where
  physical :=
    (entry &&& addressMask shift) |||
      (virtualAddress &&& (2 ^ shift - 1))
  shift := shift

/- The mapping of an address, with the size of its page. -/
def leafOf
    (tables : Bytes)
    (root virtualAddress : Nat) : Option Leaf :=
  (walkToExistingMapping tables root virtualAddress).map
    fun mapping =>
      leafFrom (loadEntry tables mapping.entry)
        mapping.shift virtualAddress

theorem vmmVirtToPhys_eq_leafOf
    (tables : Bytes)
    (root virtualAddress : Nat) :
    vmmVirtToPhys tables root virtualAddress =
      (leafOf tables root virtualAddress).map
        Leaf.physical := by
  rw [vmmVirtToPhys, leafOf, Option.map_map]
  rfl

/- The walk from a table of a level on. -/
def walkFrom
    (tables : Bytes)
    (virtualAddress level table : Nat) :
    Option VmmMapping :=
  walkLevels tables virtualAddress 12
    ([39, 30, 21, 12].drop level) table

theorem walkFrom_of_lt
    (tables : Bytes)
    (virtualAddress table : Nat)
    {level : Nat}
    (hLevel : level < 3) :
    walkFrom tables virtualAddress level table =
      let slot := table + 8 * levelIndex virtualAddress level
      if loadEntry tables slot &&& vmmPresent = 0 then none
      else if isHugeEntry (loadEntry tables slot)
          (levelShift level) then
        some ⟨slot, levelShift level⟩
      else
        walkFrom tables virtualAddress (level + 1)
          (entryToTable (loadEntry tables slot)) := by
  match level, hLevel with
  | 0, _ => rfl
  | 1, _ => rfl
  | 2, _ => rfl

theorem walkFrom_last
    (tables : Bytes)
    (virtualAddress table : Nat) :
    walkFrom tables virtualAddress 3 table =
      some ⟨table + 8 * levelIndex virtualAddress 3, 12⟩ :=
  rfl

/- The walk passes through the tables of an address. -/
theorem walkToLevelInRoot_of_tableAt
    {tables : Bytes}
    {root virtualAddress level table : Nat}
    (hTable :
      tableAt tables root virtualAddress level =
        some table)
    (hLevel : level < 4) :
    walkToLevelInRoot tables root virtualAddress 12 =
      walkFrom tables virtualAddress level table := by
  induction level generalizing table with
  | zero =>
      cases hTable
      rfl
  | succ level ih =>
      rw [tableAt] at hTable
      split at hTable
      · cases hTable
      · next above hAbove =>
          simp only at hTable
          split_ifs at hTable with hIsTable
          cases hTable
          rw [ih hAbove (by omega),
            walkFrom_of_lt _ _ _ (by omega)]
          simp [hIsTable.1, hIsTable.2]

/- Where the walk of an address ends. -/
def Ends
    (tables : Bytes)
    (root virtualAddress level table : Nat) : Prop :=
  level < 4 ∧
    tableAt tables root virtualAddress level = some table ∧
    (level = 3 ∨
      ¬ IsTable
        (loadEntry tables
          (table + 8 * levelIndex virtualAddress level))
        level)

theorem exists_ends
    (tables : Bytes)
    (root virtualAddress : Nat) :
    ∃ level table,
      Ends tables root virtualAddress level table := by
  have hStep :
      ∀ level, level < 4 →
        (∃ lower table,
          Ends tables root virtualAddress lower table) ∨
        ∃ table,
          tableAt tables root virtualAddress level =
            some table := by
    intro level
    induction level with
    | zero => exact fun _ => .inr ⟨root, rfl⟩
    | succ level ih =>
        intro hLevel
        rcases ih (by omega) with hEnds | ⟨table, hTable⟩
        · exact .inl hEnds
        · by_cases hIsTable :
              IsTable
                (loadEntry tables
                  (table + 8 * levelIndex virtualAddress
                    level))
                level
          · exact .inr
              ⟨_, by rw [tableAt, hTable]; exact if_pos hIsTable⟩
          · exact .inl
              ⟨level, table, by omega, hTable, .inr hIsTable⟩
  rcases hStep 3 (by omega) with hEnds | ⟨table, hTable⟩
  · exact hEnds
  · exact ⟨3, table, by omega, hTable, .inl rfl⟩

/- The last entry of a walk decides where it arrives. -/
theorem walkToExistingMapping_of_ends
    {tables : Bytes}
    {root virtualAddress level table : Nat}
    (hEnds : Ends tables root virtualAddress level table) :
    walkToExistingMapping tables root virtualAddress =
      let slot := table + 8 * levelIndex virtualAddress level
      if loadEntry tables slot &&& vmmPresent = 0 then none
      else some ⟨slot, levelShift level⟩ := by
  rcases hEnds with ⟨hLevel, hTable, hLast⟩
  unfold walkToExistingMapping
  rw [walkToLevelInRoot_of_tableAt hTable hLevel]
  by_cases hThree : level = 3
  · subst hThree
    rw [walkFrom_last]
    by_cases hPresent :
        loadEntry tables
          (table + 8 * levelIndex virtualAddress 3) &&&
            vmmPresent = 0
    · simp [hPresent, Option.filter]
    · simp [hPresent, Option.filter, levelShift]
  · have hNot := hLast.resolve_left hThree
    rw [walkFrom_of_lt _ _ _ (by omega)]
    by_cases hPresent :
        loadEntry tables
          (table + 8 * levelIndex virtualAddress level) &&&
            vmmPresent = 0
    · simp [hPresent, Option.filter]
    · have hHuge :
          isHugeEntry
            (loadEntry tables
              (table + 8 * levelIndex virtualAddress level))
            (levelShift level) = true := by
        by_contra hSmall
        exact hNot ⟨hPresent, by simpa using hSmall⟩
      simp [hPresent, hHuge, Option.filter]

/- The last entry of a walk decides the mapping. -/
theorem leafOf_of_ends
    {tables : Bytes}
    {root virtualAddress level table : Nat}
    (hEnds : Ends tables root virtualAddress level table) :
    leafOf tables root virtualAddress =
      let entry :=
        loadEntry tables
          (table + 8 * levelIndex virtualAddress level)
      if entry &&& vmmPresent = 0 then none
      else
        some (leafFrom entry (levelShift level)
          virtualAddress) := by
  unfold leafOf
  rw [walkToExistingMapping_of_ends hEnds]
  simp only
  split_ifs <;> rfl

/- A page is found below the root. -/
theorem Ends.level_of_present
    {tables : Bytes}
    {root virtualAddress level table : Nat}
    (hEnds : Ends tables root virtualAddress level table)
    (hPresent :
      loadEntry tables
          (table + 8 * levelIndex virtualAddress level) &&&
        vmmPresent ≠ 0) :
    level = 1 ∨ level = 2 ∨ level = 3 := by
  rcases hEnds with ⟨hLevel, -, hLast⟩
  by_contra hOther
  have hZero : level = 0 := by omega
  subst hZero
  apply hLast.resolve_left (by omega)
  exact ⟨hPresent, rfl⟩

end Vmm

end Whirliscope

------------------------------------------------------------
-- Trees of Tables
------------------------------------------------------------

namespace Whirliscope

namespace Vmm

open ByteMemory

/- A frame that the allocator may hand out. -/
def IsFrame
    (page : Nat) : Prop :=
  page ≠ 0 ∧ page % 4096 = 0 ∧ page < 2 ^ 52

instance
    (page : Nat) :
    Decidable (IsFrame page) :=
  inferInstanceAs (Decidable (_ ∧ _ ∧ _))

/-
  The tables below `root` are pairwise distinct frames, and
  none of them is on the free list.
-/
structure PageTree
    (root : Nat)
    (s : Paging) : Prop where
  root_mod : root % 4096 = 0
  distinct :
    ∀ left right level level' table,
      level < 4 → level' < 4 →
      tableAt s.tables root left level = some table →
      tableAt s.tables root right level' = some table →
        level = level' ∧ SamePath left right level
  not_free :
    ∀ virtualAddress level table, level < 4 →
      tableAt s.tables root virtualAddress level =
          some table →
        table ∉ s.free
  free_nodup : s.free.Nodup
  free_frame : ∀ page ∈ s.free, IsFrame page

/- An address of the half that all spaces share. -/
def Shared
    (virtualAddress : Nat) : Prop :=
  256 ≤ levelIndex virtualAddress 0

/-
  The tables below several roots. Two roots have a table in
  common only below the entries of the shared half, which
  are the same in every root.
-/
structure PageForest
    (roots : List Nat)
    (s : Paging) : Prop where
  root_mod : ∀ root ∈ roots, root % 4096 = 0
  distinct :
    ∀ root root' left right level level' table,
      root ∈ roots → root' ∈ roots →
      level < 4 → level' < 4 →
      tableAt s.tables root left level = some table →
      tableAt s.tables root' right level' = some table →
        level = level' ∧ SamePath left right level ∧
          (root = root' ∨ (0 < level ∧ Shared left))
  shared :
    ∀ root root' virtualAddress,
      root ∈ roots → root' ∈ roots → Shared virtualAddress →
        loadEntry s.tables
            (root + 8 * levelIndex virtualAddress 0) =
          loadEntry s.tables
            (root' + 8 * levelIndex virtualAddress 0)
  not_free :
    ∀ root virtualAddress level table,
      root ∈ roots → level < 4 →
      tableAt s.tables root virtualAddress level =
          some table →
        table ∉ s.free
  free_nodup : s.free.Nodup
  free_frame : ∀ page ∈ s.free, IsFrame page

/- One tree is a forest with one root. -/
theorem pageTree_iff_forest
    (root : Nat)
    (s : Paging) :
    PageTree root s ↔ PageForest [root] s := by
  constructor
  · intro hTree
    refine
      { root_mod := ?_, distinct := ?_, shared := ?_,
        not_free := ?_, free_nodup := hTree.free_nodup,
        free_frame := hTree.free_frame }
    · intro r hr
      rw [List.mem_singleton.mp hr]
      exact hTree.root_mod
    · intro r r' left right level level' table hr hr'
      rw [List.mem_singleton.mp hr, List.mem_singleton.mp hr']
      intro hLevel hLevel' hLeft hRight
      rcases hTree.distinct left right level level' table
          hLevel hLevel' hLeft hRight with ⟨hEq, hPath⟩
      exact ⟨hEq, hPath, .inl rfl⟩
    · intro r r' v hr hr' _
      rw [List.mem_singleton.mp hr, List.mem_singleton.mp hr']
    · intro r v level table hr
      rw [List.mem_singleton.mp hr]
      exact hTree.not_free v level table
  · intro hForest
    have hMem : root ∈ [root] := List.mem_singleton.mpr rfl
    refine
      { root_mod := hForest.root_mod root hMem
        distinct := ?_
        not_free := fun v level table =>
          hForest.not_free root v level table hMem
        free_nodup := hForest.free_nodup
        free_frame := hForest.free_frame }
    intro left right level level' table hLevel hLevel' hLeft
      hRight
    rcases hForest.distinct root root left right level level'
        table hMem hMem hLevel hLevel' hLeft hRight with
      ⟨hEq, hPath, _⟩
    exact ⟨hEq, hPath⟩

theorem loadEntry_lt
    (tables : Bytes)
    (entry : Nat) :
    loadEntry tables entry < 2 ^ 64 :=
  getLE_lt tables entry 8

theorem loadEntry_store_same
    (tables : Bytes)
    (entry value : Nat) :
    loadEntry (storeEntry tables entry value) entry =
      value % 2 ^ 64 :=
  getLE_putLE_same tables entry 8 value

theorem loadEntry_store_of_ne
    {tables : Bytes}
    {entry other value : Nat}
    (hNe : other ≠ entry)
    (hEntry : entry % 8 = 0)
    (hOther : other % 8 = 0) :
    loadEntry (storeEntry tables entry value) other =
      loadEntry tables other :=
  getLE_putLE_of_disjoint (by omega)

/- Entries of other frames survive the clearing of a frame. -/
theorem loadEntry_clear_of_ne
    {tables : Bytes}
    {page table index : Nat}
    (hNe : table ≠ page)
    (hPage : page % 4096 = 0)
    (hTable : table % 4096 = 0)
    (hIndex : index < 512) :
    loadEntry (write tables page pageSize zeros)
        (table + 8 * index) =
      loadEntry tables (table + 8 * index) :=
  getLE_write_of_disjoint (by unfold pageSize; omega)

theorem loadEntry_clear_same
    (tables : Bytes)
    (page : Nat)
    {index : Nat}
    (hIndex : index < 512) :
    loadEntry (write tables page pageSize zeros)
        (page + 8 * index) = 0 := by
  unfold loadEntry
  rw [getLE_write_of_subset (by omega)
    (by unfold pageSize; omega)]
  exact getLE_zeros _ _

/-
  The entry at which the walk of `target` passes `level` is
  `value` after the change, and the other entries of the tree
  are as before.
-/
def SlotUpdate
    (root target level value : Nat)
    (tables tables' : Bytes) : Prop :=
  ∀ virtualAddress k table, k < 4 →
    tableAt tables root virtualAddress k = some table →
      loadEntry tables'
          (table + 8 * levelIndex virtualAddress k) =
        if k = level ∧
            SamePath virtualAddress target (level + 1) then
          value
        else
          loadEntry tables
            (table + 8 * levelIndex virtualAddress k)

/- The entries of the tree are the same in both memories. -/
def SameTree
    (root : Nat)
    (tables tables' : Bytes) : Prop :=
  ∀ virtualAddress k table, k < 4 →
    tableAt tables root virtualAddress k = some table →
      loadEntry tables'
          (table + 8 * levelIndex virtualAddress k) =
        loadEntry tables
          (table + 8 * levelIndex virtualAddress k)

/- The root shares the entry at which `target` passes. -/
def Sees
    (root target level other : Nat) : Prop :=
  other = root ∨ (0 < level ∧ Shared target)

/- Roots with the same entry have the same tables below. -/
theorem tableAt_of_top
    {tables : Bytes}
    {root other virtualAddress : Nat}
    (hEntry :
      loadEntry tables
          (other + 8 * levelIndex virtualAddress 0) =
        loadEntry tables
          (root + 8 * levelIndex virtualAddress 0))
    {level : Nat}
    (hLevel : 0 < level) :
    tableAt tables other virtualAddress level =
      tableAt tables root virtualAddress level := by
  induction level with
  | zero => omega
  | succ level ih =>
      cases level with
      | zero => simp only [tableAt, hEntry]
      | succ level =>
          rw [tableAt_succ _ other _ (level + 1),
            tableAt_succ _ root _ (level + 1),
            ih (by omega)]

/- In a shared half the other roots have the same tables. -/
theorem PageForest.tableAt_shared
    {roots : List Nat}
    {s : Paging}
    (hForest : PageForest roots s)
    {root other virtualAddress level : Nat}
    (hRoot : root ∈ roots)
    (hOther : other ∈ roots)
    (hShared : Shared virtualAddress)
    (hLevel : 0 < level) :
    tableAt s.tables other virtualAddress level =
      tableAt s.tables root virtualAddress level :=
  tableAt_of_top
    (hForest.shared other root virtualAddress hOther hRoot
      hShared) hLevel

/- In a shared half the other roots have the same pages. -/
theorem PageForest.leafOf_shared
    {roots : List Nat}
    {s : Paging}
    (hForest : PageForest roots s)
    {root other virtualAddress : Nat}
    (hRoot : root ∈ roots)
    (hOther : other ∈ roots)
    (hShared : Shared virtualAddress) :
    leafOf s.tables other virtualAddress =
      leafOf s.tables root virtualAddress := by
  have hEntry :=
    hForest.shared other root virtualAddress hOther hRoot
      hShared
  rcases exists_ends s.tables root virtualAddress with
    ⟨level, table, hEnds⟩
  rcases id hEnds with ⟨hLevel, hTable, hStop⟩
  by_cases hPos : 0 < level
  · have hEnds' :
        Ends s.tables other virtualAddress level table :=
      ⟨hLevel,
        (hForest.tableAt_shared hRoot hOther hShared
          hPos).trans hTable,
        hStop⟩
    rw [leafOf_of_ends hEnds, leafOf_of_ends hEnds']
  · have hZero : level = 0 := by omega
    subst hZero
    cases hTable
    have hEnds' :
        Ends s.tables other virtualAddress 0 other :=
      ⟨hLevel, rfl, by rw [hEntry]; exact hStop⟩
    rw [leafOf_of_ends hEnds, leafOf_of_ends hEnds', hEntry]

/- A root that sees an entry has the same table above it. -/
theorem PageForest.tableAt_of_sees
    {roots : List Nat}
    {s : Paging}
    (hForest : PageForest roots s)
    {root other target level table : Nat}
    (hRoot : root ∈ roots)
    (hOther : other ∈ roots)
    (hTable :
      tableAt s.tables root target level = some table)
    (hSees : Sees root target level other) :
    tableAt s.tables other target level = some table := by
  rcases hSees with rfl | ⟨hPos, hShared⟩
  · exact hTable
  · rw [hForest.tableAt_shared hRoot hOther hShared hPos,
      hTable]

/-
  A store to an entry updates one slot of the roots that see
  it, and nothing below the other roots.
-/
theorem PageForest.slotUpdate
    {roots : List Nat}
    {s : Paging}
    (hForest : PageForest roots s)
    {root other target level table : Nat}
    (hRoot : root ∈ roots)
    (hOther : other ∈ roots)
    (hLevel : level < 4)
    (hTable :
      tableAt s.tables root target level = some table)
    {tables : Bytes}
    (hSame : SameTree other s.tables tables)
    (value : Nat) :
    (Sees root target level other →
      SlotUpdate other target level (value % 2 ^ 64) s.tables
        (storeEntry tables
          (table + 8 * levelIndex target level) value)) ∧
    (¬ Sees root target level other →
      SameTree other s.tables
        (storeEntry tables
          (table + 8 * levelIndex target level) value)) := by
  have hTableMod :=
    tableAt_mod (hForest.root_mod root hRoot) hTable
  have hIndex' := levelIndex_lt target level
  -- An entry at the stored address lies on the same path.
  have hMiss :
      ∀ v k found, k < 4 →
        tableAt s.tables other v k = some found →
        ¬ (k = level ∧ SamePath v target (level + 1) ∧
          Sees root target level other) →
          loadEntry
              (storeEntry tables
                (table + 8 * levelIndex target level) value)
              (found + 8 * levelIndex v k) =
            loadEntry s.tables
              (found + 8 * levelIndex v k) := by
    intro v k found hk hFound hNot
    have hFoundMod :=
      tableAt_mod (hForest.root_mod other hOther) hFound
    have hIndex := levelIndex_lt v k
    rw [← hSame v k found hk hFound]
    apply loadEntry_store_of_ne _ (by omega) (by omega)
    intro hAddress
    have hOne : found = table := by omega
    subst hOne
    rcases hForest.distinct root other target v level k found
        hRoot hOther hLevel hk hTable hFound with
      ⟨rfl, hPath, hSees⟩
    refine hNot ⟨rfl, hPath.symm.succ (by omega), ?_⟩
    exact hSees.imp_left Eq.symm
  constructor
  · intro hSees v k found hk hFound
    by_cases hSlot :
        k = level ∧ SamePath v target (level + 1)
    · rcases hSlot with ⟨rfl, hPath⟩
      have hHere :=
        hForest.tableAt_of_sees hRoot hOther hTable hSees
      have hPaths :=
        tableAt_samePath s.tables other
          (hPath.mono (Nat.le_succ k))
      rw [hFound, hHere] at hPaths
      rw [if_pos ⟨rfl, hPath⟩, ← Option.some.inj hPaths,
        hPath k (by omega)]
      exact loadEntry_store_same _ _ _
    · rw [if_neg hSlot]
      exact hMiss v k found hk hFound
        (fun h => hSlot ⟨h.1, h.2.1⟩)
  · intro hBlind v k found hk hFound
    exact hMiss v k found hk hFound (fun h => hBlind h.2.2)

/- Clearing a free frame changes no entry below a root. -/
theorem PageForest.sameTree_clear
    {roots : List Nat}
    {s : Paging}
    (hForest : PageForest roots s)
    {root page : Nat}
    (hRoot : root ∈ roots)
    (hPage : page ∈ s.free) :
    SameTree root s.tables
      (write s.tables page pageSize zeros) := by
  intro v k table hk hTable
  have hNe : table ≠ page := by
    rintro rfl
    exact hForest.not_free root v k table hRoot hk hTable
      hPage
  exact loadEntry_clear_of_ne hNe
    (hForest.free_frame page hPage).2.1
    (tableAt_mod (hForest.root_mod root hRoot) hTable)
    (levelIndex_lt v k)

end Vmm

end Whirliscope

------------------------------------------------------------
-- One Changed Entry
------------------------------------------------------------

namespace Whirliscope

namespace Vmm

open ByteMemory

section SlotUpdate

variable {root target level value : Nat}
variable {tables tables' : Bytes}

/- Tables are found as before up to the changed entry. -/
theorem SlotUpdate.tableAt_above
    (hUpdate :
      SlotUpdate root target level value tables tables')
    (virtualAddress : Nat)
    {k : Nat}
    (hk : k ≤ level)
    (hLevel : level < 4) :
    tableAt tables' root virtualAddress k =
      tableAt tables root virtualAddress k := by
  apply tableAt_congr (fun _ _ => rfl)
  intro j table hj hTable
  rw [hUpdate virtualAddress j table (by omega) hTable,
    if_neg (by omega)]

/- Tables of other paths are found as before. -/
theorem SlotUpdate.tableAt_off
    (hUpdate :
      SlotUpdate root target level value tables tables')
    {virtualAddress : Nat}
    (hOff : ¬ SamePath virtualAddress target (level + 1))
    {k : Nat}
    (hk : k ≤ 4) :
    tableAt tables' root virtualAddress k =
      tableAt tables root virtualAddress k := by
  apply tableAt_congr (fun _ _ => rfl)
  intro j table hj hTable
  rw [hUpdate virtualAddress j table (by omega) hTable,
    if_neg (fun h => hOff h.2)]

/- Below the changed entry the new value decides. -/
theorem SlotUpdate.tableAt_on
    (hUpdate :
      SlotUpdate root target level value tables tables')
    {virtualAddress table : Nat}
    (hOn : SamePath virtualAddress target (level + 1))
    (hLevel : level < 4)
    (hTable :
      tableAt tables root target level = some table) :
    tableAt tables' root virtualAddress (level + 1) =
      if IsTable value level then some (entryToTable value)
      else none := by
  have hHere :
      tableAt tables root virtualAddress level =
        some table := by
    rw [tableAt_samePath tables root
      (hOn.symm.mono (Nat.le_succ level)), hTable]
  have hEntry :=
    hUpdate virtualAddress level table hLevel hHere
  rw [if_pos ⟨rfl, hOn⟩] at hEntry
  rw [tableAt,
    hUpdate.tableAt_above virtualAddress (Nat.le_refl level)
      hLevel, hHere]
  simp only [hEntry]

/- Mappings on other paths are as before. -/
theorem SlotUpdate.leafOf_off
    (hUpdate :
      SlotUpdate root target level value tables tables')
    {virtualAddress : Nat}
    (hOff : ¬ SamePath virtualAddress target (level + 1)) :
    leafOf tables' root virtualAddress =
      leafOf tables root virtualAddress := by
  rcases exists_ends tables root virtualAddress with
    ⟨last, table, hEnds⟩
  rcases id hEnds with ⟨hLast, hTable, hStop⟩
  have hEntry :=
    hUpdate virtualAddress last table hLast hTable
  rw [if_neg (fun h => hOff h.2)] at hEntry
  have hEnds' :
      Ends tables' root virtualAddress last table :=
    ⟨hLast,
      by rw [hUpdate.tableAt_off hOff (by omega), hTable],
      by rw [hEntry]; exact hStop⟩
  rw [leafOf_of_ends hEnds, leafOf_of_ends hEnds', hEntry]

/- On the changed path an entry that ends the walk decides. -/
theorem SlotUpdate.leafOf_on
    (hUpdate :
      SlotUpdate root target level value tables tables')
    {virtualAddress table : Nat}
    (hOn : SamePath virtualAddress target (level + 1))
    (hLevel : level < 4)
    (hTable : tableAt tables root target level = some table)
    (hStop : level = 3 ∨ ¬ IsTable value level) :
    leafOf tables' root virtualAddress =
      if value &&& vmmPresent = 0 then none
      else
        some (leafFrom value (levelShift level)
          virtualAddress) := by
  have hHere :
      tableAt tables root virtualAddress level =
        some table := by
    rw [tableAt_samePath tables root
      (hOn.symm.mono (Nat.le_succ level)), hTable]
  have hEntry :=
    hUpdate virtualAddress level table hLevel hHere
  rw [if_pos ⟨rfl, hOn⟩] at hEntry
  have hEnds :
      Ends tables' root virtualAddress level table :=
    ⟨hLevel,
      by
        rw [hUpdate.tableAt_above virtualAddress
          (Nat.le_refl level) hLevel, hHere],
      by rw [hEntry]; exact hStop⟩
  rw [leafOf_of_ends hEnds, hEntry]

end SlotUpdate

end Vmm

end Whirliscope

------------------------------------------------------------
-- The Tree After a Change
------------------------------------------------------------

namespace Whirliscope

namespace Vmm

open ByteMemory

section Changes

variable {root target level value : Nat}
variable {tables tables' : Bytes}

/- An entry that ends the walk adds no table. -/
theorem SlotUpdate.tableAt_of_stop
    (hUpdate :
      SlotUpdate root target level value tables tables')
    (hLevel : level < 4)
    {table : Nat}
    (hTable : tableAt tables root target level = some table)
    (hStop : level = 3 ∨ ¬ IsTable value level)
    {virtualAddress k found : Nat}
    (hk : k < 4)
    (hFound :
      tableAt tables' root virtualAddress k = some found) :
    tableAt tables root virtualAddress k = some found := by
  by_cases hAbove : k ≤ level
  · rwa [hUpdate.tableAt_above virtualAddress hAbove hLevel]
      at hFound
  · by_cases hOn :
        SamePath virtualAddress target (level + 1)
    · have hNotTable : ¬ IsTable value level :=
        hStop.resolve_left (by omega)
      rcases tableAt_isSome_of_le hFound
          (show level + 1 ≤ k by omega) with
        ⟨above, hNext⟩
      rw [hUpdate.tableAt_on hOn hLevel hTable,
        if_neg hNotTable] at hNext
      cases hNext
    · rwa [hUpdate.tableAt_off hOn (by omega)] at hFound

/- An entry for a cleared frame adds that frame only. -/
theorem SlotUpdate.tableAt_of_link
    (hUpdate :
      SlotUpdate root target level value tables tables')
    (hLevel : level < 4)
    {table : Nat}
    (hTable : tableAt tables root target level = some table)
    (hCleared :
      ∀ index, index < 512 →
        loadEntry tables'
          (entryToTable value + 8 * index) = 0)
    {virtualAddress k found : Nat}
    (hk : k < 4)
    (hFound :
      tableAt tables' root virtualAddress k = some found) :
    tableAt tables root virtualAddress k = some found ∨
      (k = level + 1 ∧
        SamePath virtualAddress target (level + 1) ∧
        found = entryToTable value) := by
  by_cases hAbove : k ≤ level
  · rw [hUpdate.tableAt_above virtualAddress hAbove hLevel]
      at hFound
    exact .inl hFound
  · by_cases hOn :
        SamePath virtualAddress target (level + 1)
    · right
      have hNext := hUpdate.tableAt_on hOn hLevel hTable
      by_cases hOne : k = level + 1
      · subst hOne
        rw [hFound] at hNext
        split_ifs at hNext
        exact ⟨rfl, hOn, Option.some.inj hNext⟩
      · rcases tableAt_isSome_of_le hFound
            (show level + 2 ≤ k by omega) with
          ⟨below, hBelow⟩
        rw [tableAt, hNext] at hBelow
        split_ifs at hBelow with hIsTable
        simp only [hCleared _ (levelIndex_lt _ _)] at hBelow
        rw [if_neg (by simp [IsTable])] at hBelow
        cases hBelow
    · rw [hUpdate.tableAt_off hOn (by omega)] at hFound
      exact .inl hFound

/- An entry for a cleared frame maps nothing. -/
theorem SlotUpdate.leafOf_of_link
    (hUpdate :
      SlotUpdate root target level value tables tables')
    (hLevel : level < 3)
    {table : Nat}
    (hTable : tableAt tables root target level = some table)
    (hAbsent :
      loadEntry tables
          (table + 8 * levelIndex target level) &&&
        vmmPresent = 0)
    (hIsTable : IsTable value level)
    (hCleared :
      ∀ index, index < 512 →
        loadEntry tables'
          (entryToTable value + 8 * index) = 0)
    (virtualAddress : Nat) :
    leafOf tables' root virtualAddress =
      leafOf tables root virtualAddress := by
  by_cases hOn : SamePath virtualAddress target (level + 1)
  · have hHere :
        tableAt tables root virtualAddress level =
          some table := by
      rw [tableAt_samePath tables root
        (hOn.symm.mono (Nat.le_succ level)), hTable]
    have hIndex := hOn level (by omega)
    have hEnds :
        Ends tables root virtualAddress level table :=
      ⟨by omega, hHere,
        .inr fun h => h.1 (by rw [hIndex]; exact hAbsent)⟩
    have hNext := hUpdate.tableAt_on hOn (by omega) hTable
    rw [if_pos hIsTable] at hNext
    have hZero :=
      hCleared (levelIndex virtualAddress (level + 1))
        (levelIndex_lt _ _)
    have hEnds' :
        Ends tables' root virtualAddress (level + 1)
          (entryToTable value) :=
      ⟨by omega, hNext,
        .inr fun h => h.1 (by rw [hZero]; rfl)⟩
    rw [leafOf_of_ends hEnds, leafOf_of_ends hEnds', hZero,
      hIndex]
    simp [hAbsent]
  · exact hUpdate.leafOf_off hOn

/- An entry of the root that leads to a table still does. -/
theorem SlotUpdate.keepsTop
    (hUpdate :
      SlotUpdate root target level value tables tables')
    (hLevel : level < 4)
    {table : Nat}
    (hTable : tableAt tables root target level = some table)
    (hAbsent :
      level = 0 →
        loadEntry tables
            (table + 8 * levelIndex target level) &&&
          vmmPresent = 0)
    {virtualAddress found : Nat}
    (hOne :
      tableAt tables root virtualAddress 1 = some found) :
    tableAt tables' root virtualAddress 1 = some found := by
  by_cases hPos : 0 < level
  · rw [hUpdate.tableAt_above virtualAddress hPos hLevel,
      hOne]
  · have hZero : level = 0 := by omega
    subst hZero
    cases hTable
    by_cases hOn : SamePath virtualAddress target (0 + 1)
    · rw [tableAt_succ] at hOne
      simp only [tableAt, Option.bind_some,
        hOn 0 (by omega)] at hOne
      rw [if_neg (fun h => h.1 (hAbsent rfl))] at hOne
      cases hOne
    · rw [hUpdate.tableAt_off hOn (by omega), hOne]

end Changes

/- A forest stays one when no table is added. -/
theorem PageForest.of_subset
    {roots : List Nat}
    {s s' : Paging}
    (hForest : PageForest roots s)
    (hTables :
      ∀ root virtualAddress level table,
        root ∈ roots → level < 4 →
        tableAt s'.tables root virtualAddress level =
            some table →
          tableAt s.tables root virtualAddress level =
            some table)
    (hShared :
      ∀ root root' virtualAddress,
        root ∈ roots → root' ∈ roots →
        Shared virtualAddress →
          loadEntry s'.tables
              (root + 8 * levelIndex virtualAddress 0) =
            loadEntry s'.tables
              (root' + 8 * levelIndex virtualAddress 0))
    (hFree : s'.free = s.free) :
    PageForest roots s' where
  root_mod := hForest.root_mod
  distinct := by
    intro root root' left right level level' table hRoot
      hRoot' hLevel hLevel' hLeft hRight
    exact hForest.distinct root root' left right level level'
      table hRoot hRoot' hLevel hLevel'
      (hTables root left level table hRoot hLevel hLeft)
      (hTables root' right level' table hRoot' hLevel' hRight)
  shared := hShared
  not_free := by
    intro root v level table hRoot hLevel hTable
    rw [hFree]
    exact hForest.not_free root v level table hRoot hLevel
      (hTables root v level table hRoot hLevel hTable)
  free_nodup := by
    rw [hFree]
    exact hForest.free_nodup
  free_frame := by
    rw [hFree]
    exact hForest.free_frame

/- A forest stays one when a free frame is linked into it. -/
theorem PageForest.of_link
    {roots : List Nat}
    {s s' : Paging}
    (hForest : PageForest roots s)
    (root target level : Nat)
    {page : Nat}
    (hPage : s.free = page :: s'.free)
    (hTables :
      ∀ other virtualAddress k table,
        other ∈ roots → k < 4 →
        tableAt s'.tables other virtualAddress k =
            some table →
          tableAt s.tables other virtualAddress k =
              some table ∨
            (k = level + 1 ∧
              SamePath virtualAddress target (level + 1) ∧
              table = page ∧
              (other = root ∨ Shared target)))
    (hShared :
      ∀ left right virtualAddress,
        left ∈ roots → right ∈ roots →
        Shared virtualAddress →
          loadEntry s'.tables
              (left + 8 * levelIndex virtualAddress 0) =
            loadEntry s'.tables
              (right + 8 * levelIndex virtualAddress 0)) :
    PageForest roots s' where
  root_mod := hForest.root_mod
  distinct := by
    intro r r' left right k k' table hr hr' hk hk' hLeft
      hRight
    have hFresh :
        ∀ other v j, other ∈ roots → j < 4 →
          tableAt s.tables other v j ≠ some page := by
      intro other v j hOther hj hOld
      refine hForest.not_free other v j page hOther hj hOld ?_
      rw [hPage]
      exact List.mem_cons_self
    rcases hTables r left k table hr hk hLeft with
      hOld | ⟨rfl, hOn, rfl, hSees⟩
    · rcases hTables r' right k' table hr' hk' hRight with
        hOld' | ⟨_, _, rfl, _⟩
      · exact hForest.distinct r r' left right k k' table hr
          hr' hk hk' hOld hOld'
      · exact absurd hOld (hFresh r left k hr hk)
    · rcases hTables r' right k' table hr' hk' hRight with
        hOld' | ⟨rfl, hOn', _, hSees'⟩
      · exact absurd hOld' (hFresh r' right k' hr' hk')
      · refine ⟨rfl, fun j hj => ?_, ?_⟩
        · rw [hOn j hj, hOn' j hj]
        · have hSharedLeft :
              Shared target → Shared left := by
            intro h
            unfold Shared
            rw [hOn 0 (by omega)]
            exact h
          rcases hSees with rfl | hTarget
          · rcases hSees' with rfl | hTarget
            · exact .inl rfl
            · exact .inr ⟨by omega, hSharedLeft hTarget⟩
          · exact .inr ⟨by omega, hSharedLeft hTarget⟩
  shared := hShared
  not_free := by
    intro r v k table hr hk hTable hMem
    rcases hTables r v k table hr hk hTable with
      hOld | ⟨_, _, rfl, _⟩
    · refine hForest.not_free r v k table hr hk hOld ?_
      rw [hPage]
      exact List.mem_cons_of_mem page hMem
    · have hNodup := hForest.free_nodup
      rw [hPage, List.nodup_cons] at hNodup
      exact hNodup.1 hMem
  free_nodup := by
    have hNodup := hForest.free_nodup
    rw [hPage, List.nodup_cons] at hNodup
    exact hNodup.2
  free_frame := by
    intro other hOther
    apply hForest.free_frame
    rw [hPage]
    exact List.mem_cons_of_mem page hOther

end Vmm

end Whirliscope

------------------------------------------------------------
-- The Words of Entries
------------------------------------------------------------

namespace Whirliscope

namespace Vmm

open ByteMemory

theorem and_vmmPresent
    (entry : Nat) :
    entry &&& vmmPresent = entry % 2 :=
  Nat.and_two_pow_sub_one_eq_mod entry 1

/- The address part of a word that is aligned below it. -/
theorem and_addressMask
    {shift physical : Nat}
    (hShift : shift = 30 ∨ shift = 21 ∨ shift = 12)
    (hAligned : physical % 2 ^ shift = 0)
    (hBound : physical < 2 ^ 52) :
    physical &&& addressMask shift = physical := by
  have hMask :
      addressMask shift =
        (2 ^ (52 - shift) - 1) <<< shift := by
    rcases hShift with rfl | rfl | rfl <;> decide
  rw [hMask, and_shiftLeft_eq,
    Nat.and_two_pow_sub_one_eq_mod,
    Nat.shiftRight_eq_div_pow, Nat.shiftLeft_eq]
  have hQuotient :
      physical / 2 ^ shift < 2 ^ (52 - shift) := by
    rcases hShift with rfl | rfl | rfl <;> omega
  rw [Nat.mod_eq_of_lt hQuotient]
  exact Nat.div_mul_cancel (Nat.dvd_of_mod_eq_zero hAligned)

/- Flags without address bits have none at any level. -/
theorem and_addressMask_of_flags
    {shift flags : Nat}
    (hShift : shift = 30 ∨ shift = 21 ∨ shift = 12)
    (hFlags : flags &&& pteAddrMask = 0) :
    flags &&& addressMask shift = 0 := by
  have hMask :
      addressMask shift =
        pteAddrMask &&& addressMask shift := by
    rcases hShift with rfl | rfl | rfl <;> decide
  rw [hMask, ← Nat.and_assoc, hFlags, Nat.zero_and]

/- What a table entry for a frame says. -/
theorem tableEntry_facts
    {page : Nat}
    (hFrame : IsFrame page)
    (flags level : Nat) :
    let entry :=
      page ||| pteTableFlags ||| (flags &&& vmmUser)
    entry < 2 ^ 64 ∧ IsTable entry level ∧
      entryToTable entry = page := by
  rcases hFrame with ⟨-, hMod, hBound⟩
  have hUser :
      flags &&& vmmUser = 0 ∨ flags &&& vmmUser = 4 := by
    have hBit := Nat.and_two_pow flags 2
    cases hTest : flags.testBit 2 with
    | false =>
        rw [hTest] at hBit
        exact .inl hBit
    | true =>
        rw [hTest] at hBit
        exact .inr hBit
  generalize flags &&& vmmUser = user at hUser
  have hSmall :
      ∃ small, small < 8 ∧ small % 2 = 1 ∧
        page ||| pteTableFlags ||| user =
          page ||| small := by
    rcases hUser with rfl | rfl
    · exact ⟨3, by omega, by omega, by
        rw [Nat.or_assoc]; rfl⟩
    · exact ⟨7, by omega, by omega, by
        rw [Nat.or_assoc]; rfl⟩
  rcases hSmall with ⟨small, hLt, hOdd, hEntry⟩
  have hSum : page ||| small = page + small := by
    have hPage : page = (page / 4096) <<< 12 := by
      rw [Nat.shiftLeft_eq]
      omega
    rw [hPage, Nat.shiftLeft_add_eq_or_of_lt (by omega)]
  simp only
  rw [hEntry]
  refine ⟨by omega, ⟨?_, ?_⟩, ?_⟩
  · rw [and_vmmPresent]
    omega
  · have hHuge : (page ||| small) &&& vmmHuge = 0 := by
      have hBit := Nat.and_two_pow (page ||| small) 7
      have hClear : (page ||| small).testBit 7 = false := by
        rw [hSum, Nat.testBit_eq_decide_div_mod_eq]
        simp only [decide_eq_false_iff_not]
        omega
      rw [hClear] at hBit
      exact hBit
    simp [isHugeEntry, hHuge]
  · have hMask := and_addressMask (.inr (.inr rfl)) hMod hBound
    have hLow : small &&& pteAddrMask = 0 := by
      have hShift : pteAddrMask = 0xffffffffff <<< 12 := by
        decide
      rw [hShift, and_shiftLeft_eq,
        Nat.shiftRight_eq_div_pow,
        Nat.div_eq_of_lt (by omega)]
      simp
    unfold entryToTable
    rw [Nat.and_or_distrib_right, hLow, Nat.or_zero]
    exact hMask

theorem leafEntry_lt
    {physical flags : Nat}
    (hPhysical : physical < 2 ^ 64)
    (hFlags : flags < 2 ^ 64)
    (shift : Nat) :
    leafEntry physical flags shift < 2 ^ 64 := by
  have hLow :
      (if shift ≠ 12 then vmmHuge else 0) < 2 ^ 64 := by
    split_ifs <;> decide
  exact Nat.or_lt_two_pow hPhysical
    (Nat.or_lt_two_pow
      (Nat.or_lt_two_pow hFlags (by decide)) hLow)

/- What a mapping says. -/
theorem leafEntry_facts
    {physical flags level : Nat}
    (hLevel : level = 1 ∨ level = 2 ∨ level = 3)
    (hAligned : physical % 2 ^ levelShift level = 0)
    (hBound : physical < 2 ^ 52)
    (hFlags : flags &&& pteAddrMask = 0)
    (hWord : flags < 2 ^ 64) :
    let entry := leafEntry physical flags (levelShift level)
    entry < 2 ^ 64 ∧ entry &&& vmmPresent ≠ 0 ∧
      (level = 3 ∨ ¬ IsTable entry level) ∧
      entry &&& addressMask (levelShift level) =
        physical := by
  have hShift :
      levelShift level = 30 ∨ levelShift level = 21 ∨
        levelShift level = 12 := by
    unfold levelShift
    omega
  have hHugeBit :
      ∀ low, low = vmmHuge ∨ low = 0 → low < 2 ^ 64 ∧
        low &&& addressMask (levelShift level) = 0 := by
    rintro low (rfl | rfl)
    · refine ⟨by decide, ?_⟩
      rcases hShift with h | h | h <;> rw [h] <;> decide
    · exact ⟨by decide, Nat.zero_and _⟩
  have hPresentBit :
      vmmPresent &&& addressMask (levelShift level) = 0 := by
    rcases hShift with h | h | h <;> rw [h] <;> decide
  have hLow :=
    hHugeBit
      (if levelShift level ≠ 12 then vmmHuge else 0)
      (by split_ifs <;> simp)
  simp only [leafEntry]
  refine ⟨?_, ?_, ?_, ?_⟩
  · exact Nat.or_lt_two_pow (by omega)
      (Nat.or_lt_two_pow
        (Nat.or_lt_two_pow hWord (by decide)) hLow.1)
  · have hBit :
        (physical ||| (flags ||| vmmPresent |||
          (if levelShift level ≠ 12 then vmmHuge else 0))
            ).testBit 0 = true := by
      simp [Nat.testBit_or, vmmPresent]
    rw [and_vmmPresent]
    rw [Nat.testBit_eq_decide_div_mod_eq] at hBit
    simp only [decide_eq_true_eq] at hBit
    omega
  · by_cases hThree : level = 3
    · exact .inl hThree
    · right
      rintro ⟨-, hSmall⟩
      have hNot : levelShift level ≠ 12 := by
        unfold levelShift
        omega
      have hSizes :
          levelShift level = 30 ∨ levelShift level = 21 := by
        unfold levelShift
        omega
      have hBit :
          (physical ||| (flags ||| vmmPresent ||| vmmHuge))
            &&& vmmHuge ≠ 0 := by
        intro hZero
        have hHuge : vmmHuge.testBit 7 = true := by decide
        have hTest := congrArg (Nat.testBit · 7) hZero
        simp [Nat.testBit_and, Nat.testBit_or, hHuge]
          at hTest
      rw [if_pos hNot] at hSmall
      simp [isHugeEntry, hSizes, hBit] at hSmall
  · rw [Nat.and_or_distrib_right, Nat.and_or_distrib_right,
      Nat.and_or_distrib_right,
      and_addressMask hShift hAligned hBound,
      and_addressMask_of_flags hShift hFlags, hPresentBit,
      hLow.2]
    simp

end Vmm

end Whirliscope

------------------------------------------------------------
-- Linking a Table
------------------------------------------------------------

namespace Whirliscope

namespace Vmm

open ByteMemory

theorem SameTree.tableAt_eq
    {root : Nat}
    {tables tables' : Bytes}
    (hSame : SameTree root tables tables')
    (virtualAddress : Nat)
    {level : Nat}
    (hLevel : level ≤ 4) :
    tableAt tables' root virtualAddress level =
      tableAt tables root virtualAddress level :=
  tableAt_congr (fun _ _ => rfl)
    (fun k table hk hTable =>
      hSame virtualAddress k table (by omega) hTable)

theorem SameTree.leafOf_eq
    {root : Nat}
    {tables tables' : Bytes}
    (hSame : SameTree root tables tables')
    (virtualAddress : Nat) :
    leafOf tables' root virtualAddress =
      leafOf tables root virtualAddress := by
  rcases exists_ends tables root virtualAddress with
    ⟨level, table, hEnds⟩
  rcases id hEnds with ⟨hLevel, hTable, hStop⟩
  have hEntry :=
    hSame virtualAddress level table hLevel hTable
  have hEnds' :
      Ends tables' root virtualAddress level table :=
    ⟨hLevel,
      by rw [hSame.tableAt_eq _ (by omega), hTable],
      by rw [hEntry]; exact hStop⟩
  rw [leafOf_of_ends hEnds, leafOf_of_ends hEnds', hEntry]

/- The entries of the roots that lead to tables still do. -/
def KeepsTop
    (roots : List Nat)
    (s s' : Paging) : Prop :=
  ∀ root ∈ roots, ∀ virtualAddress table,
    tableAt s.tables root virtualAddress 1 = some table →
      tableAt s'.tables root virtualAddress 1 = some table

/- Every table was a table before, or a free frame. -/
def AddsFree
    (roots : List Nat)
    (s s' : Paging) : Prop :=
  ∀ root ∈ roots, ∀ virtualAddress level table, level < 4 →
    tableAt s'.tables root virtualAddress level =
        some table →
      tableAt s.tables root virtualAddress level =
          some table ∨
        table ∈ s.free

/- The mappings below every root are as before. -/
def SameLeaves
    (roots : List Nat)
    (s s' : Paging) : Prop :=
  ∀ root ∈ roots, ∀ virtualAddress,
    leafOf s'.tables root virtualAddress =
      leafOf s.tables root virtualAddress

/-
  A store at this level keeps the shared half the same in
  every root.
-/
def KeepsShared
    (roots : List Nat)
    (root target level : Nat) : Prop :=
  0 < level ∨ ¬ Shared target ∨
    ∀ other ∈ roots, other = root

/- The shared half is the same in every root afterwards. -/
theorem PageForest.shared_store
    {roots : List Nat}
    {s : Paging}
    (hForest : PageForest roots s)
    {root target level table : Nat}
    (hRoot : root ∈ roots)
    (hLevel : level < 4)
    (hTable :
      tableAt s.tables root target level = some table)
    {tables : Bytes}
    (hSame :
      ∀ other ∈ roots, SameTree other s.tables tables)
    (hKeeps : KeepsShared roots root target level)
    (value : Nat)
    {left right virtualAddress : Nat}
    (hLeft : left ∈ roots)
    (hRight : right ∈ roots)
    (hShared : Shared virtualAddress) :
    let tables' :=
      storeEntry tables
        (table + 8 * levelIndex target level) value
    loadEntry tables'
        (left + 8 * levelIndex virtualAddress 0) =
      loadEntry tables'
        (right + 8 * levelIndex virtualAddress 0) := by
  intro tables'
  have hCases :
      ¬ (0 = level ∧
          SamePath virtualAddress target (level + 1)) ∨
        ∀ other ∈ roots, other = root := by
    rcases hKeeps with hPos | hPrivate | hOnly
    · exact .inl (by omega)
    · refine .inl ?_
      rintro ⟨-, hPath⟩
      apply hPrivate
      unfold Shared at hShared ⊢
      rwa [← hPath 0 (by omega)]
    · exact .inr hOnly
  rcases hCases with hMiss | hOnly
  · have hOld :
        ∀ other ∈ roots,
          loadEntry tables'
              (other + 8 * levelIndex virtualAddress 0) =
            loadEntry s.tables
              (other + 8 * levelIndex virtualAddress 0) := by
      intro other hOther
      have hStore :=
        hForest.slotUpdate hRoot hOther hLevel hTable
          (hSame other hOther) value
      by_cases hSees : Sees root target level other
      · have hSlot :=
          hStore.1 hSees virtualAddress 0 other (by omega) rfl
        rwa [if_neg hMiss] at hSlot
      · exact hStore.2 hSees virtualAddress 0 other
          (by omega) rfl
    rw [hOld left hLeft, hOld right hRight]
    exact hForest.shared left right virtualAddress hLeft
      hRight hShared
  · rw [hOnly left hLeft, hOnly right hRight]

/- The entries that change when a cleared frame is linked. -/
theorem PageForest.link_update
    {roots : List Nat}
    {s : Paging}
    (hForest : PageForest roots s)
    {root target level table page : Nat}
    {rest : List Nat}
    (hRoot : root ∈ roots)
    (hLevel : level < 3)
    (hTable :
      tableAt s.tables root target level = some table)
    (hPage : s.free = page :: rest)
    (flags : Nat) :
    let value := page ||| pteTableFlags ||| (flags &&& vmmUser)
    let s' :=
      (({ s with free := rest } : Paging).clear page).store
        (table + 8 * levelIndex target level) value
    (∀ other ∈ roots,
        (Sees root target level other →
          SlotUpdate other target level value s.tables
            s'.tables) ∧
        (¬ Sees root target level other →
          SameTree other s.tables s'.tables)) ∧
      ∀ index, index < 512 →
        loadEntry s'.tables (page + 8 * index) = 0 := by
  intro value s'
  have hMem : page ∈ s.free := by
    rw [hPage]
    exact List.mem_cons_self
  have hFrame := hForest.free_frame page hMem
  have hLt : value < 2 ^ 64 :=
    (tableEntry_facts hFrame flags level).1
  have hTableMod :=
    tableAt_mod (hForest.root_mod root hRoot) hTable
  have hNe : table ≠ page := by
    rintro rfl
    exact hForest.not_free root target level table hRoot
      (by omega) hTable hMem
  constructor
  · intro other hOther
    have hUpdate :=
      hForest.slotUpdate hRoot hOther (by omega) hTable
        (hForest.sameTree_clear hOther hMem) value
    rwa [Nat.mod_eq_of_lt hLt] at hUpdate
  · intro index hIndex
    have hSlot := levelIndex_lt target level
    have hPageMod := hFrame.2.1
    refine (loadEntry_store_of_ne (by omega) (by omega)
      (by omega)).trans ?_
    exact loadEntry_clear_same _ _ hIndex

/- What linking a cleared frame below an entry does. -/
theorem PageForest.link
    {roots : List Nat}
    {s : Paging}
    (hForest : PageForest roots s)
    {root target level table page : Nat}
    {rest : List Nat}
    (hRoot : root ∈ roots)
    (hLevel : level < 3)
    (hTable :
      tableAt s.tables root target level = some table)
    (hAbsent :
      loadEntry s.tables
          (table + 8 * levelIndex target level) &&&
        vmmPresent = 0)
    (hPage : s.free = page :: rest)
    (hKeeps : KeepsShared roots root target level)
    (flags : Nat) :
    let s' :=
      (({ s with free := rest } : Paging).clear page).store
        (table + 8 * levelIndex target level)
        (page ||| pteTableFlags ||| (flags &&& vmmUser))
    PageForest roots s' ∧ SameLeaves roots s s' ∧
      AddsFree roots s s' ∧ KeepsTop roots s s' ∧
      tableAt s'.tables root target (level + 1) =
        some page := by
  intro s'
  have hFree : s'.free = rest := rfl
  have hTables :
      s'.tables =
        storeEntry (write s.tables page pageSize zeros)
          (table + 8 * levelIndex target level)
          (page ||| pteTableFlags ||| (flags &&& vmmUser)) :=
    rfl
  clear_value s'
  have hMem : page ∈ s.free := by
    rw [hPage]
    exact List.mem_cons_self
  have hFrame := hForest.free_frame page hMem
  rcases tableEntry_facts hFrame flags level with
    ⟨hLt, hIsTable, hNext⟩
  generalize hValue :
    page ||| pteTableFlags ||| (flags &&& vmmUser) = value
      at hTables hLt hIsTable hNext
  have hSame :
      ∀ other ∈ roots,
        SameTree other s.tables
          (write s.tables page pageSize zeros) :=
    fun other hOther => hForest.sameTree_clear hOther hMem
  rcases hForest.link_update hRoot hLevel hTable hPage flags
    with ⟨hStore, hCleared⟩
  rw [hValue] at hStore hCleared
  change
    ∀ other ∈ roots,
      (Sees root target level other →
        SlotUpdate other target level value s.tables
          (storeEntry (write s.tables page pageSize zeros)
            (table + 8 * levelIndex target level) value)) ∧
      (¬ Sees root target level other →
        SameTree other s.tables
          (storeEntry (write s.tables page pageSize zeros)
            (table + 8 * levelIndex target level) value))
    at hStore
  change
    ∀ index, index < 512 →
      loadEntry
        (storeEntry (write s.tables page pageSize zeros)
          (table + 8 * levelIndex target level) value)
        (page + 8 * index) = 0
    at hCleared
  rw [← hTables] at hStore hCleared
  rw [← hNext] at hCleared
  have hFound :
      ∀ other v k found, other ∈ roots → k < 4 →
        tableAt s'.tables other v k = some found →
          tableAt s.tables other v k = some found ∨
            (k = level + 1 ∧ SamePath v target (level + 1) ∧
              found = page ∧
              (other = root ∨ Shared target)) := by
    intro other v k found hOther hk hFound
    by_cases hSees : Sees root target level other
    · rcases ((hStore other hOther).1
          hSees).tableAt_of_link (by omega)
          (hForest.tableAt_of_sees hRoot hOther hTable hSees)
          hCleared hk hFound with
        hOld | ⟨hk', hOn, hPageEq⟩
      · exact .inl hOld
      · refine .inr ⟨hk', hOn, hPageEq.trans hNext, ?_⟩
        exact hSees.imp_right And.right
    · rw [((hStore other hOther).2 hSees).tableAt_eq v
        (by omega)] at hFound
      exact .inl hFound
  refine ⟨?_, ?_, ?_, ?_, ?_⟩
  · refine
      hForest.of_link root target level (hFree ▸ hPage)
        hFound ?_
    intro left right v hLeft hRight hShared
    rw [hTables]
    exact hForest.shared_store hRoot (by omega) hTable hSame
      hKeeps value hLeft hRight hShared
  · intro other hOther v
    by_cases hSees : Sees root target level other
    · exact ((hStore other hOther).1 hSees).leafOf_of_link
        hLevel
        (hForest.tableAt_of_sees hRoot hOther hTable hSees)
        hAbsent hIsTable hCleared v
    · exact ((hStore other hOther).2 hSees).leafOf_eq v
  · intro other hOther v k found hk hNew
    rcases hFound other v k found hOther hk hNew with
      hOld | ⟨-, -, rfl, -⟩
    · exact .inl hOld
    · exact .inr hMem
  · intro other hOther v found hOne
    by_cases hSees : Sees root target level other
    · exact ((hStore other hOther).1 hSees).keepsTop
        (by omega)
        (hForest.tableAt_of_sees hRoot hOther hTable hSees)
        (fun _ => hAbsent) hOne
    · rw [((hStore other hOther).2 hSees).tableAt_eq v
        (by omega), hOne]
  · have hOn :
        SamePath target target (level + 1) :=
      fun _ _ => rfl
    rw [((hStore root hRoot).1 (.inl rfl)).tableAt_on hOn
      (by omega) hTable, if_pos hIsTable, hNext]

/- What storing an entry that ends walks does. -/
theorem PageForest.storeLeaf
    {roots : List Nat}
    {s : Paging}
    (hForest : PageForest roots s)
    {root target level table value : Nat}
    (hRoot : root ∈ roots)
    (hLevel : level < 4)
    (hTable :
      tableAt s.tables root target level = some table)
    (hValue : value < 2 ^ 64)
    (hStop : level = 3 ∨ ¬ IsTable value level)
    (hKeeps : KeepsShared roots root target level) :
    let s' := s.store (table + 8 * levelIndex target level) value
    PageForest roots s' ∧ AddsFree roots s s' ∧
      (0 < level → KeepsTop roots s s') ∧
      ∀ other ∈ roots, ∀ virtualAddress,
        (Sees root target level other →
          SamePath virtualAddress target (level + 1) →
            leafOf s'.tables other virtualAddress =
              if value &&& vmmPresent = 0 then none
              else
                some (leafFrom value (levelShift level)
                  virtualAddress)) ∧
        (¬ (Sees root target level other ∧
            SamePath virtualAddress target (level + 1)) →
          leafOf s'.tables other virtualAddress =
            leafOf s.tables other virtualAddress) := by
  intro s'
  have hSame :
      ∀ other ∈ roots,
        SameTree other s.tables s.tables :=
    fun _ _ _ _ _ _ _ => rfl
  have hStore :
      ∀ other ∈ roots,
        (Sees root target level other →
          SlotUpdate other target level value s.tables
            s'.tables) ∧
        (¬ Sees root target level other →
          SameTree other s.tables s'.tables) := by
    intro other hOther
    have hUpdate :=
      hForest.slotUpdate hRoot hOther hLevel hTable
        (hSame other hOther) value
    rwa [Nat.mod_eq_of_lt hValue] at hUpdate
  have hOld :
      ∀ other v k found, other ∈ roots → k < 4 →
        tableAt s'.tables other v k = some found →
          tableAt s.tables other v k = some found := by
    intro other v k found hOther hk hFound
    by_cases hSees : Sees root target level other
    · exact ((hStore other hOther).1 hSees).tableAt_of_stop
        hLevel
        (hForest.tableAt_of_sees hRoot hOther hTable hSees)
        hStop hk hFound
    · rwa [((hStore other hOther).2 hSees).tableAt_eq v
        (by omega)] at hFound
  refine ⟨?_, ?_, ?_, ?_⟩
  · refine hForest.of_subset hOld ?_ rfl
    intro left right v hLeft hRight hShared
    exact hForest.shared_store hRoot hLevel hTable hSame
      hKeeps value hLeft hRight hShared
  · intro other hOther v k found hk hFound
    exact .inl (hOld other v k found hOther hk hFound)
  · intro hPos other hOther v found hOne
    by_cases hSees : Sees root target level other
    · rw [((hStore other hOther).1 hSees).tableAt_above v
        hPos hLevel, hOne]
    · rw [((hStore other hOther).2 hSees).tableAt_eq v
        (by omega), hOne]
  · intro other hOther v
    constructor
    · intro hSees hOn
      exact ((hStore other hOther).1 hSees).leafOf_on hOn
        hLevel
        (hForest.tableAt_of_sees hRoot hOther hTable hSees)
        hStop
    · intro hMiss
      by_cases hSees : Sees root target level other
      · exact ((hStore other hOther).1 hSees).leafOf_off
          (fun hOn => hMiss ⟨hSees, hOn⟩)
      · exact ((hStore other hOther).2 hSees).leafOf_eq v

end Vmm

end Whirliscope
