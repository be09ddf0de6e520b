import Whirliscope.Library.ByteMemory

/-
  Four-level page tables and the translation of addresses.

  Tables are named by physical addresses: the kernel reads
  them through a fixed offset.

  Key definitions include:
    * `walkToLevelInRoot`
    * `vmmVirtToPhys`

  Main theorem:
    * `vmmVirtToPhys_page`
-/

------------------------------------------------------------
-- Walking the Tables
------------------------------------------------------------

namespace Whirliscope

namespace Vmm

open ByteMemory

def vmmPresent : Nat := 2 ^ 0
def vmmHuge : Nat := 2 ^ 7

def pteAddrMask : Nat := 0x000ffffffffff000
def pteHuge2mAddrMask : Nat := 0x000fffffffe00000
def pteHuge1gAddrMask : Nat := 0x000fffffc0000000

/- `table_index`. -/
def tableIndex
    (virtualAddress shift : Nat) : Nat :=
  (virtualAddress >>> shift) &&& 0x1ff

/- `entry_to_table`. -/
def entryToTable
    (entry : Nat) : Nat :=
  entry &&& pteAddrMask

/- `is_huge_entry`. -/
def isHugeEntry
    (entry shift : Nat) : Bool :=
  (shift == 30 || shift == 21) && entry &&& vmmHuge != 0

/- `struct vmm_mapping`: where an entry is stored. -/
structure VmmMapping where
  entry : Nat
  shift : Nat
deriving DecidableEq, Repr

def loadEntry
    (tables : Bytes)
    (entry : Nat) : Nat :=
  getLE tables entry 8

/- The loop of `walk_to_level_in_root`, without creation. -/
def walkLevels
    (tables : Bytes)
    (virtualAddress targetShift : Nat) :
    List Nat → Nat → Option VmmMapping
| [], _ => none
| shift :: shifts, table =>
    let entry := table + 8 * tableIndex virtualAddress shift
    if shift = targetShift then
      some ⟨entry, shift⟩
    else if loadEntry tables entry &&& vmmPresent = 0 then
      none
    else if isHugeEntry (loadEntry tables entry) shift then
      some ⟨entry, shift⟩
    else
      walkLevels tables virtualAddress targetShift shifts
        (entryToTable (loadEntry tables entry))

/- `walk_to_level_in_root` with `create` false. -/
def walkToLevelInRoot
    (tables : Bytes)
    (root virtualAddress targetShift : Nat) :
    Option VmmMapping :=
  walkLevels tables virtualAddress targetShift
    [39, 30, 21, 12] root

/- `walk_to_existing_mapping`. -/
def walkToExistingMapping
    (tables : Bytes)
    (root virtualAddress : Nat) : Option VmmMapping :=
  (walkToLevelInRoot tables root virtualAddress 12).filter
    fun mapping =>
      loadEntry tables mapping.entry &&& vmmPresent != 0

/- The bits of an entry that are a physical address. -/
def addressMask
    (shift : Nat) : Nat :=
  if shift = 30 then pteHuge1gAddrMask
  else if shift = 21 then pteHuge2mAddrMask
  else pteAddrMask

/- `vmm_virt_to_phys`. -/
def vmmVirtToPhys
    (tables : Bytes)
    (root virtualAddress : Nat) : Option Nat :=
  (walkToExistingMapping tables root virtualAddress).map
    fun mapping =>
      (loadEntry tables mapping.entry &&&
          addressMask mapping.shift) |||
        (virtualAddress &&& (2 ^ mapping.shift - 1))

end Vmm

end Whirliscope

------------------------------------------------------------
-- Pages
------------------------------------------------------------

namespace Whirliscope

namespace Vmm

open ByteMemory

/- A mask of high bits leaves a multiple. -/
theorem and_shiftLeft_eq
    (value mask shift : Nat) :
    value &&& (mask <<< shift) =
      ((value >>> shift) &&& mask) <<< shift := by
  apply Nat.eq_of_testBit_eq
  intro i
  simp only [Nat.testBit_and, Nat.testBit_shiftLeft,
    Nat.testBit_shiftRight]
  by_cases hLow : shift ≤ i
  · simp [hLow, Nat.add_sub_cancel' hLow]
  · simp [hLow]

theorem addressMask_shiftLeft
    {shift : Nat}
    (hShift : shift = 30 ∨ shift = 21 ∨ shift = 12) :
    addressMask shift =
      (addressMask shift >>> shift) <<< shift := by
  rcases hShift with rfl | rfl | rfl <;> decide

/- The levels at which a walk can end. -/
theorem walkLevels_shift
    {tables : Bytes}
    {virtualAddress table : Nat}
    {shifts : List Nat}
    {mapping : VmmMapping}
    (hWalk :
      walkLevels tables virtualAddress 12 shifts table =
        some mapping) :
    mapping.shift = 30 ∨ mapping.shift = 21 ∨
      mapping.shift = 12 := by
  induction shifts generalizing table with
  | nil => cases hWalk
  | cons shift shifts ih =>
      simp only [walkLevels] at hWalk
      split_ifs at hWalk with hTarget hAbsent hHuge
      · cases hWalk
        exact .inr (.inr hTarget)
      · cases hWalk
        simp only [isHugeEntry, Bool.and_eq_true,
          Bool.or_eq_true, beq_iff_eq] at hHuge
        rcases hHuge.1 with h30 | h21
        · exact .inl h30
        · exact .inr (.inl h21)
      · exact ih hWalk

theorem tableIndex_page
    {left right shift : Nat}
    (hPage : left / 4096 = right / 4096)
    (hShift : 12 ≤ shift) :
    tableIndex left shift = tableIndex right shift := by
  have hSame :
      ∀ value, value >>> shift =
        (value / 4096) >>> (shift - 12) := by
    intro value
    have hTwelve : value / 4096 = value >>> 12 := by
      rw [Nat.shiftRight_eq_div_pow]
    rw [hTwelve, ← Nat.shiftRight_add,
      Nat.add_sub_cancel' hShift]
  rw [tableIndex, tableIndex, hSame left, hSame right, hPage]

/- Addresses of one page have the same entry. -/
theorem walkLevels_page
    (tables : Bytes)
    {left right : Nat}
    (hPage : left / 4096 = right / 4096)
    {shifts : List Nat}
    (hShifts : ∀ shift ∈ shifts, 12 ≤ shift)
    (table : Nat) :
    walkLevels tables left 12 shifts table =
      walkLevels tables right 12 shifts table := by
  induction shifts generalizing table with
  | nil => rfl
  | cons shift shifts ih =>
      have hIndex :=
        tableIndex_page hPage
          (hShifts shift List.mem_cons_self)
      have hRest :
          ∀ other ∈ shifts, 12 ≤ other :=
        fun other hOther =>
          hShifts other (List.mem_cons_of_mem _ hOther)
      simp only [walkLevels, hIndex, ih hRest]

theorem walkToExistingMapping_page
    (tables : Bytes)
    (root : Nat)
    {left right : Nat}
    (hPage : left / 4096 = right / 4096) :
    walkToExistingMapping tables root left =
      walkToExistingMapping tables root right := by
  unfold walkToExistingMapping walkToLevelInRoot
  rw [walkLevels_page tables hPage (by decide)]

theorem walkToExistingMapping_shift
    {tables : Bytes}
    {root virtualAddress : Nat}
    {mapping : VmmMapping}
    (hWalk :
      walkToExistingMapping tables root virtualAddress =
        some mapping) :
    mapping.shift = 30 ∨ mapping.shift = 21 ∨
      mapping.shift = 12 := by
  unfold walkToExistingMapping at hWalk
  rw [Option.filter_eq_some_iff] at hWalk
  exact walkLevels_shift hWalk.1

/- An entry and an address give a frame and an offset. -/
theorem entry_or_offset
    {shift : Nat}
    (hShift : shift = 30 ∨ shift = 21 ∨ shift = 12)
    (entry : Nat) :
    ∃ frame, ∀ virtualAddress,
      (entry &&& addressMask shift) |||
          (virtualAddress &&& (2 ^ shift - 1)) =
        4096 * (frame +
            virtualAddress / 4096 % 2 ^ (shift - 12)) +
          virtualAddress % 4096 := by
  have hBase :
      entry &&& addressMask shift =
        ((entry >>> shift) &&&
          (addressMask shift >>> shift)) <<< shift := by
    rw [← and_shiftLeft_eq, ← addressMask_shiftLeft hShift]
  generalize
    (entry >>> shift) &&& (addressMask shift >>> shift) =
      base at hBase
  refine ⟨base * 2 ^ (shift - 12), ?_⟩
  intro virtualAddress
  have hSize : 2 ^ shift = 4096 * 2 ^ (shift - 12) := by
    rcases hShift with rfl | rfl | rfl <;> decide
  rw [hBase, Nat.and_two_pow_sub_one_eq_mod,
    ← Nat.shiftLeft_add_eq_or_of_lt
      (Nat.mod_lt _ (Nat.two_pow_pos _)),
    Nat.shiftLeft_eq, hSize, Nat.mod_mul]
  ring

/- Addresses of one page are translated alike. -/
theorem vmmVirtToPhys_page
    {tables : Bytes}
    {root left right physical : Nat}
    (hMapped :
      vmmVirtToPhys tables root left = some physical)
    (hPage : left / 4096 = right / 4096) :
    physical % 4096 = left % 4096 ∧
      vmmVirtToPhys tables root right =
        some (physical / 4096 * 4096 + right % 4096) := by
  unfold vmmVirtToPhys at hMapped ⊢
  rcases Option.map_eq_some_iff.mp hMapped with
    ⟨mapping, hWalk, rfl⟩
  rcases entry_or_offset
      (walkToExistingMapping_shift hWalk)
      (loadEntry tables mapping.entry) with ⟨frame, hFrame⟩
  rw [← walkToExistingMapping_page tables root hPage, hWalk,
    Option.map_some, hFrame, hFrame, hPage]
  refine ⟨by omega, ?_⟩
  congr 1
  omega

end Vmm

end Whirliscope
