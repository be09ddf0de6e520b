import Whirliscope.Fs.Ext2.VolumeMarking
import Whirliscope.Library.Vacancy

/-
  The block and inode allocators in terms of the volume, and
  the free counts of a volume.

  Key definitions include:
    * `BlockCounts`, `InodeCounts`
    * `Volume.takeBlock`

  Main theorems:
    * `Holds.ensures_allocateBlock`
    * `Holds.ensures_allocateInode`
    * `BlockCounts.markBlock`
-/

------------------------------------------------------------
-- Counts of Blocks
------------------------------------------------------------

namespace Whirliscope

namespace Ext2

open ByteMemory FaultProgram Vacancy

namespace Geometry

/- The blocks of a volume, and of one group. -/
def blocks
    (G : Geometry) : Finset Nat :=
  (Finset.range G.blocksCount).filter G.Tracked

def groupBlocks
    (G : Geometry)
    (group : Nat) : Finset Nat :=
  G.blocks.filter fun block => G.blockGroup block = group

@[simp] theorem mem_blocks
    {G : Geometry}
    {block : Nat} :
    block ∈ G.blocks ↔ G.Tracked block := by
  unfold blocks
  rw [Finset.mem_filter, Finset.mem_range]
  exact ⟨fun hBlock => hBlock.2,
    fun hTracked => ⟨hTracked.2, hTracked⟩⟩

@[simp] theorem mem_groupBlocks
    {G : Geometry}
    {group block : Nat} :
    block ∈ G.groupBlocks group ↔
      G.Tracked block ∧ G.blockGroup block = group := by
  unfold groupBlocks
  rw [Finset.mem_filter, mem_blocks]

theorem card_blocks_lt
    {G : Geometry}
    (hSane : Sane G) :
    G.blocks.card < 2 ^ 32 := by
  have hLe : G.blocks.card ≤ G.blocksCount := by
    have hCard :=
      Finset.card_filter_le (Finset.range G.blocksCount)
        G.Tracked
    rw [Finset.card_range] at hCard
    exact hCard
  exact Nat.lt_of_le_of_lt hLe hSane.blocksCount_lt

theorem card_groupBlocks_lt
    {G : Geometry}
    (hSane : Sane G)
    (group : Nat) :
    (G.groupBlocks group).card < 2 ^ 16 := by
  have hLe :
      (G.groupBlocks group).card ≤
        (Finset.range G.blocksPerGroup).card := by
    apply Finset.card_le_card_of_injOn G.blockIndex
    · intro block _
      exact Finset.mem_coe.mpr
        (Finset.mem_range.mpr (hSane.blockIndex_lt block))
    · intro block hBlock other hOther hSame
      have hHere := mem_groupBlocks.mp hBlock
      have hThere := mem_groupBlocks.mp hOther
      rw [← Sane.blockAt_index hHere.1,
        ← Sane.blockAt_index hThere.1, hHere.2, hThere.2,
        hSame]
  rw [Finset.card_range] at hLe
  have hSize := hSane.blocksPerGroup.2
  rcases hSane.blockSize_cases with h | h | h <;> omega

end Geometry

/- The free block counts agree with the block bitmaps. -/
structure BlockCounts
    (G : Geometry)
    (V : Volume) : Prop where
  total : V.freeBlocks = (vacant G.blocks V.used).card
  group :
    ∀ group, group < G.groupCount →
      V.groupFreeBlocks group =
        (vacant (G.groupBlocks group) V.used).card

/- A count of vacant places follows a place. -/
theorem adjust_card_vacant
    {ι : Type}
    [DecidableEq ι]
    {bits : Nat}
    {places : Finset ι}
    {taken : ι → Bool}
    {place : ι}
    (hPlaces : places.card < 2 ^ bits)
    (hPlace : place ∈ places)
    {used : Bool}
    (hChanged : ¬ taken place = used) :
    adjust bits used (vacant places taken).card =
      (vacant places
        (Function.update taken place used)).card := by
  unfold adjust
  cases used with
  | true =>
      rw [if_pos rfl, card_vacant_take hPlace
        (by simpa using hChanged)]
  | false =>
      have hTaken : taken place = true := by
        simpa using hChanged
      have hGive := card_vacant_give hPlace hTaken
      have hLe :
          (vacant places
            (Function.update taken place false)).card ≤
            places.card :=
        card_vacant_le
      rw [if_neg Bool.false_ne_true, wrap_of_lt (by omega),
        hGive]

theorem BlockCounts.markBlock
    {G : Geometry}
    {V : Volume}
    (hSane : Sane G)
    (hCounts : BlockCounts G V)
    {block : Nat}
    (hTracked : G.Tracked block)
    (used : Bool) :
    BlockCounts G (V.markBlock G block used) := by
  by_cases hSame : V.used block = used
  · rw [Volume.markBlock, if_pos hSame]
    exact hCounts
  rw [Volume.markBlock, if_neg hSame]
  constructor
  · rw [hCounts.total]
    exact adjust_card_vacant (Geometry.card_blocks_lt hSane)
      (Geometry.mem_blocks.mpr hTracked) hSame
  · intro group hGroup
    by_cases hHere : group = G.blockGroup block
    · subst hHere
      simp only [Function.update_self]
      rw [hCounts.group _ hGroup]
      exact adjust_card_vacant
        (Geometry.card_groupBlocks_lt hSane _)
        (Geometry.mem_groupBlocks.mpr ⟨hTracked, rfl⟩) hSame
    · simp only [Function.update_of_ne hHere]
      rw [hCounts.group _ hGroup, vacant_update_of_not_mem]
      intro hMem
      exact hHere (Geometry.mem_groupBlocks.mp hMem).2.symm

end Ext2

end Whirliscope

------------------------------------------------------------
-- Allocating a Block
------------------------------------------------------------

namespace Whirliscope

namespace Ext2

open ByteMemory FaultProgram Vacancy

/- Take a block and clear it. -/
def Volume.takeBlock
    (V : Volume)
    (G : Geometry)
    (block : Nat) : Volume :=
  { V.markBlock G block true with
    contents := Function.update V.contents block zeros }

/- A block that the allocator may hand out. -/
def Fresh
    (G : Geometry)
    (V : Volume)
    (block : Nat) : Prop :=
  G.IsData block ∧ V.used block = false

/- The blocks of the file system itself are not free. -/
def MetadataUsed
    (G : Geometry)
    (V : Volume) : Prop :=
  ∀ block, G.Tracked block → G.metadata block = true →
    V.used block = true

/- No group has a block for the allocator. -/
def Exhausted
    (G : Geometry)
    (V : Volume) : Prop :=
  ∀ group, group < G.groupCount →
    V.groupFreeBlocks group = 0 ∨
      ∀ block, G.Tracked block →
        G.blockGroup block = group → V.used block = true

/- With true counts, nothing is free when nothing is left. -/
theorem BlockCounts.exhausted_iff
    {G : Geometry}
    {V : Volume}
    (hSane : Sane G)
    (hCounts : BlockCounts G V) :
    Exhausted G V ↔ V.freeBlocks = 0 := by
  rw [hCounts.total, Finset.card_eq_zero,
    Finset.eq_empty_iff_forall_notMem]
  constructor
  · intro hExhausted block hMem
    rw [mem_vacant, Geometry.mem_blocks] at hMem
    have hGroup := hSane.blockGroup_lt hMem.1
    rcases hExhausted _ hGroup with hZero | hUsed
    · rw [hCounts.group _ hGroup, Finset.card_eq_zero,
        Finset.eq_empty_iff_forall_notMem] at hZero
      apply hZero block
      rw [mem_vacant, Geometry.mem_groupBlocks]
      exact ⟨⟨hMem.1, rfl⟩, hMem.2⟩
    · have hBlock := hUsed block hMem.1 rfl
      rw [hMem.2] at hBlock
      exact Bool.false_ne_true hBlock
  · intro hNone group _
    refine .inr fun block hTracked _ => ?_
    have hNot := hNone block
    rw [mem_vacant, Geometry.mem_blocks, not_and] at hNot
    simpa using hNot hTracked

namespace Holds

variable {G : Geometry} {V : Volume} {s : State}
variable {stops : Fault → Prop}

/- Only the bytes inside the data blocks matter. -/
theorem congr_contents
    (hHolds : Holds G V s)
    {contents : Nat → Bytes}
    (hSame :
      ∀ block, G.IsData block → ∀ i, i < G.blockSize →
        V.contents block i = contents block i) :
    Holds G { V with contents := contents } s where
  fsImage := hHolds.fsImage
  superblock := hHolds.superblock
  fsSize := hHolds.fsSize
  blockSize := hHolds.blockSize
  groupCount := hHolds.groupCount
  header := hHolds.header
  descriptors := hHolds.descriptors
  cells := by
    intro cell hCell
    have hHas := hHolds.cells cell hCell
    cases cell with
    | data block =>
        intro i hi
        rw [hHas i hi]
        exact hSame block hCell i hi
    | _ => exact hHas
  outside := hHolds.outside

/- Clear a whole data block. -/
theorem ensures_clearData
    (hSane : Sane G)
    (hHolds : Holds G V s)
    {block : Nat}
    (hData : G.IsData block) :
    Ensures stops
      (store
        { address := block * G.blockSize + 0
          extent := G.blockSize }
        0 G.blockSize zeros)
      s
      fun _ final =>
        Holds G
          { V with
            contents :=
              Function.update V.contents block zeros }
          final := by
  apply (hHolds.ensures_storeData hSane hData (by omega)
    (by omega) zeros).mono
  intro _ final hFinal
  apply hFinal.congr_contents
  intro other _ i hi
  by_cases hSame : other = block
  · subst hSame
    simp only [Function.update_self]
    rw [write_of_mem (Nat.zero_le _) (by omega)]
    rfl
  · simp only [Function.update_of_ne hSame]

theorem groupBase_eq
    (hSane : Sane G)
    (hHolds : Holds G V s)
    {group : Nat}
    (hGroup : group < G.groupCount) :
    groupBase s group = .ok (G.blockAt group 0) := by
  have hBelow := hSane.group_mul_lt hGroup
  have hFirst := hSane.firstDataBlock_le
  have hCount := hSane.blocksCount_lt
  have hNumbers := hSane.blockNumbers
  have hMul :
      group * G.blocksPerGroup ≤
        G.groupCount * G.blocksPerGroup :=
    Nat.mul_le_mul_right _ (Nat.le_of_lt hGroup)
  unfold groupBase
  simp only [hHolds.firstDataBlock_eq hSane,
    hHolds.blocksPerGroup_eq hSane, bind, Except.bind, pure,
    Except.pure]
  apply congrArg
  rw [wrap_of_lt (by omega)]
  rfl

/- The limit of the search is where the group's blocks end. -/
theorem groupLimit_eq
    (hSane : Sane G)
    (hHolds : Holds G V s)
    {group : Nat}
    (hGroup : group < G.groupCount) :
    ∃ limit,
      groupLimit s (G.blockAt group 0) = .ok limit ∧
        ∀ index, index < limit ↔
          G.HasBlockBit group index := by
  have hBelow := hSane.group_mul_lt hGroup
  have hFirst := hSane.firstDataBlock_le
  have hCount := hSane.blocksCount_lt
  have hNumbers := hSane.blockNumbers
  have hMul :
      (group + 1) * G.blocksPerGroup ≤
        G.groupCount * G.blocksPerGroup :=
    Nat.mul_le_mul_right _ hGroup
  rw [Nat.add_mul, Nat.one_mul] at hMul
  have hBase :
      G.blockAt group 0 =
        G.firstDataBlock + group * G.blocksPerGroup :=
    rfl
  unfold groupLimit
  simp only [hHolds.blocksCount_eq hSane,
    hHolds.blocksPerGroup_eq hSane, bind, Except.bind, pure,
    Except.pure]
  rw [wrap_of_lt (by omega)]
  unfold Geometry.HasBlockBit Geometry.blockAt
  split
  · rw [wrapSub_of_le hCount (by omega)]
    refine ⟨_, rfl, fun index => ?_⟩
    omega
  · refine ⟨_, rfl, fun index => ?_⟩
    omega

/- What one pass of the search in a group does. -/
theorem ensures_allocateBlockAt
    (hSane : Sane G)
    (hHolds : Holds G V s)
    (hMetadata : MetadataUsed G V)
    {group index limit : Nat}
    (hGroup : group < G.groupCount)
    (hLimit :
      ∀ i, i < limit ↔ G.HasBlockBit group i) :
    Ensures stops
      (allocateBlockAt (G.cellPointer (.blockBitmap group))
        (G.blockAt group 0) limit index)
      s
      fun next final =>
        match next with
        | .inl following =>
            final = s ∧ following = index + 1 ∧
              index < limit ∧
                V.used (G.blockAt group index) = true
        | .inr none => final = s ∧ limit ≤ index
        | .inr (some block) =>
            Fresh G V block ∧
              Holds G (V.takeBlock G block) final := by
  unfold allocateBlockAt
  rw [ensures_ite_iff]
  constructor
  · intro hEnd
    rw [ensures_pure_iff]
    exact ⟨rfl, hEnd⟩
  intro hIndex
  have hLess : index < limit := by omega
  have hBit := (hLimit index).mp hLess
  have hTracked := Sane.tracked_at hBit
  have hCount := hSane.blocksCount_lt
  have hBlock :
      wrap 32 (G.blockAt group 0 + index) =
        G.blockAt group index :=
    wrap_of_lt (Nat.lt_trans hBit.2 hCount)
  simp only [ensures_bind_iff, ensures_get_iff,
    ensures_lift_iff, hHolds.bitmapGet_block hSane hGroup hBit,
    yields_ok_iff, hBlock]
  rw [ensures_ite_iff]
  constructor
  · intro hUsed
    rw [ensures_pure_iff]
    exact ⟨rfl, rfl, hLess, hUsed⟩
  intro hFree
  have hUnused : V.used (G.blockAt group index) = false := by
    simpa using hFree
  have hData : G.IsData (G.blockAt group index) := by
    refine ⟨hTracked, ?_⟩
    cases hMeta : G.metadata (G.blockAt group index) with
    | false => rfl
    | true =>
        have hUsed := hMetadata _ hTracked hMeta
        rw [hUnused] at hUsed
        exact absurd hUsed Bool.false_ne_true
  rw [ensures_bind_iff]
  apply (hHolds.ensures_markBlockUsed hSane hTracked
    true).mono
  rintro marked s₁ ⟨rfl, hMarked⟩
  simp only [Bool.not_true, Bool.false_eq_true, if_false,
    ensures_bind_iff, ensures_get_iff]
  rw [hMarked.blockSize,
    hMarked.blockPtr_data hSane hData (by omega)]
  simp only [ensures_bind_iff, ensures_pure_iff]
  apply (hMarked.ensures_clearData hSane hData).mono
  intro _ final hFinal
  rw [Volume.markBlock_contents] at hFinal
  exact ⟨⟨hData, hUnused⟩, hFinal⟩

/- What the search in a group does. -/
theorem ensures_searchGroup
    (hSane : Sane G)
    (hHolds : Holds G V s)
    (hMetadata : MetadataUsed G V)
    {group limit : Nat}
    (hGroup : group < G.groupCount)
    (hLimit :
      ∀ i, i < limit ↔ G.HasBlockBit group i) :
    Ensures stops
      (loop (throw .noReturn)
        (allocateBlockAt
          (G.cellPointer (.blockBitmap group))
          (G.blockAt group 0) limit)
        (limit + 1) 0)
      s
      fun found final =>
        match found with
        | none =>
            final = s ∧
              ∀ i, G.HasBlockBit group i →
                V.used (G.blockAt group i) = true
        | some block =>
            Fresh G V block ∧
              Holds G (V.takeBlock G block) final := by
  apply ensures_loop_measure (fun index => limit - index)
    fun index state =>
      state = s ∧ index ≤ limit ∧
        ∀ i, i < index → V.used (G.blockAt group i) = true
  · rintro index state ⟨rfl, hIndex, hUsed⟩
    apply (hHolds.ensures_allocateBlockAt hSane hMetadata
      hGroup hLimit).mono
    intro next final hNext
    cases next with
    | inl following =>
        rcases hNext with ⟨hSame, rfl, hLess, hHere⟩
        refine ⟨by omega, hSame, by omega, fun i hi => ?_⟩
        by_cases hLast : i = index
        · rw [hLast]
          exact hHere
        · exact hUsed i (by omega)
    | inr found =>
        cases found with
        | none =>
            refine ⟨hNext.1, fun i hBit => hUsed i ?_⟩
            have hBelow := (hLimit i).mpr hBit
            have hEnd := hNext.2
            omega
        | some block => exact hNext
  · omega
  · exact ⟨rfl, Nat.zero_le _,
      fun i hi => absurd hi (Nat.not_lt_zero i)⟩

/- One pass of the search over the groups. -/
theorem ensures_allocateBlockInGroup
    (hSane : Sane G)
    (hHolds : Holds G V s)
    (hMetadata : MetadataUsed G V)
    (group : Nat) :
    Ensures stops (allocateBlockInGroup group) s
      fun next final =>
        match next with
        | .inl following =>
            final = s ∧ following = group + 1 ∧
              group < G.groupCount ∧
              (V.groupFreeBlocks group = 0 ∨
                ∀ i, G.HasBlockBit group i →
                  V.used (G.blockAt group i) = true)
        | .inr block =>
            block = 0 ∧ final = s ∧ G.groupCount ≤ group ∨
              Fresh G V block ∧
                Holds G (V.takeBlock G block) final := by
  unfold allocateBlockInGroup
  rw [ensures_bind_iff, ensures_get_iff, hHolds.groupCount,
    ensures_ite_iff]
  constructor
  · intro hEnd
    rw [ensures_pure_iff]
    exact .inl ⟨rfl, rfl, hEnd⟩
  intro hMore
  have hGroup : group < G.groupCount := by omega
  rcases hHolds.groupLimit_eq hSane hGroup with
    ⟨limit, hLimitEq, hLimit⟩
  simp only [hHolds.groupDesc_eq hSane, if_pos hGroup,
    hHolds.descFreeBlocksCount_eq hSane hGroup,
    ensures_bind_iff, ensures_lift_iff, yields_ok_iff]
  rw [ensures_ite_iff]
  constructor
  · intro hZero
    rw [ensures_pure_iff]
    exact ⟨rfl, rfl, hGroup, .inl hZero⟩
  intro _
  simp only [hHolds.descBlockBitmap_eq hSane hGroup,
    ensures_bind_iff, ensures_lift_iff, yields_ok_iff,
    hHolds.blockPtr_blockBitmap hSane hGroup,
    hHolds.groupBase_eq hSane hGroup, hLimitEq]
  apply (hHolds.ensures_searchGroup hSane hMetadata hGroup
    hLimit).mono
  intro found final hFound
  cases found with
  | none =>
      exact (ensures_pure_iff _ _ _ _).mpr
        ⟨hFound.1, rfl, hGroup, .inr hFound.2⟩
  | some block =>
      exact (ensures_pure_iff _ _ _ _).mpr (.inr hFound)

/- `allocate_block` takes a free block or finds none. -/
theorem ensures_allocateBlock
    (hSane : Sane G)
    (hHolds : Holds G V s)
    (hMetadata : MetadataUsed G V) :
    Ensures stops allocateBlock s fun block final =>
      block = 0 ∧ final = s ∧ Exhausted G V ∨
        Fresh G V block ∧
          Holds G (V.takeBlock G block) final := by
  unfold allocateBlock
  rw [ensures_bind_iff, ensures_get_iff, hHolds.groupCount]
  apply ensures_loop_measure
    (fun group => G.groupCount - group)
    fun group state =>
      state = s ∧ group ≤ G.groupCount ∧
        ∀ g, g < group →
          V.groupFreeBlocks g = 0 ∨
            ∀ i, G.HasBlockBit g i →
              V.used (G.blockAt g i) = true
  · rintro group state ⟨rfl, hLe, hBefore⟩
    apply (hHolds.ensures_allocateBlockInGroup hSane
      hMetadata group).mono
    intro next final hNext
    cases next with
    | inl following =>
        rcases hNext with ⟨hSame, rfl, hLess, hHere⟩
        refine ⟨by omega, hSame, by omega, fun g hg => ?_⟩
        by_cases hLast : g = group
        · rw [hLast]
          exact hHere
        · exact hBefore g (by omega)
    | inr block =>
        refine hNext.imp ?_ id
        rintro ⟨rfl, hSame, hEnd⟩
        refine ⟨rfl, hSame, fun g hg => ?_⟩
        refine (hBefore g (by omega)).imp id ?_
        rintro hAll b hTracked rfl
        have hBlock :=
          hAll _ (hSane.hasBlockBit_index hTracked)
        rw [Sane.blockAt_index hTracked] at hBlock
        exact hBlock
  · omega
  · exact ⟨rfl, Nat.zero_le _,
      fun g hg => absurd hg (Nat.not_lt_zero g)⟩

end Holds

end Ext2

end Whirliscope

------------------------------------------------------------
-- Counts of Inodes
------------------------------------------------------------

namespace Whirliscope

namespace Ext2

open ByteMemory FaultProgram Vacancy

namespace Geometry

/- The inodes of a volume, and of one group. -/
def inodeNumbers
    (G : Geometry) : Finset Nat :=
  (Finset.range (G.inodesCount + 1)).filter G.HasInode

def groupInodes
    (G : Geometry)
    (group : Nat) : Finset Nat :=
  G.inodeNumbers.filter fun number =>
    G.inodeGroup number = group

@[simp] theorem mem_inodeNumbers
    {G : Geometry}
    {number : Nat} :
    number ∈ G.inodeNumbers ↔ G.HasInode number := by
  unfold inodeNumbers
  rw [Finset.mem_filter, Finset.mem_range]
  exact ⟨fun hNumber => hNumber.2,
    fun hInode => ⟨Nat.lt_succ_of_le hInode.2.1, hInode⟩⟩

@[simp] theorem mem_groupInodes
    {G : Geometry}
    {group number : Nat} :
    number ∈ G.groupInodes group ↔
      G.HasInode number ∧ G.inodeGroup number = group := by
  unfold groupInodes
  rw [Finset.mem_filter, mem_inodeNumbers]

theorem card_inodeNumbers_lt
    {G : Geometry}
    (hSane : Sane G) :
    G.inodeNumbers.card < 2 ^ 32 := by
  have hLe : G.inodeNumbers.card ≤ G.inodesCount + 1 := by
    have hCard :=
      Finset.card_filter_le (Finset.range (G.inodesCount + 1))
        G.HasInode
    rw [Finset.card_range] at hCard
    exact hCard
  exact Nat.lt_of_le_of_lt hLe hSane.inodeNumbers

theorem card_groupInodes_le
    {G : Geometry}
    (hSane : Sane G)
    (group : Nat) :
    (G.groupInodes group).card ≤ 2 ^ 15 := by
  have hLe :
      (G.groupInodes group).card ≤
        (Finset.range G.inodesPerGroup).card := by
    apply Finset.card_le_card_of_injOn G.inodeIndex
    · intro number _
      exact Finset.mem_coe.mpr
        (Finset.mem_range.mpr (hSane.inodeIndex_lt number))
    · intro number hNumber other hOther hSame
      have hHere := mem_groupInodes.mp hNumber
      have hThere := mem_groupInodes.mp hOther
      rw [← Sane.inodeAt_index (G := G) hHere.1.1,
        ← Sane.inodeAt_index (G := G) hThere.1.1, hHere.2,
        hThere.2, hSame]
  rw [Finset.card_range] at hLe
  have hSize := hSane.inodesPerGroup.2
  rcases hSane.blockSize_cases with h | h | h <;> omega

end Geometry

/- The directories of a group. -/
def Volume.directories
    (V : Volume)
    (G : Geometry)
    (group : Nat) : Finset Nat :=
  (G.groupInodes group).filter fun number =>
    V.inodeUsed number = true ∧
      (V.inodes number).isDir = true

/-
  The inode counts agree with the inode bitmaps and the modes
  of the inodes.
-/
structure InodeCounts
    (G : Geometry)
    (V : Volume) : Prop where
  total :
    V.freeInodes = (vacant G.inodeNumbers V.inodeUsed).card
  group :
    ∀ group, group < G.groupCount →
      V.groupFreeInodes group =
        (vacant (G.groupInodes group) V.inodeUsed).card
  dirs :
    ∀ group, group < G.groupCount →
      V.groupDirs group = (V.directories G group).card

/- The counts at the group of a free inode. -/
theorem InodeCounts.room
    {G : Geometry}
    {V : Volume}
    (hSane : Sane G)
    (hCounts : InodeCounts G V)
    {number : Nat}
    (hInode : G.HasInode number)
    (hFree : V.inodeUsed number = false) :
    0 < V.freeInodes ∧
      0 < V.groupFreeInodes (G.inodeGroup number) ∧
        V.groupDirs (G.inodeGroup number) + 1 < 2 ^ 16 := by
  have hGroup := hInode.2.2
  rw [hCounts.total, hCounts.group _ hGroup,
    hCounts.dirs _ hGroup]
  refine ⟨card_vacant_pos
      (Geometry.mem_inodeNumbers.mpr hInode) hFree,
    card_vacant_pos
      (Geometry.mem_groupInodes.mpr ⟨hInode, rfl⟩) hFree, ?_⟩
  have hLe :
      (V.directories G (G.inodeGroup number)).card ≤
        (G.groupInodes (G.inodeGroup number)).card :=
    Finset.card_filter_le _ _
  have hCard := Geometry.card_groupInodes_le hSane
    (G.inodeGroup number)
  omega

end Ext2

end Whirliscope

------------------------------------------------------------
-- Allocating an Inode
------------------------------------------------------------

namespace Whirliscope

namespace Ext2

open ByteMemory FaultProgram Vacancy

/- Take an inode and clear it. -/
def Volume.takeInode
    (V : Volume)
    (G : Geometry)
    (number : Nat)
    (isDir : Bool) : Volume :=
  { V.markInode G number true isDir with
    inodes := Function.update V.inodes number Inode.zero }

/- An inode that the allocator may hand out. -/
def FreshInode
    (G : Geometry)
    (V : Volume)
    (number : Nat) : Prop :=
  G.HasInode number ∧ G.firstIno ≤ number ∧
    V.inodeUsed number = false

/- No group has an inode for the allocator. -/
def InodesExhausted
    (G : Geometry)
    (V : Volume) : Prop :=
  ∀ number, G.HasInode number → G.firstIno ≤ number →
    V.groupFreeInodes (G.inodeGroup number) = 0 ∨
      V.inodeUsed number = true

/- With true counts, no inode is free when none is left. -/
theorem InodeCounts.exhausted_iff
    {G : Geometry}
    {V : Volume}
    (hSane : Sane G)
    (hCounts : InodeCounts G V) :
    InodesExhausted G V ↔
      ∀ number, ¬ FreshInode G V number := by
  constructor
  · rintro hExhausted number ⟨hInode, hFirst, hFree⟩
    have hRoom := hCounts.room hSane hInode hFree
    rcases hExhausted number hInode hFirst with hZero | hUsed
    · omega
    · rw [hFree] at hUsed
      exact Bool.false_ne_true hUsed
  · intro hNone number hInode hFirst
    refine .inr ?_
    cases hUsed : V.inodeUsed number with
    | true => rfl
    | false =>
        exact absurd ⟨hInode, hFirst, hUsed⟩ (hNone number)

namespace Holds

variable {G : Geometry} {V : Volume} {s : State}
variable {stops : Fault → Prop}

/- What one pass of the search for an inode does. -/
theorem ensures_allocateInodeAt
    (hSane : Sane G)
    (hHolds : Holds G V s)
    {number : Nat}
    (hPos : 0 < number)
    (hFirst : G.firstIno ≤ number)
    (isDir : Bool) :
    Ensures stops (allocateInodeAt isDir number) s
      fun next final =>
        match next with
        | .inl following =>
            final = s ∧ following = number + 1 ∧
              number ≤ G.inodesCount ∧
              (G.HasInode number →
                V.groupFreeInodes (G.inodeGroup number) = 0 ∨
                  V.inodeUsed number = true)
        | .inr found =>
            found = 0 ∧ final = s ∧ G.inodesCount < number ∨
              FreshInode G V found ∧
                Holds G (V.takeInode G found isDir) final := by
  have hGroupPos := hSane.inodesPerGroup.1
  have hNumbers := hSane.inodeNumbers
  unfold allocateInodeAt
  rw [ensures_bind_iff, ensures_get_iff]
  simp only [hHolds.inodesCount_eq hSane, ensures_bind_iff,
    ensures_lift_iff, yields_ok_iff]
  rw [ensures_ite_iff]
  constructor
  · intro hEnd
    rw [ensures_pure_iff]
    exact .inl ⟨rfl, rfl, hEnd⟩
  intro hMore
  have hLe : number ≤ G.inodesCount := by omega
  have hIndex : wrapSub 32 number 1 = number - 1 :=
    wrapSub_of_le (by omega) hPos
  have hNext : wrap 32 (number + 1) = number + 1 :=
    wrap_of_lt (by omega)
  simp only [hHolds.inodesPerGroup_eq hSane, hIndex, hNext,
    divide_of_pos hGroupPos, modulo_of_pos hGroupPos,
    ensures_bind_iff, ensures_lift_iff, yields_ok_iff]
  by_cases hGroup : G.inodeGroup number < G.groupCount
  · have hInode : G.HasInode number := ⟨hPos, hLe, hGroup⟩
    have hBit := hSane.hasInodeBit_index hInode
    have hDesc :
        groupDesc s ((number - 1) / G.inodesPerGroup) =
          some (G.cellPointer
            (.groupDesc (G.inodeGroup number))) := by
      have hEq := hHolds.groupDesc_eq hSane
        (G.inodeGroup number)
      rw [if_pos hGroup] at hEq
      exact hEq
    have hOld :
        bitmapGet s
            (G.cellPointer
              (.inodeBitmap (G.inodeGroup number)))
            ((number - 1) % G.inodesPerGroup) =
          .ok (V.inodeUsed number) := by
      have hEq := hHolds.bitmapGet_inode hSane hGroup hBit
      rw [Sane.inodeAt_index hPos] at hEq
      exact hEq
    simp only [hDesc,
      hHolds.descFreeInodesCount_eq hSane hGroup,
      ensures_bind_iff, ensures_lift_iff, yields_ok_iff]
    rw [ensures_ite_iff]
    constructor
    · intro hZero
      rw [ensures_pure_iff]
      exact ⟨rfl, rfl, hLe, fun _ => .inl hZero⟩
    intro _
    simp only [hHolds.descInodeBitmap_eq hSane hGroup,
      hHolds.blockPtr_inodeBitmap hSane hGroup, hOld,
      ensures_bind_iff, ensures_lift_iff, yields_ok_iff]
    rw [ensures_ite_iff]
    constructor
    · intro hUsed
      rw [ensures_pure_iff]
      exact ⟨rfl, rfl, hLe, fun _ => .inr hUsed⟩
    intro hFree
    rw [ensures_bind_iff]
    apply (hHolds.ensures_markInodeUsed hSane hInode true
      isDir).mono
    rintro marked s₁ ⟨rfl, hMarked⟩
    simp only [Bool.not_true, Bool.false_eq_true, if_false,
      ensures_bind_iff, ensures_pure_iff]
    apply (hMarked.ensures_writeInode hSane hInode
      Inode.zero).mono
    intro _ final hFinal
    rw [Volume.markInode_inodes] at hFinal
    exact .inr
      ⟨⟨hInode, hFirst, by simpa using hFree⟩, hFinal.2⟩
  · have hDesc :
        groupDesc s ((number - 1) / G.inodesPerGroup) =
          none := by
      have hEq := hHolds.groupDesc_eq hSane
        (G.inodeGroup number)
      rw [if_neg hGroup] at hEq
      exact hEq
    rw [hDesc]
    exact (ensures_pure_iff _ _ _ _).mpr ⟨rfl, rfl, hLe,
      fun hInode => absurd hInode.2.2 hGroup⟩

/- `allocate_inode` takes a free inode or finds none. -/
theorem ensures_allocateInode
    (hSane : Sane G)
    (hHolds : Holds G V s)
    (isDir : Bool) :
    Ensures stops (allocateInode isDir) s fun found final =>
      found = 0 ∧ final = s ∧ InodesExhausted G V ∨
        FreshInode G V found ∧
          Holds G (V.takeInode G found isDir) final := by
  have hNumbers := hSane.inodeNumbers
  have hFirst := hHolds.header.firstIno
  have hPos : 0 < G.firstIno := by
    rw [← hFirst]
    split <;> omega
  unfold allocateInode
  simp only [ensures_bind_iff, ensures_get_iff,
    ensures_lift_iff, hHolds.firstIno_eq hSane, yields_ok_iff,
    hFirst]
  apply ensures_loop_measure
    (fun number => G.inodesCount + 1 - number)
    fun number state =>
      state = s ∧ G.firstIno ≤ number ∧
        ∀ k, G.HasInode k → G.firstIno ≤ k → k < number →
          V.groupFreeInodes (G.inodeGroup k) = 0 ∨
            V.inodeUsed k = true
  · rintro number state ⟨rfl, hLow, hBefore⟩
    apply (hHolds.ensures_allocateInodeAt hSane (by omega)
      hLow isDir).mono
    intro next final hNext
    cases next with
    | inl following =>
        rcases hNext with ⟨hSame, rfl, hLe, hHere⟩
        refine ⟨by omega, hSame, by omega, ?_⟩
        intro k hInode hFirst' hLess
        by_cases hLast : k = number
        · subst hLast
          exact hHere hInode
        · exact hBefore k hInode hFirst' (by omega)
    | inr found =>
        refine hNext.imp ?_ id
        rintro ⟨rfl, hSame, hEnd⟩
        refine ⟨rfl, hSame, fun k hInode hFirst' => ?_⟩
        have hCount := hInode.2.1
        exact hBefore k hInode hFirst' (by omega)
  · omega
  · refine ⟨rfl, Nat.le_refl _, ?_⟩
    intro k _ hFirst' hLess
    omega

end Holds

end Ext2

end Whirliscope
