import Whirliscope.Fs.Ext2.FileData
import Whirliscope.Fs.Ext2.Mounting

/-
  An ext2 volume apart from its image: which blocks and inodes
  are used, the inodes, the contents of the data blocks and
  the free counts, and what it means that an image holds a
  volume.

  The fields of the superblock and of the descriptors that no
  operation changes are collected in a geometry. The regions
  that a geometry describes do not overlap, so a store into
  one cell of the image leaves all other cells alone.

  Key definitions include:
    * `Geometry`, `Region`, `Sane`
    * `Volume`, `Cell`, `Holds`

  Main theorem:
    * `Holds.withStore`
-/

------------------------------------------------------------
-- Geometry
------------------------------------------------------------

namespace Whirliscope

namespace Ext2

open ByteMemory FaultProgram

/-
  What the superblock and the group descriptors fix. The
  blocks in `metadata` hold no data of regular files or
  directories: the blocks of the regions below and the blocks
  of reserved inodes.
-/
structure Geometry where
  blockSize : Nat
  fsSize : Nat
  groupCount : Nat
  inodesCount : Nat
  blocksCount : Nat
  firstDataBlock : Nat
  blocksPerGroup : Nat
  inodesPerGroup : Nat
  firstIno : Nat
  inodeSize : Nat
  blockBitmap : Nat → Nat
  inodeBitmap : Nat → Nat
  inodeTable : Nat → Nat
  metadata : Nat → Bool

namespace Geometry

/- A block with a bit in the block bitmaps. -/
def Tracked
    (G : Geometry)
    (block : Nat) : Prop :=
  G.firstDataBlock ≤ block ∧ block < G.blocksCount

/- A block that may hold data of a file. -/
def IsData
    (G : Geometry)
    (block : Nat) : Prop :=
  G.Tracked block ∧ G.metadata block = false

instance (G : Geometry) (block : Nat) :
    Decidable (G.Tracked block) :=
  inferInstanceAs (Decidable (_ ∧ _))

instance (G : Geometry) (block : Nat) :
    Decidable (G.IsData block) :=
  inferInstanceAs (Decidable (_ ∧ _))

/- The group of a block, and its bit in the group's bitmap. -/
def blockGroup
    (G : Geometry)
    (block : Nat) : Nat :=
  (block - G.firstDataBlock) / G.blocksPerGroup

def blockIndex
    (G : Geometry)
    (block : Nat) : Nat :=
  (block - G.firstDataBlock) % G.blocksPerGroup

/- The block of a bit of a group. -/
def blockAt
    (G : Geometry)
    (group index : Nat) : Nat :=
  G.firstDataBlock + group * G.blocksPerGroup + index

/- A bit of a block bitmap that stands for a block. -/
def HasBlockBit
    (G : Geometry)
    (group index : Nat) : Prop :=
  index < G.blocksPerGroup ∧
    G.blockAt group index < G.blocksCount

instance (G : Geometry) (group index : Nat) :
    Decidable (G.HasBlockBit group index) :=
  inferInstanceAs (Decidable (_ ∧ _))

/- The group of an inode, and its place in the group. -/
def inodeGroup
    (G : Geometry)
    (number : Nat) : Nat :=
  (number - 1) / G.inodesPerGroup

def inodeIndex
    (G : Geometry)
    (number : Nat) : Nat :=
  (number - 1) % G.inodesPerGroup

/- The number of the inode at a place of a group. -/
def inodeAt
    (G : Geometry)
    (group index : Nat) : Nat :=
  group * G.inodesPerGroup + index + 1

/- An inode number with a slot in an inode table. -/
def HasInode
    (G : Geometry)
    (number : Nat) : Prop :=
  0 < number ∧ number ≤ G.inodesCount ∧
    G.inodeGroup number < G.groupCount

instance (G : Geometry) (number : Nat) :
    Decidable (G.HasInode number) :=
  inferInstanceAs (Decidable (_ ∧ _ ∧ _))

/- A bit of an inode bitmap that stands for an inode. -/
def HasInodeBit
    (G : Geometry)
    (group index : Nat) : Prop :=
  index < G.inodesPerGroup ∧
    G.inodeAt group index ≤ G.inodesCount

instance (G : Geometry) (group index : Nat) :
    Decidable (G.HasInodeBit group index) :=
  inferInstanceAs (Decidable (_ ∧ _))

/- Where a group descriptor is stored. -/
def descAddress
    (G : Geometry)
    (group : Nat) : Nat :=
  (if G.blockSize = 1024 then 2 else 1) * G.blockSize +
    group * groupDescSize

/- Where an inode is stored. -/
def inodeAddress
    (G : Geometry)
    (number : Nat) : Nat :=
  G.inodeTable (G.inodeGroup number) * G.blockSize +
    G.inodeIndex number * G.inodeSize

end Geometry

/- The parts of an image that must not overlap. -/
inductive Region where
| bootBlock
| superblock
| groupDesc (group : Nat)
| blockBitmap (group : Nat)
| inodeBitmap (group : Nat)
| inodeTable (group : Nat)
| data (block : Nat)

namespace Geometry

/- The regions of an image. -/
def HasRegion
    (G : Geometry) : Region → Prop
| .bootBlock => True
| .superblock => True
| .groupDesc group => group < G.groupCount
| .blockBitmap group => group < G.groupCount
| .inodeBitmap group => group < G.groupCount
| .inodeTable group => group < G.groupCount
| .data block => G.IsData block

/- Where a region begins. -/
def regionBase
    (G : Geometry) : Region → Nat
| .bootBlock => 0
| .superblock => superblockOffset
| .groupDesc group => G.descAddress group
| .blockBitmap group => G.blockBitmap group * G.blockSize
| .inodeBitmap group => G.inodeBitmap group * G.blockSize
| .inodeTable group => G.inodeTable group * G.blockSize
| .data block => block * G.blockSize

/- How many bytes a region has. -/
def regionExtent
    (G : Geometry) : Region → Nat
| .bootBlock => superblockOffset
| .superblock => superblockSize
| .groupDesc _ => groupDescSize
| .blockBitmap _ => G.blockSize
| .inodeBitmap _ => G.blockSize
| .inodeTable _ => G.inodesPerGroup * G.inodeSize
| .data _ => G.blockSize

end Geometry

/-
  A geometry without overlaps: the regions lie apart in the
  image, a bitmap block has a bit for each block or inode of
  its group, the bits stand for 32-bit block numbers, the
  32-bit counter over the inodes can pass the last one, and
  inodes have at least 128 bytes. The group count is the one
  that mounting computes.
-/
structure Sane (G : Geometry) : Prop where
  blockSize : ∃ log, log ≤ 2 ∧ G.blockSize = 1024 * 2 ^ log
  firstDataBlock : G.firstDataBlock = 1024 / G.blockSize
  blockNumbers :
    G.firstDataBlock + G.groupCount * G.blocksPerGroup <
      2 ^ 32
  inodeNumbers : G.inodesCount + 1 < 2 ^ 32
  groupCount :
    G.groupCount =
      (G.blocksCount + G.blocksPerGroup - 1) /
        G.blocksPerGroup
  blocksPerGroup :
    0 < G.blocksPerGroup ∧
      G.blocksPerGroup ≤ 8 * G.blockSize
  inodesPerGroup :
    0 < G.inodesPerGroup ∧
      G.inodesPerGroup ≤ 8 * G.blockSize
  inodeSize : 128 ≤ G.inodeSize
  inside :
    ∀ region, G.HasRegion region →
      G.regionBase region + G.regionExtent region ≤ G.fsSize
  apart :
    ∀ region other, G.HasRegion region →
      G.HasRegion other → region ≠ other →
        G.regionBase region + G.regionExtent region ≤
            G.regionBase other ∨
          G.regionBase other + G.regionExtent other ≤
            G.regionBase region

end Ext2

end Whirliscope

------------------------------------------------------------
-- Arithmetic of the Groups
------------------------------------------------------------

namespace Whirliscope

namespace Ext2

open ByteMemory FaultProgram

namespace Sane

variable {G : Geometry}

theorem blockSize_cases
    (hSane : Sane G) :
    G.blockSize = 1024 ∨ G.blockSize = 2048 ∨
      G.blockSize = 4096 := by
  rcases hSane.blockSize with ⟨log, hLog, hEq⟩
  have hCases : log = 0 ∨ log = 1 ∨ log = 2 := by omega
  rcases hCases with rfl | rfl | rfl
  · exact .inl hEq
  · exact .inr (.inl hEq)
  · exact .inr (.inr hEq)

theorem blockSize_pos
    (hSane : Sane G) :
    0 < G.blockSize := by
  rcases hSane.blockSize_cases with h | h | h <;> omega

theorem firstDataBlock_le
    (hSane : Sane G) :
    G.firstDataBlock ≤ 1 := by
  rw [hSane.firstDataBlock]
  rcases hSane.blockSize_cases with h | h | h <;> rw [h] <;>
    decide

/- The groups have a bit for every block. -/
theorem blocksCount_le
    (hSane : Sane G) :
    G.blocksCount ≤ G.groupCount * G.blocksPerGroup := by
  have hPos := hSane.blocksPerGroup.1
  rw [hSane.groupCount]
  have hSplit :=
    Nat.div_add_mod' (G.blocksCount + G.blocksPerGroup - 1)
      G.blocksPerGroup
  have hLess :=
    Nat.mod_lt (G.blocksCount + G.blocksPerGroup - 1) hPos
  omega

theorem blocksCount_lt
    (hSane : Sane G) :
    G.blocksCount < 2 ^ 32 := by
  have hBound := hSane.blocksCount_le
  have hNumbers := hSane.blockNumbers
  omega

/- The last group begins before the end of the volume. -/
theorem group_mul_lt
    (hSane : Sane G)
    {group : Nat}
    (hGroup : group < G.groupCount) :
    group * G.blocksPerGroup < G.blocksCount := by
  have hPos := hSane.blocksPerGroup.1
  have hNext :
      (group + 1) * G.blocksPerGroup ≤
        G.blocksCount + G.blocksPerGroup - 1 := by
    rw [hSane.groupCount] at hGroup
    exact (Nat.le_div_iff_mul_le hPos).mp hGroup
  rw [Nat.add_mul, Nat.one_mul] at hNext
  omega

theorem blockGroup_lt
    (hSane : Sane G)
    {block : Nat}
    (hTracked : G.Tracked block) :
    G.blockGroup block < G.groupCount := by
  have hBound := hSane.blocksCount_le
  apply Nat.div_lt_of_lt_mul
  rw [Nat.mul_comm]
  have hLess := hTracked.2
  omega

theorem blockIndex_lt
    (hSane : Sane G)
    (block : Nat) :
    G.blockIndex block < G.blocksPerGroup :=
  Nat.mod_lt _ hSane.blocksPerGroup.1

/- A block is found at its group and index. -/
theorem blockAt_index
    {block : Nat}
    (hTracked : G.Tracked block) :
    G.blockAt (G.blockGroup block) (G.blockIndex block) =
      block := by
  have hSplit :=
    Nat.div_add_mod' (block - G.firstDataBlock)
      G.blocksPerGroup
  have hLow := hTracked.1
  unfold Geometry.blockAt Geometry.blockGroup
    Geometry.blockIndex
  omega

theorem hasBlockBit_index
    (hSane : Sane G)
    {block : Nat}
    (hTracked : G.Tracked block) :
    G.HasBlockBit (G.blockGroup block)
      (G.blockIndex block) := by
  refine ⟨hSane.blockIndex_lt block, ?_⟩
  rw [blockAt_index hTracked]
  exact hTracked.2

/- The block of a bit has the group and index of the bit. -/
theorem blockGroup_at
    {group index : Nat}
    (hIndex : index < G.blocksPerGroup) :
    G.blockGroup (G.blockAt group index) = group ∧
      G.blockIndex (G.blockAt group index) = index := by
  have hPos : 0 < G.blocksPerGroup := by omega
  have hOffset :
      G.blockAt group index - G.firstDataBlock =
        index + G.blocksPerGroup * group := by
    unfold Geometry.blockAt
    rw [Nat.mul_comm]
    omega
  unfold Geometry.blockGroup Geometry.blockIndex
  rw [hOffset, Nat.add_mul_div_left _ _ hPos,
    Nat.add_mul_mod_self_left, Nat.div_eq_of_lt hIndex,
    Nat.mod_eq_of_lt hIndex, Nat.zero_add]
  exact ⟨rfl, rfl⟩

theorem tracked_at
    {group index : Nat}
    (hBit : G.HasBlockBit group index) :
    G.Tracked (G.blockAt group index) :=
  ⟨by unfold Geometry.blockAt; omega, hBit.2⟩

theorem inodeIndex_lt
    (hSane : Sane G)
    (number : Nat) :
    G.inodeIndex number < G.inodesPerGroup :=
  Nat.mod_lt _ hSane.inodesPerGroup.1

/- An inode is found at its group and index. -/
theorem inodeAt_index
    {number : Nat}
    (hPos : 0 < number) :
    G.inodeAt (G.inodeGroup number) (G.inodeIndex number) =
      number := by
  have hSplit :=
    Nat.div_add_mod' (number - 1) G.inodesPerGroup
  unfold Geometry.inodeAt Geometry.inodeGroup
    Geometry.inodeIndex
  omega

theorem hasInodeBit_index
    (hSane : Sane G)
    {number : Nat}
    (hInode : G.HasInode number) :
    G.HasInodeBit (G.inodeGroup number)
      (G.inodeIndex number) := by
  refine ⟨hSane.inodeIndex_lt number, ?_⟩
  rw [inodeAt_index hInode.1]
  exact hInode.2.1

theorem inodeGroup_at
    {group index : Nat}
    (hIndex : index < G.inodesPerGroup) :
    G.inodeGroup (G.inodeAt group index) = group ∧
      G.inodeIndex (G.inodeAt group index) = index := by
  have hPos : 0 < G.inodesPerGroup := by omega
  have hOffset :
      G.inodeAt group index - 1 =
        index + G.inodesPerGroup * group := by
    unfold Geometry.inodeAt
    rw [Nat.mul_comm]
    omega
  unfold Geometry.inodeGroup Geometry.inodeIndex
  rw [hOffset, Nat.add_mul_div_left _ _ hPos,
    Nat.add_mul_mod_self_left, Nat.div_eq_of_lt hIndex,
    Nat.mod_eq_of_lt hIndex, Nat.zero_add]
  exact ⟨rfl, rfl⟩

/- Block 0 holds no file data. -/
theorem not_isData_zero
    (hSane : Sane G) :
    ¬ G.IsData 0 := by
  intro hData
  have hApart :=
    hSane.apart (.data 0) .bootBlock hData trivial (by simp)
  have hPos := hSane.blockSize_pos
  simp only [Geometry.regionBase, Geometry.regionExtent,
    superblockOffset] at hApart
  omega

theorem pos_of_isData
    (hSane : Sane G)
    {block : Nat}
    (hData : G.IsData block) :
    0 < block := by
  rcases Nat.eq_zero_or_pos block with rfl | hPos
  · exact absurd hData hSane.not_isData_zero
  · exact hPos

end Sane

end Ext2

end Whirliscope

------------------------------------------------------------
-- Volumes
------------------------------------------------------------

namespace Whirliscope

namespace Ext2

open ByteMemory FaultProgram

/-
  What an image says about its blocks and inodes. `fixed`
  holds the bytes and bits that stand for neither.
-/
structure Volume where
  used : Nat → Bool
  inodeUsed : Nat → Bool
  inodes : Nat → Inode
  contents : Nat → Bytes
  freeBlocks : Nat
  freeInodes : Nat
  groupFreeBlocks : Nat → Nat
  groupFreeInodes : Nat → Nat
  groupDirs : Nat → Nat
  fixed : Bytes

/- The parts of an image that the operations store into. -/
inductive Cell where
| superblock
| groupDesc (group : Nat)
| blockBitmap (group : Nat)
| inodeBitmap (group : Nat)
| inode (number : Nat)
| data (block : Nat)

namespace Geometry

def HasCell
    (G : Geometry) : Cell → Prop
| .superblock => True
| .groupDesc group => group < G.groupCount
| .blockBitmap group => group < G.groupCount
| .inodeBitmap group => group < G.groupCount
| .inode number => G.HasInode number
| .data block => G.IsData block

/- The region that a cell lies in. -/
def cellRegion
    (G : Geometry) : Cell → Region
| .superblock => .superblock
| .groupDesc group => .groupDesc group
| .blockBitmap group => .blockBitmap group
| .inodeBitmap group => .inodeBitmap group
| .inode number => .inodeTable (G.inodeGroup number)
| .data block => .data block

def cellBase
    (G : Geometry) : Cell → Nat
| .inode number => G.inodeAddress number
| cell => G.regionBase (G.cellRegion cell)

def cellExtent
    (G : Geometry) : Cell → Nat
| .inode _ => inodeBytes
| cell => G.regionExtent (G.cellRegion cell)

/- An address inside a cell. -/
def InCell
    (G : Geometry)
    (cell : Cell)
    (address : Nat) : Prop :=
  G.cellBase cell ≤ address ∧
    address < G.cellBase cell + G.cellExtent cell

/- An address outside every cell. -/
def Outside
    (G : Geometry)
    (address : Nat) : Prop :=
  ∀ cell, G.HasCell cell → ¬ G.InCell cell address

end Geometry

/- The superblock fields of the geometry. -/
structure HeaderMatches
    (G : Geometry)
    (bytes : Bytes) : Prop where
  inodesCount : headerField bytes 0 4 = G.inodesCount
  blocksCount : headerField bytes 4 4 = G.blocksCount
  firstDataBlock :
    headerField bytes 20 4 = G.firstDataBlock
  blocksPerGroup :
    headerField bytes 32 4 = G.blocksPerGroup
  inodesPerGroup :
    headerField bytes 40 4 = G.inodesPerGroup
  firstIno :
    (if headerField bytes 84 4 ≠ 0 then
      headerField bytes 84 4
    else
      11) = G.firstIno
  inodeSize :
    (if headerField bytes 88 2 ≠ 0 then
      headerField bytes 88 2
    else
      128) = G.inodeSize

/- A field of a group descriptor. -/
def descField
    (G : Geometry)
    (bytes : Bytes)
    (group offset width : Nat) : Nat :=
  getLE bytes (G.descAddress group + offset) width

/- The descriptor fields of the geometry. -/
structure DescMatches
    (G : Geometry)
    (bytes : Bytes)
    (group : Nat) : Prop where
  blockBitmap :
    descField G bytes group 0 4 = G.blockBitmap group
  inodeBitmap :
    descField G bytes group 4 4 = G.inodeBitmap group
  inodeTable :
    descField G bytes group 8 4 = G.inodeTable group

/- A bit of a bitmap that begins at an address. -/
def bitAt
    (bytes : Bytes)
    (base index : Nat) : Bool :=
  (bytes (base + index / 8)).toNat.testBit (index % 8)

/- A cell of an image shows what a volume says. -/
def CellHolds
    (G : Geometry)
    (V : Volume)
    (bytes : Bytes) : Cell → Prop
| .superblock =>
    headerField bytes 12 4 = V.freeBlocks ∧
      headerField bytes 16 4 = V.freeInodes ∧
      ∀ i, i < superblockSize → i < 12 ∨ 20 ≤ i →
        bytes (superblockOffset + i) =
          V.fixed (superblockOffset + i)
| .groupDesc group =>
    descField G bytes group 12 2 =
        V.groupFreeBlocks group ∧
      descField G bytes group 14 2 =
        V.groupFreeInodes group ∧
      descField G bytes group 16 2 = V.groupDirs group ∧
      ∀ i, i < groupDescSize → i < 12 ∨ 18 ≤ i →
        bytes (G.descAddress group + i) =
          V.fixed (G.descAddress group + i)
| .blockBitmap group =>
    ∀ i, i < 8 * G.blockSize →
      bitAt bytes (G.blockBitmap group * G.blockSize) i =
        if G.HasBlockBit group i then
          V.used (G.blockAt group i)
        else
          bitAt V.fixed
            (G.blockBitmap group * G.blockSize) i
| .inodeBitmap group =>
    ∀ i, i < 8 * G.blockSize →
      bitAt bytes (G.inodeBitmap group * G.blockSize) i =
        if G.HasInodeBit group i then
          V.inodeUsed (G.inodeAt group i)
        else
          bitAt V.fixed
            (G.inodeBitmap group * G.blockSize) i
| .inode number =>
    ∀ i, i < inodeBytes →
      bytes (G.inodeAddress number + i) =
        (V.inodes number).memory i
| .data block =>
    ∀ i, i < G.blockSize →
      bytes (block * G.blockSize + i) = V.contents block i

/- The mounted image holds a volume. -/
structure Holds
    (G : Geometry)
    (V : Volume)
    (s : State) : Prop where
  fsImage : s.fsImage = true
  superblock : s.superblock = some superblockPointer
  fsSize : s.fsSize = G.fsSize
  blockSize : s.blockSize = G.blockSize
  groupCount : s.groupCount = G.groupCount
  header : HeaderMatches G V.fixed
  descriptors :
    ∀ group, group < G.groupCount →
      DescMatches G V.fixed group
  cells :
    ∀ cell, G.HasCell cell → CellHolds G V s.image cell
  outside :
    ∀ address, G.Outside address →
      s.image address = V.fixed address

end Ext2

end Whirliscope

------------------------------------------------------------
-- Stores Into a Cell
------------------------------------------------------------

namespace Whirliscope

namespace Ext2

open ByteMemory FaultProgram

namespace Sane

variable {G : Geometry}

theorem hasRegion_cell
    {cell : Cell}
    (hCell : G.HasCell cell) :
    G.HasRegion (G.cellRegion cell) := by
  cases cell with
  | superblock => trivial
  | groupDesc group => exact hCell
  | blockBitmap group => exact hCell
  | inodeBitmap group => exact hCell
  | inode number => exact hCell.2.2
  | data block => exact hCell

/- A slot of the inode table lies in the table. -/
theorem slot_inside
    (hSane : Sane G)
    (number : Nat) :
    G.inodeIndex number * G.inodeSize + G.inodeSize ≤
      G.inodesPerGroup * G.inodeSize := by
  have hIndex : G.inodeIndex number + 1 ≤ G.inodesPerGroup :=
    hSane.inodeIndex_lt number
  have hSlots :=
    Nat.mul_le_mul_right G.inodeSize hIndex
  rw [Nat.add_mul, Nat.one_mul] at hSlots
  exact hSlots

/- A cell lies in its region. -/
theorem cell_inside_region
    (hSane : Sane G)
    (cell : Cell) :
    G.regionBase (G.cellRegion cell) ≤ G.cellBase cell ∧
      G.cellBase cell + G.cellExtent cell ≤
        G.regionBase (G.cellRegion cell) +
          G.regionExtent (G.cellRegion cell) := by
  cases cell with
  | inode number =>
      have hSlot := hSane.slot_inside number
      have hSize := hSane.inodeSize
      simp only [Geometry.cellBase, Geometry.cellExtent,
        Geometry.cellRegion, Geometry.regionBase,
        Geometry.regionExtent, Geometry.inodeAddress,
        inodeBytes]
      omega
  | _ => exact ⟨Nat.le_refl _, Nat.le_refl _⟩

theorem cell_inside
    (hSane : Sane G)
    {cell : Cell}
    (hCell : G.HasCell cell) :
    G.cellBase cell + G.cellExtent cell ≤ G.fsSize :=
  Nat.le_trans (hSane.cell_inside_region cell).2
    (hSane.inside _ (hasRegion_cell hCell))

/- Two slots of one inode table lie apart. -/
theorem slots_apart
    (hSane : Sane G)
    {number other : Nat}
    (hInode : G.HasInode number)
    (hOther : G.HasInode other)
    (hGroup : G.inodeGroup number = G.inodeGroup other)
    (hNe : number ≠ other) :
    G.inodeAddress number + inodeBytes ≤
        G.inodeAddress other ∨
      G.inodeAddress other + inodeBytes ≤
        G.inodeAddress number := by
  have hIndex :
      G.inodeIndex number ≠ G.inodeIndex other := by
    intro hSame
    apply hNe
    rw [← inodeAt_index hInode.1, ← inodeAt_index hOther.1,
      hGroup, hSame]
  have hSize := hSane.inodeSize
  unfold Geometry.inodeAddress inodeBytes
  rw [hGroup]
  rcases Nat.lt_or_gt_of_ne hIndex with hLess | hLess
  · have hSlots :=
      Nat.mul_le_mul_right G.inodeSize hLess
    rw [Nat.succ_mul] at hSlots
    omega
  · have hSlots :=
      Nat.mul_le_mul_right G.inodeSize hLess
    rw [Nat.succ_mul] at hSlots
    omega

/- Two cells lie apart. -/
theorem cells_apart
    (hSane : Sane G)
    {cell other : Cell}
    (hCell : G.HasCell cell)
    (hOther : G.HasCell other)
    (hNe : cell ≠ other) :
    G.cellBase cell + G.cellExtent cell ≤
        G.cellBase other ∨
      G.cellBase other + G.cellExtent other ≤
        G.cellBase cell := by
  by_cases hRegion : G.cellRegion cell = G.cellRegion other
  · -- Only inodes share a region.
    cases cell with
    | inode number =>
        cases other with
        | inode number' =>
            have hGroup :
                G.inodeGroup number =
                  G.inodeGroup number' := by
              simpa [Geometry.cellRegion] using hRegion
            exact hSane.slots_apart hCell hOther hGroup
              fun hSame => hNe (by rw [hSame])
        | _ => simp [Geometry.cellRegion] at hRegion
    | _ =>
        cases other with
        | inode number' =>
            simp [Geometry.cellRegion] at hRegion
        | _ => simp_all [Geometry.cellRegion]
  · have hApart :=
      hSane.apart _ _ (hasRegion_cell hCell)
        (hasRegion_cell hOther) hRegion
    have hInside := hSane.cell_inside_region cell
    have hInside' := hSane.cell_inside_region other
    omega

end Sane

section

variable {G : Geometry} {V V' : Volume} {bytes bytes' : Bytes}

/- What a cell shows depends on its own bytes. -/
theorem CellHolds.congr
    (hSane : Sane G)
    {cell : Cell}
    (hSame :
      ∀ address, G.InCell cell address →
        bytes' address = bytes address)
    (hHolds : CellHolds G V bytes cell) :
    CellHolds G V bytes' cell := by
  have hField :
      ∀ offset width,
        offset + width ≤ G.cellExtent cell →
        getLE bytes' (G.cellBase cell + offset) width =
          getLE bytes (G.cellBase cell + offset) width := by
    intro offset width hRange
    apply getLE_congr
    intro i hi
    apply hSame
    unfold Geometry.InCell
    omega
  have hByte :
      ∀ i, i < G.cellExtent cell →
        bytes' (G.cellBase cell + i) =
          bytes (G.cellBase cell + i) := by
    intro i hi
    apply hSame
    unfold Geometry.InCell
    omega
  cases cell with
  | superblock =>
      rcases hHolds with ⟨hBlocks, hInodes, hFixed⟩
      refine ⟨?_, ?_, ?_⟩
      · rw [← hBlocks]
        exact hField 12 4 (by change _ ≤ superblockSize; decide)
      · rw [← hInodes]
        exact hField 16 4 (by change _ ≤ superblockSize; decide)
      · intro i hi hRange
        rw [← hFixed i hi hRange]
        exact hByte i hi
  | groupDesc group =>
      rcases hHolds with ⟨hBlocks, hInodes, hDirs, hFixed⟩
      refine ⟨?_, ?_, ?_, ?_⟩
      · rw [← hBlocks]
        exact hField 12 2 (by change _ ≤ groupDescSize; decide)
      · rw [← hInodes]
        exact hField 14 2 (by change _ ≤ groupDescSize; decide)
      · rw [← hDirs]
        exact hField 16 2 (by change _ ≤ groupDescSize; decide)
      · intro i hi hRange
        rw [← hFixed i hi hRange]
        exact hByte i hi
  | blockBitmap group =>
      intro i hi
      rw [← hHolds i hi]
      unfold bitAt
      have hDiv : i / 8 < G.blockSize :=
        Nat.div_lt_of_lt_mul hi
      have hSameByte := hByte (i / 8) hDiv
      exact congrArg
        (fun byte : UInt8 => byte.toNat.testBit (i % 8))
        hSameByte
  | inodeBitmap group =>
      intro i hi
      rw [← hHolds i hi]
      unfold bitAt
      have hDiv : i / 8 < G.blockSize :=
        Nat.div_lt_of_lt_mul hi
      have hSameByte := hByte (i / 8) hDiv
      exact congrArg
        (fun byte : UInt8 => byte.toNat.testBit (i % 8))
        hSameByte
  | inode number =>
      intro i hi
      rw [← hHolds i hi]
      exact hByte i hi
  | data block =>
      intro i hi
      rw [← hHolds i hi]
      exact hByte i hi

/-
  A store into one cell. The new volume differs from the old
  one in what that cell shows.
-/
theorem Holds.withStore
    (hSane : Sane G)
    {s : State}
    (hHolds : Holds G V s)
    {cell : Cell}
    (hCell : G.HasCell cell)
    {offset count : Nat}
    (source : Bytes)
    (hRange : offset + count ≤ G.cellExtent cell)
    (hFixed : V'.fixed = V.fixed)
    (hOther :
      ∀ other, G.HasCell other → other ≠ cell →
        CellHolds G V s.image other →
          CellHolds G V' s.image other)
    (hThis :
      CellHolds G V'
        (write s.image (G.cellBase cell + offset) count
          source)
        cell) :
    Holds G V'
      (s.withImage
        (write s.image (G.cellBase cell + offset) count
          source)) where
  fsImage := hHolds.fsImage
  superblock := hHolds.superblock
  fsSize := hHolds.fsSize
  blockSize := hHolds.blockSize
  groupCount := hHolds.groupCount
  header := by rw [hFixed]; exact hHolds.header
  descriptors := by rw [hFixed]; exact hHolds.descriptors
  cells := by
    intro other hHas
    by_cases hSame : other = cell
    · rw [hSame]
      exact hThis
    · apply CellHolds.congr hSane _
        (hOther other hHas hSame (hHolds.cells other hHas))
      intro address hAddress
      apply write_of_not_mem
      have hApart := hSane.cells_apart hHas hCell hSame
      unfold Geometry.InCell at hAddress
      omega
  outside := by
    intro address hOutside
    rw [hFixed, ← hHolds.outside address hOutside]
    apply write_of_not_mem
    have hNot := hOutside cell hCell
    unfold Geometry.InCell at hNot
    omega

end

end Ext2

end Whirliscope
