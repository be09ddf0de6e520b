import Whirliscope.Fs.Ext2.Allocation
import Whirliscope.Fs.Ext2.Volume

/-
  What the driver reads and stores through its pointers, in
  terms of the volume that the image holds.

  Main theorems:
    * `Holds.readInode_eq`, `Holds.ensures_writeInode`
    * `Holds.ensures_storeData`
    * `Holds.ensures_markBlockUsed`
    * `Holds.ensures_markInodeUsed`
-/

------------------------------------------------------------
-- Fields of the Superblock and the Descriptors
------------------------------------------------------------

namespace Whirliscope

namespace Ext2

open ByteMemory FaultProgram

/- The pointer to a whole cell. -/
def Geometry.cellPointer
    (G : Geometry)
    (cell : Cell) : Pointer where
  address := G.cellBase cell
  extent := G.cellExtent cell

namespace Holds

variable {G : Geometry} {V : Volume} {s : State}

theorem mapped
    (hSane : Sane G)
    (hHolds : Holds G V s) :
    SuperblockMapped s where
  pointer := hHolds.superblock
  inImage := by
    rw [hHolds.fsSize]
    exact hSane.inside .superblock trivial

theorem inImage
    (hSane : Sane G)
    (hHolds : Holds G V s)
    (cell : Cell)
    (hCell : G.HasCell cell) :
    (G.cellPointer cell).InImage s := by
  unfold Pointer.InImage
  rw [hHolds.fsSize]
  exact hSane.cell_inside hCell

/- The fields besides the free counts are fixed. -/
theorem superblockField_fixed
    (hSane : Sane G)
    (hHolds : Holds G V s)
    {offset width : Nat}
    (hRange :
      offset + width ≤ 12 ∨
        20 ≤ offset ∧ offset + width ≤ superblockSize) :
    superblockField s offset width =
      .ok (headerField V.fixed offset width) := by
  have hInside : offset + width ≤ superblockSize := by
    unfold superblockSize at *
    omega
  rw [superblockField_eq (hHolds.mapped hSane) hInside]
  apply congrArg
  apply getLE_congr
  intro i hi
  have hCell := (hHolds.cells .superblock trivial).2.2
  have hByte := hCell (offset + i) (by omega) (by omega)
  rw [← Nat.add_assoc] at hByte
  exact hByte

theorem inodesCount_eq
    (hSane : Sane G)
    (hHolds : Holds G V s) :
    inodesCount s = .ok G.inodesCount := by
  rw [← hHolds.header.inodesCount]
  exact hHolds.superblockField_fixed hSane (by decide)

theorem blocksCount_eq
    (hSane : Sane G)
    (hHolds : Holds G V s) :
    blocksCount s = .ok G.blocksCount := by
  rw [← hHolds.header.blocksCount]
  exact hHolds.superblockField_fixed hSane (by decide)

theorem firstDataBlock_eq
    (hSane : Sane G)
    (hHolds : Holds G V s) :
    firstDataBlock s = .ok G.firstDataBlock := by
  rw [← hHolds.header.firstDataBlock]
  exact hHolds.superblockField_fixed hSane (by decide)

theorem blocksPerGroup_eq
    (hSane : Sane G)
    (hHolds : Holds G V s) :
    blocksPerGroup s = .ok G.blocksPerGroup := by
  rw [← hHolds.header.blocksPerGroup]
  exact hHolds.superblockField_fixed hSane (by decide)

theorem inodesPerGroup_eq
    (hSane : Sane G)
    (hHolds : Holds G V s) :
    inodesPerGroup s = .ok G.inodesPerGroup := by
  rw [← hHolds.header.inodesPerGroup]
  exact hHolds.superblockField_fixed hSane (by decide)

theorem firstIno_eq
    (hSane : Sane G)
    (hHolds : Holds G V s) :
    firstIno s = .ok (headerField V.fixed 84 4) :=
  hHolds.superblockField_fixed hSane (by decide)

theorem inodeSize_eq
    (hSane : Sane G)
    (hHolds : Holds G V s) :
    inodeSize s = .ok (headerField V.fixed 88 2) :=
  hHolds.superblockField_fixed hSane (by decide)

theorem freeBlocksCount_eq
    (hSane : Sane G)
    (hHolds : Holds G V s) :
    freeBlocksCount s = .ok V.freeBlocks := by
  rw [← (hHolds.cells .superblock trivial).1]
  exact superblockField_eq (hHolds.mapped hSane) (by decide)

theorem freeInodesCount_eq
    (hSane : Sane G)
    (hHolds : Holds G V s) :
    freeInodesCount s = .ok V.freeInodes := by
  rw [← (hHolds.cells .superblock trivial).2.1]
  exact superblockField_eq (hHolds.mapped hSane) (by decide)

/- The pointer to a group descriptor. -/
theorem groupDesc_eq
    (hSane : Sane G)
    (hHolds : Holds G V s)
    (group : Nat) :
    groupDesc s group =
      if group < G.groupCount then
        some (G.cellPointer (.groupDesc group))
      else
        none := by
  unfold groupDesc
  rw [hHolds.groupCount]
  by_cases hGroup : group < G.groupCount
  · rw [if_neg (Nat.not_le_of_lt hGroup), if_pos hGroup,
      imagePtr_eq_some_iff, hHolds.fsSize]
    unfold groupDescTable
    rw [hHolds.blockSize]
    exact ⟨hSane.inside (.groupDesc group) hGroup, rfl⟩
  · rw [if_pos (Nat.le_of_not_lt hGroup), if_neg hGroup]

theorem load_desc
    (hSane : Sane G)
    (hHolds : Holds G V s)
    {group offset width : Nat}
    (hGroup : group < G.groupCount)
    (hRange : offset + width ≤ groupDescSize) :
    s.load (G.cellPointer (.groupDesc group)) offset width =
      .ok (descField G s.image group offset width) :=
  load_eq
    (hHolds.inImage hSane (.groupDesc group) hGroup)
    hRange

/- The fields besides the counts are fixed. -/
theorem load_desc_fixed
    (hSane : Sane G)
    (hHolds : Holds G V s)
    {group offset width : Nat}
    (hGroup : group < G.groupCount)
    (hRange : offset + width ≤ 12) :
    s.load (G.cellPointer (.groupDesc group)) offset width =
      .ok (descField G V.fixed group offset width) := by
  rw [hHolds.load_desc hSane hGroup
    (by unfold groupDescSize; omega)]
  apply congrArg
  apply getLE_congr
  intro i hi
  have hCell :=
    (hHolds.cells (.groupDesc group) hGroup).2.2.2
  have hByte :=
    hCell (offset + i) (by unfold groupDescSize; omega)
      (by omega)
  rw [← Nat.add_assoc] at hByte
  exact hByte

theorem descBlockBitmap_eq
    (hSane : Sane G)
    (hHolds : Holds G V s)
    {group : Nat}
    (hGroup : group < G.groupCount) :
    descBlockBitmap s (G.cellPointer (.groupDesc group)) =
      .ok (G.blockBitmap group) := by
  rw [← (hHolds.descriptors group hGroup).blockBitmap]
  exact hHolds.load_desc_fixed hSane hGroup (by decide)

theorem descInodeBitmap_eq
    (hSane : Sane G)
    (hHolds : Holds G V s)
    {group : Nat}
    (hGroup : group < G.groupCount) :
    descInodeBitmap s (G.cellPointer (.groupDesc group)) =
      .ok (G.inodeBitmap group) := by
  rw [← (hHolds.descriptors group hGroup).inodeBitmap]
  exact hHolds.load_desc_fixed hSane hGroup (by decide)

theorem descInodeTable_eq
    (hSane : Sane G)
    (hHolds : Holds G V s)
    {group : Nat}
    (hGroup : group < G.groupCount) :
    descInodeTable s (G.cellPointer (.groupDesc group)) =
      .ok (G.inodeTable group) := by
  rw [← (hHolds.descriptors group hGroup).inodeTable]
  exact hHolds.load_desc_fixed hSane hGroup (by decide)

theorem descFreeBlocksCount_eq
    (hSane : Sane G)
    (hHolds : Holds G V s)
    {group : Nat}
    (hGroup : group < G.groupCount) :
    descFreeBlocksCount s
        (G.cellPointer (.groupDesc group)) =
      .ok (V.groupFreeBlocks group) := by
  rw [← (hHolds.cells (.groupDesc group) hGroup).1]
  exact hHolds.load_desc hSane hGroup (by decide)

theorem descFreeInodesCount_eq
    (hSane : Sane G)
    (hHolds : Holds G V s)
    {group : Nat}
    (hGroup : group < G.groupCount) :
    descFreeInodesCount s
        (G.cellPointer (.groupDesc group)) =
      .ok (V.groupFreeInodes group) := by
  rw [← (hHolds.cells (.groupDesc group) hGroup).2.1]
  exact hHolds.load_desc hSane hGroup (by decide)

theorem descUsedDirsCount_eq
    (hSane : Sane G)
    (hHolds : Holds G V s)
    {group : Nat}
    (hGroup : group < G.groupCount) :
    descUsedDirsCount s
        (G.cellPointer (.groupDesc group)) =
      .ok (V.groupDirs group) := by
  rw [← (hHolds.cells (.groupDesc group) hGroup).2.2.1]
  exact hHolds.load_desc hSane hGroup (by decide)

end Holds

end Ext2

end Whirliscope

------------------------------------------------------------
-- Bits of a Bitmap
------------------------------------------------------------

namespace Whirliscope

namespace Ext2

open ByteMemory FaultProgram

theorem getLE_one
    (bytes : Bytes)
    (address : Nat) :
    getLE bytes address 1 = (bytes address).toNat := by
  simp [getLE]

/- Assigning a bit of a byte. -/
theorem testBit_assignBit
    {byte bit index : Nat}
    (hBit : bit < 8)
    (hIndex : index < 8)
    (value : Bool) :
    (assignBit byte bit value).testBit index =
      if index = bit then value else byte.testBit index := by
  have hMask : (255 : Nat) = 2 ^ 8 - 1 := by decide
  unfold assignBit
  cases value with
  | true =>
      rw [if_pos rfl, Nat.testBit_or, Nat.testBit_two_pow]
      by_cases hSame : index = bit
      · simp [hSame]
      · simp [hSame, Ne.symm hSame]
  | false =>
      rw [if_neg (by decide), Nat.testBit_and,
        Nat.testBit_xor, Nat.testBit_two_pow, hMask,
        Nat.testBit_two_pow_sub_one]
      by_cases hSame : index = bit
      · simp [hSame, hBit]
      · simp [hSame, hIndex, Ne.symm hSame]

theorem assignBit_lt
    {byte bit : Nat}
    (hByte : byte < 256)
    (hBit : bit < 8)
    (value : Bool) :
    assignBit byte bit value < 256 := by
  have hPow : 2 ^ bit < 2 ^ 8 :=
    Nat.pow_lt_pow_right (by decide) hBit
  unfold assignBit
  cases value with
  | true =>
      rw [if_pos rfl]
      exact Nat.or_lt_two_pow (n := 8) hByte hPow
  | false =>
      rw [if_neg (by decide)]
      exact Nat.and_lt_two_pow (n := 8) _
        (Nat.xor_lt_two_pow (n := 8) (by decide) hPow)

/- The bits of a bitmap after one of them is assigned. -/
theorem bitAt_write
    (bytes : Bytes)
    (base index other : Nat)
    (value : Bool) :
    bitAt
        (write bytes (base + index / 8) 1
          (bytesLE
            (assignBit (bytes (base + index / 8)).toNat
              (index % 8) value)))
        base other =
      if other = index then value
      else bitAt bytes base other := by
  have hIndex : index % 8 < 8 := Nat.mod_lt _ (by decide)
  have hOther : other % 8 < 8 := Nat.mod_lt _ (by decide)
  unfold bitAt
  by_cases hByte : other / 8 = index / 8
  · rw [hByte, write_of_mem (Nat.le_refl _) (by omega),
      Nat.sub_self]
    have hValue :
        (bytesLE
            (assignBit (bytes (base + index / 8)).toNat
              (index % 8) value) 0).toNat =
          assignBit (bytes (base + index / 8)).toNat
            (index % 8) value := by
      simp only [bytesLE, Nat.pow_zero, Nat.div_one,
        UInt8.toNat_ofNat']
      exact Nat.mod_eq_of_lt
        (assignBit_lt (UInt8.toNat_lt _) hIndex value)
    rw [hValue, testBit_assignBit hIndex hOther]
    by_cases hSame : other = index
    · rw [if_pos hSame, if_pos (by rw [hSame])]
    · rw [if_neg hSame, if_neg (by omega)]
  · rw [write_of_not_mem (by omega),
      if_neg (by rintro rfl; exact hByte rfl)]

end Ext2

end Whirliscope

------------------------------------------------------------
-- Stores Into the Volume
------------------------------------------------------------

namespace Whirliscope

namespace Ext2

open ByteMemory FaultProgram

/- A pointer into a cell. -/
structure Pointer.Within
    (pointer : Pointer)
    (G : Geometry)
    (cell : Cell) : Prop where
  low : G.cellBase cell ≤ pointer.address
  high :
    pointer.address + pointer.extent ≤
      G.cellBase cell + G.cellExtent cell

theorem cellPointer_within
    (G : Geometry)
    (cell : Cell) :
    (G.cellPointer cell).Within G cell :=
  ⟨Nat.le_refl _, Nat.le_refl _⟩

namespace Holds

variable {G : Geometry} {V V' : Volume} {s : State}
variable {stops : Fault → Prop}

theorem inImage_within
    (hSane : Sane G)
    (hHolds : Holds G V s)
    {cell : Cell}
    (hCell : G.HasCell cell)
    {pointer : Pointer}
    (hWithin : pointer.Within G cell) :
    pointer.InImage s := by
  unfold Pointer.InImage
  rw [hHolds.fsSize]
  exact Nat.le_trans hWithin.high (hSane.cell_inside hCell)

theorem ensures_storeCell
    (hSane : Sane G)
    (hHolds : Holds G V s)
    (cell : Cell)
    (hCell : G.HasCell cell)
    {pointer : Pointer}
    (hWithin : pointer.Within G cell)
    {offset count : Nat}
    (hRange : offset + count ≤ pointer.extent)
    (source : Bytes)
    (hFixed : V'.fixed = V.fixed)
    (hOther :
      ∀ other, G.HasCell other → other ≠ cell →
        CellHolds G V s.image other →
          CellHolds G V' s.image other)
    (hThis :
      CellHolds G V'
        (write s.image (pointer.address + offset) count
          source)
        cell) :
    Ensures stops (store pointer offset count source) s
      fun _ final => Holds G V' final := by
  rw [ensures_store_iff
    (hHolds.inImage_within hSane hCell hWithin) hRange]
  have hLow := hWithin.low
  have hHigh := hWithin.high
  have hAddress :
      pointer.address + offset =
        G.cellBase cell +
          (pointer.address - G.cellBase cell + offset) := by
    omega
  rw [hAddress] at hThis ⊢
  exact hHolds.withStore hSane hCell source (by omega) hFixed
    hOther hThis

/- Assign free counts of the superblock. -/
theorem ensures_setSuperblockField
    (hSane : Sane G)
    (hHolds : Holds G V s)
    {offset value freeBlocks freeInodes : Nat}
    (hRange : 12 ≤ offset ∧ offset + 4 ≤ 20)
    (hBlocks :
      headerField
          (putLE s.image (superblockOffset + offset) 4 value)
          12 4 =
        freeBlocks)
    (hInodes :
      headerField
          (putLE s.image (superblockOffset + offset) 4 value)
          16 4 =
        freeInodes) :
    Ensures stops (setSuperblockField offset 4 value) s
      fun _ final =>
        Holds G
          { V with
            freeBlocks := freeBlocks
            freeInodes := freeInodes }
          final := by
  unfold setSuperblockField
  rw [ensures_bind_iff, ensures_get_iff, hHolds.superblock]
  have hCell := hHolds.cells .superblock trivial
  refine hHolds.ensures_storeCell hSane .superblock trivial
    (cellPointer_within G .superblock)
    (by change _ ≤ superblockSize; unfold superblockSize; omega)
    _ rfl ?_ ⟨hBlocks, hInodes, ?_⟩
  · intro other _ hNe hOther
    cases other with
    | superblock => exact absurd rfl hNe
    | _ => exact hOther
  · intro i hi hFixed
    rw [← hCell.2.2 i hi hFixed]
    apply write_of_not_mem
    change superblockOffset + i < superblockOffset + offset ∨
      superblockOffset + offset + 4 ≤ superblockOffset + i
    omega

theorem ensures_setFreeBlocks
    (hSane : Sane G)
    (hHolds : Holds G V s)
    (value : Nat) :
    Ensures stops (setSuperblockField 12 4 value) s
      fun _ final =>
        Holds G { V with freeBlocks := wrap 32 value }
          final := by
  have hCell := hHolds.cells .superblock trivial
  apply (hHolds.ensures_setSuperblockField hSane (by omega)
    (getLE_putLE_same _ _ _ _) (?_ : _ = V.freeInodes)).mono
  · exact fun _ _ hFinal => hFinal
  · rw [← hCell.2.1]
    exact getLE_putLE_of_disjoint (by decide)

theorem ensures_setFreeInodes
    (hSane : Sane G)
    (hHolds : Holds G V s)
    (value : Nat) :
    Ensures stops (setSuperblockField 16 4 value) s
      fun _ final =>
        Holds G { V with freeInodes := wrap 32 value }
          final := by
  have hCell := hHolds.cells .superblock trivial
  apply (hHolds.ensures_setSuperblockField hSane (by omega)
    (?_ : _ = V.freeBlocks) (getLE_putLE_same _ _ _ _)).mono
  · exact fun _ _ hFinal => hFinal
  · rw [← hCell.1]
    exact getLE_putLE_of_disjoint (by decide)

/- Assign counts of a group descriptor. -/
theorem ensures_storeDesc
    (hSane : Sane G)
    (hHolds : Holds G V s)
    {group : Nat}
    (hGroup : group < G.groupCount)
    {offset value blocks inodes dirs : Nat}
    (hRange : 12 ≤ offset ∧ offset + 2 ≤ 18)
    (hBlocks :
      descField G
          (putLE s.image (G.descAddress group + offset) 2
            value)
          group 12 2 =
        blocks)
    (hInodes :
      descField G
          (putLE s.image (G.descAddress group + offset) 2
            value)
          group 14 2 =
        inodes)
    (hDirs :
      descField G
          (putLE s.image (G.descAddress group + offset) 2
            value)
          group 16 2 =
        dirs) :
    Ensures stops
      (storeField (G.cellPointer (.groupDesc group)) offset 2
        value)
      s
      fun _ final =>
        Holds G
          { V with
            groupFreeBlocks :=
              Function.update V.groupFreeBlocks group blocks
            groupFreeInodes :=
              Function.update V.groupFreeInodes group inodes
            groupDirs :=
              Function.update V.groupDirs group dirs }
          final := by
  have hCell := hHolds.cells (.groupDesc group) hGroup
  refine hHolds.ensures_storeCell hSane (.groupDesc group)
    hGroup (cellPointer_within G (.groupDesc group))
    (by change _ ≤ groupDescSize; unfold groupDescSize; omega)
    _ rfl ?_
    ⟨hBlocks.trans (by simp), hInodes.trans (by simp),
      hDirs.trans (by simp), ?_⟩
  · intro other _ hNe hOther
    cases other with
    | groupDesc group' =>
        have hGroups : group' ≠ group :=
          fun hSame => hNe (by rw [hSame])
        simpa only [CellHolds, Function.update_of_ne hGroups]
          using hOther
    | _ => exact hOther
  · intro i hi hFixed
    rw [← hCell.2.2.2 i hi hFixed]
    apply write_of_not_mem
    change G.descAddress group + i <
        G.descAddress group + offset ∨
      G.descAddress group + offset + 2 ≤
        G.descAddress group + i
    omega

theorem ensures_setGroupFreeBlocks
    (hSane : Sane G)
    (hHolds : Holds G V s)
    {group : Nat}
    (hGroup : group < G.groupCount)
    (value : Nat) :
    Ensures stops
      (storeField (G.cellPointer (.groupDesc group)) 12 2
        value)
      s
      fun _ final =>
        Holds G
          { V with
            groupFreeBlocks :=
              Function.update V.groupFreeBlocks group
                (wrap 16 value) }
          final := by
  have hCell := hHolds.cells (.groupDesc group) hGroup
  apply (hHolds.ensures_storeDesc hSane hGroup (by omega)
    (getLE_putLE_same _ _ _ _)
    (?_ : _ = V.groupFreeInodes group)
    (?_ : _ = V.groupDirs group)).mono
  · intro _ final hFinal
    rw [Function.update_eq_self, Function.update_eq_self]
      at hFinal
    exact hFinal
  · rw [← hCell.2.1]
    exact getLE_putLE_of_disjoint (by omega)
  · rw [← hCell.2.2.1]
    exact getLE_putLE_of_disjoint (by omega)

theorem ensures_setGroupFreeInodes
    (hSane : Sane G)
    (hHolds : Holds G V s)
    {group : Nat}
    (hGroup : group < G.groupCount)
    (value : Nat) :
    Ensures stops
      (storeField (G.cellPointer (.groupDesc group)) 14 2
        value)
      s
      fun _ final =>
        Holds G
          { V with
            groupFreeInodes :=
              Function.update V.groupFreeInodes group
                (wrap 16 value) }
          final := by
  have hCell := hHolds.cells (.groupDesc group) hGroup
  apply (hHolds.ensures_storeDesc hSane hGroup (by omega)
    (?_ : _ = V.groupFreeBlocks group)
    (getLE_putLE_same _ _ _ _)
    (?_ : _ = V.groupDirs group)).mono
  · intro _ final hFinal
    rw [Function.update_eq_self, Function.update_eq_self]
      at hFinal
    exact hFinal
  · rw [← hCell.1]
    exact getLE_putLE_of_disjoint (by omega)
  · rw [← hCell.2.2.1]
    exact getLE_putLE_of_disjoint (by omega)

theorem ensures_setGroupDirs
    (hSane : Sane G)
    (hHolds : Holds G V s)
    {group : Nat}
    (hGroup : group < G.groupCount)
    (value : Nat) :
    Ensures stops
      (storeField (G.cellPointer (.groupDesc group)) 16 2
        value)
      s
      fun _ final =>
        Holds G
          { V with
            groupDirs :=
              Function.update V.groupDirs group
                (wrap 16 value) }
          final := by
  have hCell := hHolds.cells (.groupDesc group) hGroup
  apply (hHolds.ensures_storeDesc hSane hGroup (by omega)
    (?_ : _ = V.groupFreeBlocks group)
    (?_ : _ = V.groupFreeInodes group)
    (getLE_putLE_same _ _ _ _)).mono
  · intro _ final hFinal
    rw [Function.update_eq_self, Function.update_eq_self]
      at hFinal
    exact hFinal
  · rw [← hCell.1]
    exact getLE_putLE_of_disjoint (by omega)
  · rw [← hCell.2.1]
    exact getLE_putLE_of_disjoint (by omega)

/- The block of a bitmap, as the driver forms its pointer. -/
theorem blockPtr_blockBitmap
    (hSane : Sane G)
    (hHolds : Holds G V s)
    {group : Nat}
    (hGroup : group < G.groupCount) :
    blockPtr s (G.blockBitmap group) 0 s.blockSize =
      some (G.cellPointer (.blockBitmap group)) := by
  have hInside := hSane.inside (.blockBitmap group) hGroup
  rw [blockPtr_eq_some_iff, hHolds.blockSize, hHolds.fsSize]
  refine ⟨by omega, ?_, rfl⟩
  rw [Nat.add_zero]
  exact hInside

theorem blockPtr_inodeBitmap
    (hSane : Sane G)
    (hHolds : Holds G V s)
    {group : Nat}
    (hGroup : group < G.groupCount) :
    blockPtr s (G.inodeBitmap group) 0 s.blockSize =
      some (G.cellPointer (.inodeBitmap group)) := by
  have hInside := hSane.inside (.inodeBitmap group) hGroup
  rw [blockPtr_eq_some_iff, hHolds.blockSize, hHolds.fsSize]
  refine ⟨by omega, ?_, rfl⟩
  rw [Nat.add_zero]
  exact hInside

/- Reading a bit through a pointer to a bitmap. -/
theorem bitmapGet_eq
    (hSane : Sane G)
    (hHolds : Holds G V s)
    (cell : Cell)
    (hCell : G.HasCell cell)
    {index : Nat}
    (hIndex : index < 8 * G.cellExtent cell) :
    bitmapGet s (G.cellPointer cell) index =
      .ok (bitAt s.image (G.cellBase cell) index) := by
  have hByte : index / 8 + 1 ≤ G.cellExtent cell := by omega
  unfold bitmapGet
  rw [load_eq (hHolds.inImage hSane cell hCell) hByte,
    getLE_one]
  rfl

theorem bitmapGet_block
    (hSane : Sane G)
    (hHolds : Holds G V s)
    {group index : Nat}
    (hGroup : group < G.groupCount)
    (hBit : G.HasBlockBit group index) :
    bitmapGet s (G.cellPointer (.blockBitmap group)) index =
      .ok (V.used (G.blockAt group index)) := by
  have hSize := hSane.blocksPerGroup.2
  have hIndex : index < 8 * G.blockSize := by
    have hLess := hBit.1
    omega
  rw [hHolds.bitmapGet_eq hSane (.blockBitmap group) hGroup
    hIndex]
  have hCell :=
    hHolds.cells (.blockBitmap group) hGroup index hIndex
  rw [if_pos hBit] at hCell
  exact congrArg Except.ok hCell

theorem bitmapGet_inode
    (hSane : Sane G)
    (hHolds : Holds G V s)
    {group index : Nat}
    (hGroup : group < G.groupCount)
    (hBit : G.HasInodeBit group index) :
    bitmapGet s (G.cellPointer (.inodeBitmap group)) index =
      .ok (V.inodeUsed (G.inodeAt group index)) := by
  have hSize := hSane.inodesPerGroup.2
  have hIndex : index < 8 * G.blockSize := by
    have hLess := hBit.1
    omega
  rw [hHolds.bitmapGet_eq hSane (.inodeBitmap group) hGroup
    hIndex]
  have hCell :=
    hHolds.cells (.inodeBitmap group) hGroup index hIndex
  rw [if_pos hBit] at hCell
  exact congrArg Except.ok hCell

/- Assigning a bit through a pointer to a bitmap. -/
theorem ensures_bitmapSet
    (hSane : Sane G)
    (hHolds : Holds G V s)
    (cell : Cell)
    (hCell : G.HasCell cell)
    {index : Nat}
    (hIndex : index < 8 * G.cellExtent cell)
    (value : Bool)
    (hFixed : V'.fixed = V.fixed)
    (hOther :
      ∀ other, G.HasCell other → other ≠ cell →
        CellHolds G V s.image other →
          CellHolds G V' s.image other)
    (hThis :
      ∀ image,
        (∀ i, bitAt image (G.cellBase cell) i =
          if i = index then value
          else bitAt s.image (G.cellBase cell) i) →
        CellHolds G V' image cell) :
    Ensures stops
      (bitmapSet (G.cellPointer cell) index value) s
      fun _ final => Holds G V' final := by
  have hByte : index / 8 + 1 ≤ G.cellExtent cell := by omega
  unfold bitmapSet
  rw [ensures_bind_iff, ensures_get_iff,
    load_eq (hHolds.inImage hSane cell hCell) hByte,
    getLE_one]
  exact hHolds.ensures_storeCell hSane cell hCell
    (cellPointer_within G cell) hByte _ hFixed hOther
    (hThis _ fun i => bitAt_write _ _ _ _ _)

/- Assigning the bit of a block. -/
theorem ensures_setBlockBit
    (hSane : Sane G)
    (hHolds : Holds G V s)
    {group index : Nat}
    (hGroup : group < G.groupCount)
    (hBit : G.HasBlockBit group index)
    (value : Bool) :
    Ensures stops
      (bitmapSet (G.cellPointer (.blockBitmap group)) index
        value)
      s
      fun _ final =>
        Holds G
          { V with
            used :=
              Function.update V.used
                (G.blockAt group index) value }
          final := by
  have hSize := hSane.blocksPerGroup.2
  have hLess := hBit.1
  refine hHolds.ensures_bitmapSet hSane (.blockBitmap group)
    hGroup (by change _ < 8 * G.blockSize; omega) value rfl
    ?_ ?_
  · intro other hOther hNe hHas
    cases other with
    | blockBitmap group' =>
        intro i hi
        rw [hHas i hi]
        by_cases hBit' : G.HasBlockBit group' i
        · rw [if_pos hBit', if_pos hBit']
          refine (Function.update_of_ne ?_ value V.used).symm
          intro hSame
          have hGroups := congrArg G.blockGroup hSame
          rw [(Sane.blockGroup_at hBit'.1).1,
            (Sane.blockGroup_at hBit.1).1] at hGroups
          exact hNe (by rw [hGroups])
        · rw [if_neg hBit', if_neg hBit']
    | _ => exact hHas
  · intro image hBits i hi
    have hCell :=
      hHolds.cells (.blockBitmap group) hGroup i hi
    have hAssigned := hBits i
    change bitAt image
      (G.blockBitmap group * G.blockSize) i = _ at hAssigned
    rw [hAssigned]
    by_cases hSame : i = index
    · rw [if_pos hSame, hSame, if_pos hBit]
      exact (Function.update_self _ value V.used).symm
    · rw [if_neg hSame]
      refine hCell.trans ?_
      by_cases hBit' : G.HasBlockBit group i
      · rw [if_pos hBit', if_pos hBit']
        refine (Function.update_of_ne ?_ value V.used).symm
        unfold Geometry.blockAt
        omega
      · rw [if_neg hBit', if_neg hBit']

/- Assigning the bit of an inode. -/
theorem ensures_setInodeBit
    (hSane : Sane G)
    (hHolds : Holds G V s)
    {group index : Nat}
    (hGroup : group < G.groupCount)
    (hBit : G.HasInodeBit group index)
    (value : Bool) :
    Ensures stops
      (bitmapSet (G.cellPointer (.inodeBitmap group)) index
        value)
      s
      fun _ final =>
        Holds G
          { V with
            inodeUsed :=
              Function.update V.inodeUsed
                (G.inodeAt group index) value }
          final := by
  have hSize := hSane.inodesPerGroup.2
  have hLess := hBit.1
  refine hHolds.ensures_bitmapSet hSane (.inodeBitmap group)
    hGroup (by change _ < 8 * G.blockSize; omega) value rfl
    ?_ ?_
  · intro other hOther hNe hHas
    cases other with
    | inodeBitmap group' =>
        intro i hi
        rw [hHas i hi]
        by_cases hBit' : G.HasInodeBit group' i
        · rw [if_pos hBit', if_pos hBit']
          refine (Function.update_of_ne ?_ value V.inodeUsed).symm
          intro hSame
          have hGroups := congrArg G.inodeGroup hSame
          rw [(Sane.inodeGroup_at hBit'.1).1,
            (Sane.inodeGroup_at hBit.1).1] at hGroups
          exact hNe (by rw [hGroups])
        · rw [if_neg hBit', if_neg hBit']
    | _ => exact hHas
  · intro image hBits i hi
    have hCell :=
      hHolds.cells (.inodeBitmap group) hGroup i hi
    have hAssigned := hBits i
    change bitAt image
      (G.inodeBitmap group * G.blockSize) i = _ at hAssigned
    rw [hAssigned]
    by_cases hSame : i = index
    · rw [if_pos hSame, hSame, if_pos hBit]
      exact (Function.update_self _ value V.inodeUsed).symm
    · rw [if_neg hSame]
      refine hCell.trans ?_
      by_cases hBit' : G.HasInodeBit group i
      · rw [if_pos hBit', if_pos hBit']
        refine (Function.update_of_ne ?_ value V.inodeUsed).symm
        unfold Geometry.inodeAt
        omega
      · rw [if_neg hBit', if_neg hBit']

end Holds

end Ext2

end Whirliscope

------------------------------------------------------------
-- Inodes and Data Blocks
------------------------------------------------------------

namespace Whirliscope

namespace Ext2

open ByteMemory FaultProgram

theorem Inode.memory_of_lt
    (inode : Inode)
    {i : Nat}
    (hIndex : i < inodeBytes) :
    inode.memory i = inode.bytes ⟨i, hIndex⟩ :=
  dif_pos hIndex

/- An inode is what its first 128 bytes say. -/
theorem Inode.ofMemory_eq
    {inode : Inode}
    {source : Bytes}
    (hSame :
      ∀ i, i < inodeBytes → source i = inode.memory i) :
    Inode.ofMemory source = inode := by
  apply Inode.ext
  funext index
  rw [← inode.memory_of_lt index.isLt,
    ← hSame index.val index.isLt]
  rfl

namespace Holds

variable {G : Geometry} {V : Volume} {s : State}
variable {stops : Fault → Prop}

/- Where the driver looks for an inode. -/
theorem inodeLocation_eq
    (hSane : Sane G)
    (hHolds : Holds G V s)
    (number : Nat) :
    inodeLocation s number =
      .ok (if G.HasInode number then
        some (G.cellPointer (.inode number))
      else
        none) := by
  have hPos := hSane.inodesPerGroup.1
  unfold inodeLocation
  by_cases hZero : number = 0
  · have hNot : ¬ G.HasInode number := by
      rintro ⟨hLess, -, -⟩
      omega
    rw [if_pos hZero, if_neg hNot]
    rfl
  rw [if_neg hZero]
  simp only [hHolds.inodesCount_eq hSane,
    hHolds.inodesPerGroup_eq hSane,
    hHolds.inodeSize_eq hSane, divide_of_pos hPos,
    modulo_of_pos hPos, bind, Except.bind, pure, Except.pure]
  by_cases hCount : number > G.inodesCount
  · have hNot : ¬ G.HasInode number := by
      rintro ⟨-, hLe, -⟩
      omega
    rw [if_pos hCount, if_neg hNot]
  rw [if_neg hCount]
  by_cases hGroup : G.inodeGroup number < G.groupCount
  · have hInode : G.HasInode number :=
      ⟨by omega, by omega, hGroup⟩
    have hDesc :
        groupDesc s ((number - 1) / G.inodesPerGroup) =
          some (G.cellPointer
            (.groupDesc (G.inodeGroup number))) := by
      have hEq := hHolds.groupDesc_eq hSane
        (G.inodeGroup number)
      rw [if_pos hGroup] at hEq
      exact hEq
    simp only [hDesc, hHolds.descInodeTable_eq hSane hGroup]
    rw [if_pos hInode, hHolds.header.inodeSize,
      hHolds.blockSize]
    apply congrArg Except.ok
    rw [imagePtr_eq_some_iff, hHolds.fsSize]
    have hCell : G.HasCell (.inode number) := hInode
    exact ⟨hSane.cell_inside hCell, rfl⟩
  · have hNot : ¬ G.HasInode number :=
      fun hInode => hGroup hInode.2.2
    have hDesc :
        groupDesc s ((number - 1) / G.inodesPerGroup) =
          none := by
      have hEq := hHolds.groupDesc_eq hSane
        (G.inodeGroup number)
      rw [if_neg hGroup] at hEq
      exact hEq
    simp only [hDesc]
    rw [if_neg hNot]

theorem readInode_eq
    (hSane : Sane G)
    (hHolds : Holds G V s)
    (number : Nat) :
    readInode s number =
      .ok (if G.HasInode number then
        some (V.inodes number)
      else
        none) := by
  unfold readInode
  rw [hHolds.inodeLocation_eq hSane]
  by_cases hInode : G.HasInode number
  · have hCell := hHolds.cells (.inode number) hInode
    have hLoad :
        (s.view (G.cellPointer (.inode number))).loadBytes
            0 inodeBytes =
          .ok (slice
            (slice s.image (G.inodeAddress number)) 0) := by
      unfold View.loadBytes
      rw [view_extent
        (hHolds.inImage hSane (.inode number) hInode)]
      exact if_pos (Nat.le_refl _)
    simp only [if_pos hInode, bind, Except.bind, hLoad]
    apply congrArg (Except.ok ∘ some)
    apply Inode.ofMemory_eq
    intro i hi
    rw [← hCell i hi, slice_apply, slice_apply, Nat.zero_add]
  · simp only [if_neg hInode, bind, Except.bind]
    rfl

/- Write an inode that has a slot. -/
theorem ensures_writeInode
    (hSane : Sane G)
    (hHolds : Holds G V s)
    {number : Nat}
    (hInode : G.HasInode number)
    (inode : Inode) :
    Ensures stops (writeInode number inode) s
      fun written final =>
        written = true ∧
          Holds G
            { V with
              inodes :=
                Function.update V.inodes number inode }
            final := by
  have hStore :
      Ensures stops
        (store (G.cellPointer (.inode number)) 0 inodeBytes
          inode.memory)
        s
        fun _ final =>
          Holds G
            { V with
              inodes :=
                Function.update V.inodes number inode }
            final := by
    refine hHolds.ensures_storeCell hSane (.inode number)
      hInode (cellPointer_within G (.inode number))
      (by change 0 + inodeBytes ≤ inodeBytes; omega) _ rfl
      ?_ ?_
    · intro other _ hNe hOther
      cases other with
      | inode number' =>
          have hNumbers : number' ≠ number :=
            fun hSame => hNe (by rw [hSame])
          simpa only [CellHolds,
            Function.update_of_ne hNumbers] using hOther
      | _ => exact hOther
    · intro i hi
      change write s.image (G.inodeAddress number) inodeBytes
        inode.memory (G.inodeAddress number + i) =
          (Function.update V.inodes number inode
            number).memory i
      rw [Function.update_self,
        write_of_mem (Nat.le_add_right _ _) (by omega),
        Nat.add_sub_cancel_left]
  unfold writeInode
  rw [ensures_bind_iff, ensures_get_iff,
    hHolds.inodeLocation_eq hSane, if_pos hInode,
    ensures_bind_iff, ensures_lift_iff, yields_ok_iff,
    ensures_bind_iff]
  apply hStore.mono
  intro _ final hFinal
  exact (ensures_pure_iff _ _ _ _).mpr ⟨rfl, hFinal⟩

/- The pointer to a part of a data block. -/
theorem blockPtr_data
    (hSane : Sane G)
    (hHolds : Holds G V s)
    {block : Nat}
    (hData : G.IsData block)
    {offset len : Nat}
    (hRange : offset + len ≤ G.blockSize) :
    blockPtr s block offset len =
      some
        { address := block * G.blockSize + offset
          extent := len } := by
  have hInside := hSane.inside (.data block) hData
  simp only [Geometry.regionBase, Geometry.regionExtent]
    at hInside
  rw [blockPtr_eq_some_iff, hHolds.blockSize, hHolds.fsSize]
  exact ⟨hRange, by omega, rfl⟩

theorem blockInImage
    (hSane : Sane G)
    (hHolds : Holds G V s)
    {block : Nat}
    (hData : G.IsData block) :
    BlockInImage s block := by
  have hInside := hSane.inside (.data block) hData
  simp only [Geometry.regionBase, Geometry.regionExtent]
    at hInside
  unfold BlockInImage
  rw [hHolds.blockSize, hHolds.fsSize, Nat.add_mul,
    Nat.one_mul]
  exact hInside

/- A field of a data block. -/
theorem getLE_data
    (hHolds : Holds G V s)
    {block offset width : Nat}
    (hData : G.IsData block)
    (hRange : offset + width ≤ G.blockSize) :
    getLE s.image (block * G.blockSize + offset) width =
      getLE (V.contents block) offset width := by
  apply getLE_congr
  intro i hi
  have hCell :=
    hHolds.cells (.data block) hData (offset + i) (by omega)
  rw [← Nat.add_assoc] at hCell
  exact hCell

/- Store bytes into a data block. -/
theorem ensures_storeData
    (hSane : Sane G)
    (hHolds : Holds G V s)
    {block : Nat}
    (hData : G.IsData block)
    {base extent offset count : Nat}
    (hExtent : base + extent ≤ G.blockSize)
    (hRange : offset + count ≤ extent)
    (source : Bytes) :
    Ensures stops
      (store
        { address := block * G.blockSize + base
          extent := extent }
        offset count source)
      s
      fun _ final =>
        Holds G
          { V with
            contents :=
              Function.update V.contents block
                (write (V.contents block) (base + offset)
                  count source) }
          final := by
  refine hHolds.ensures_storeCell hSane (.data block) hData
    ⟨Nat.le_add_right _ _, ?_⟩ hRange _ rfl ?_ ?_
  · change block * G.blockSize + base + extent ≤
      block * G.blockSize + G.blockSize
    omega
  · intro other _ hNe hOther
    cases other with
    | data block' =>
        have hBlocks : block' ≠ block :=
          fun hSame => hNe (by rw [hSame])
        simpa only [CellHolds,
          Function.update_of_ne hBlocks] using hOther
    | _ => exact hOther
  · intro i hi
    have hCell := hHolds.cells (.data block) hData i hi
    change write s.image
      (block * G.blockSize + base + offset) count source
      (block * G.blockSize + i) =
        Function.update V.contents block _ block i
    rw [Function.update_self]
    by_cases hMem : base + offset ≤ i ∧
        i < base + offset + count
    · rw [write_of_mem (by omega) (by omega),
        write_of_mem hMem.1 hMem.2]
      congr 1
      omega
    · rw [write_of_not_mem (by omega),
        write_of_not_mem (by omega), hCell]

end Holds

end Ext2

end Whirliscope
