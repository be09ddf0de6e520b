import Whirliscope.Fs.Ext2.Directory
import Whirliscope.Fs.Ext2.FileBlocks

/-
  The geometry and the volume that a mounted image holds, as
  they are read off its bytes, and a small image with one file.

  Key definitions include:
    * `geometryOf`, `Volume.ofImage`
    * `smallState`

  Main theorems:
    * `holds_ofImage`
    * `smallState_wellOwned`
-/

------------------------------------------------------------
-- The Volume of an Image
------------------------------------------------------------

namespace Whirliscope

namespace Ext2

open ByteMemory FaultProgram

/-
  The geometry of a mounted image. The image does not say
  which blocks hold no file data.
-/
def geometryOf
    (s : State)
    (metadata : Nat → Bool) : Geometry :=
  let descTable :=
    (if s.blockSize = 1024 then 2 else 1) * s.blockSize
  { blockSize := s.blockSize
    fsSize := s.fsSize
    groupCount := s.groupCount
    inodesCount := headerField s.image 0 4
    blocksCount := headerField s.image 4 4
    firstDataBlock := headerField s.image 20 4
    blocksPerGroup := headerField s.image 32 4
    inodesPerGroup := headerField s.image 40 4
    firstIno :=
      if headerField s.image 84 4 ≠ 0 then
        headerField s.image 84 4
      else
        11
    inodeSize :=
      if headerField s.image 88 2 ≠ 0 then
        headerField s.image 88 2
      else
        128
    blockBitmap := fun group =>
      getLE s.image (descTable + group * groupDescSize) 4
    inodeBitmap := fun group =>
      getLE s.image (descTable + group * groupDescSize + 4) 4
    inodeTable := fun group =>
      getLE s.image (descTable + group * groupDescSize + 8) 4
    metadata := metadata }

/- The volume of an image. -/
def Volume.ofImage
    (G : Geometry)
    (image : Bytes) : Volume where
  used := fun block =>
    bitAt image (G.blockBitmap (G.blockGroup block) * G.blockSize)
      (G.blockIndex block)
  inodeUsed := fun number =>
    bitAt image
      (G.inodeBitmap (G.inodeGroup number) * G.blockSize)
      (G.inodeIndex number)
  inodes := fun number =>
    Inode.ofMemory (slice image (G.inodeAddress number))
  contents := fun block => slice image (block * G.blockSize)
  freeBlocks := headerField image 12 4
  freeInodes := headerField image 16 4
  groupFreeBlocks := fun group => descField G image group 12 2
  groupFreeInodes := fun group => descField G image group 14 2
  groupDirs := fun group => descField G image group 16 2
  fixed := image

/- Every cell of an image shows what the volume says. -/
theorem cellHolds_ofImage
    (G : Geometry)
    (image : Bytes)
    (cell : Cell) :
    CellHolds G (Volume.ofImage G image) image cell := by
  cases cell with
  | superblock => exact ⟨rfl, rfl, fun _ _ _ => rfl⟩
  | groupDesc group => exact ⟨rfl, rfl, rfl, fun _ _ _ => rfl⟩
  | blockBitmap group =>
      intro i _
      by_cases hBit : G.HasBlockBit group i
      · rw [if_pos hBit]
        rcases @Sane.blockGroup_at G group i hBit.1 with
          ⟨hGroup, hIndex⟩
        change _ = bitAt _ _ _
        rw [hGroup, hIndex]
      · rw [if_neg hBit]
        rfl
  | inodeBitmap group =>
      intro i _
      by_cases hBit : G.HasInodeBit group i
      · rw [if_pos hBit]
        rcases @Sane.inodeGroup_at G group i hBit.1 with
          ⟨hGroup, hIndex⟩
        change _ = bitAt _ _ _
        rw [hGroup, hIndex]
      · rw [if_neg hBit]
        rfl
  | inode number =>
      intro i hi
      change _ =
        (Inode.ofMemory
          (slice image (G.inodeAddress number))).memory i
      rw [Inode.memory_ofMemory hi]
      rfl
  | data block => exact fun _ _ => rfl

/- A mounted image holds its own volume. -/
theorem holds_ofImage
    {s : State}
    (hImage : s.fsImage = true)
    (hSuperblock : s.superblock = some superblockPointer)
    (metadata : Nat → Bool) :
    Holds (geometryOf s metadata)
      (Volume.ofImage (geometryOf s metadata) s.image) s where
  fsImage := hImage
  superblock := hSuperblock
  fsSize := rfl
  blockSize := rfl
  groupCount := rfl
  header := ⟨rfl, rfl, rfl, rfl, rfl, rfl, rfl⟩
  descriptors := fun _ _ => ⟨rfl, rfl, rfl⟩
  cells := fun cell _ => cellHolds_ofImage _ _ cell
  outside := fun _ _ => rfl

end Ext2

end Whirliscope

------------------------------------------------------------
-- A Small Volume
------------------------------------------------------------

namespace Whirliscope

namespace Ext2

open ByteMemory FaultProgram Ownership

/-
  An image of 16 blocks of 1024 bytes. The root directory in
  block 7 has the entries `f` and `g` for inode 11, a file
  with the three bytes "abc" in block 8. Blocks 9 to 15 and
  inodes 12 to 16 are free.
-/
def smallImage : Bytes :=
  putFields zeros
    [(1024, 4, 16), (1028, 4, 16), (1036, 4, 7), (1040, 4, 5),
      (1044, 4, 1), (1056, 4, 8192), (1064, 4, 16),
      (1080, 2, 0xef53), (1108, 4, 11), (1112, 2, 128),
      (2048, 4, 3), (2052, 4, 4), (2056, 4, 5), (2060, 2, 7),
      (2062, 2, 5), (2064, 2, 1),
      (3072, 1, 0xff), (4096, 2, 0x7ff),
      (5248, 2, 0x41ed), (5252, 4, 1024), (5274, 2, 2),
      (5288, 4, 7),
      (6400, 2, 0x81a4), (6404, 4, 3), (6426, 2, 2),
      (6440, 4, 8),
      (7168, 4, 2), (7172, 2, 12), (7174, 2, 0x201),
      (7176, 1, 0x2e),
      (7180, 4, 2), (7184, 2, 12), (7186, 2, 0x202),
      (7188, 2, 0x2e2e),
      (7192, 4, 11), (7196, 2, 12), (7198, 2, 0x101),
      (7200, 1, 0x66),
      (7204, 4, 11), (7208, 2, 988), (7210, 2, 0x101),
      (7212, 1, 0x67),
      (8192, 3, 0x636261)]

def smallState : State where
  fsImage := true
  superblock := some superblockPointer
  image := smallImage
  fsSize := 16384
  blockSize := 1024
  groupCount := 1
  writeback := none
  medium := zeros
  stackBytes := zeros

def smallGeometry : Geometry where
  blockSize := 1024
  fsSize := 16384
  groupCount := 1
  inodesCount := 16
  blocksCount := 16
  firstDataBlock := 1
  blocksPerGroup := 8192
  inodesPerGroup := 16
  firstIno := 11
  inodeSize := 128
  blockBitmap := fun _ => 3
  inodeBitmap := fun _ => 4
  inodeTable := fun _ => 5
  metadata := fun block => block < 7

def smallVolume : Volume :=
  Volume.ofImage smallGeometry smallImage

theorem smallGeometry_isData
    {block : Nat}
    (hData : smallGeometry.IsData block) :
    7 ≤ block ∧ block < 16 := by
  rcases hData with ⟨⟨_, hHigh⟩, hMetadata⟩
  have hLow : ¬ block < 7 := of_decide_eq_false hMetadata
  exact ⟨by omega, hHigh⟩

/- The first block of a region, and how many it lies in. -/
def smallPlace : Region → Nat × Nat
| .bootBlock => (0, 1)
| .superblock => (1, 1)
| .groupDesc _ => (2, 1)
| .blockBitmap _ => (3, 1)
| .inodeBitmap _ => (4, 1)
| .inodeTable _ => (5, 2)
| .data block => (block, 1)

theorem smallGeometry_place
    {region : Region}
    (hRegion : smallGeometry.HasRegion region) :
    smallGeometry.regionBase region =
        1024 * (smallPlace region).1 ∧
      smallGeometry.regionExtent region ≤
        1024 * (smallPlace region).2 ∧
      (smallPlace region).1 + (smallPlace region).2 ≤ 16 := by
  cases region with
  | bootBlock => decide
  | superblock => decide
  | groupDesc group =>
      have hZero : group = 0 := Nat.lt_one_iff.mp hRegion
      subst hZero
      decide
  | blockBitmap group =>
      exact ⟨Nat.mul_comm 3 1024, Nat.le_refl _,
        Nat.le_of_ble_eq_true rfl⟩
  | inodeBitmap group =>
      exact ⟨Nat.mul_comm 4 1024, Nat.le_refl _,
        Nat.le_of_ble_eq_true rfl⟩
  | inodeTable group =>
      exact ⟨Nat.mul_comm 5 1024, Nat.le_refl _,
        Nat.le_of_ble_eq_true rfl⟩
  | data block =>
      have hBlock := smallGeometry_isData hRegion
      exact ⟨Nat.mul_comm _ _, Nat.le_refl _, hBlock.2⟩

/- Two regions of one kind are one, but for data blocks. -/
theorem smallPlace_apart
    {region other : Region}
    (hRegion : smallGeometry.HasRegion region)
    (hOther : smallGeometry.HasRegion other)
    (hNe : region ≠ other) :
    (smallPlace region).1 + (smallPlace region).2 ≤
        (smallPlace other).1 ∨
      (smallPlace other).1 + (smallPlace other).2 ≤
        (smallPlace region).1 := by
  have hSame :
      ∀ {group group'}, group < smallGeometry.groupCount →
        group' < smallGeometry.groupCount → group = group' := by
    intro group group' hGroup hGroup'
    rw [Nat.lt_one_iff.mp hGroup, Nat.lt_one_iff.mp hGroup']
  cases region <;> cases other <;>
    simp only [smallPlace] <;>
    first
      | omega
      | exact absurd rfl hNe
      | exact absurd (by rw [hSame hRegion hOther]) hNe
      | (have hData := smallGeometry_isData hRegion; omega)
      | (have hData := smallGeometry_isData hOther; omega)
      | (rw [ne_eq, Region.data.injEq] at hNe; omega)

theorem smallGeometry_sane : Sane smallGeometry where
  blockSize := ⟨0, by decide, rfl⟩
  firstDataBlock := rfl
  blockNumbers := by decide
  inodeNumbers := by decide
  groupCount := by decide
  blocksPerGroup := by decide
  inodesPerGroup := by decide
  inodeSize := Nat.le_refl 128
  inside := by
    intro region hRegion
    have hPlace := smallGeometry_place hRegion
    have hSize : smallGeometry.fsSize = 1024 * 16 := rfl
    omega
  apart := by
    intro region other hRegion hOther hNe
    have hPlace := smallGeometry_place hRegion
    have hPlace' := smallGeometry_place hOther
    have hApart := smallPlace_apart hRegion hOther hNe
    omega

theorem smallState_holds :
    Holds smallGeometry smallVolume smallState where
  fsImage := rfl
  superblock := rfl
  fsSize := rfl
  blockSize := rfl
  groupCount := rfl
  header := by constructor <;> decide
  descriptors := by
    intro group hGroup
    rw [Nat.lt_one_iff.mp hGroup]
    constructor <;> decide
  cells := fun cell _ => cellHolds_ofImage _ _ cell
  outside := fun _ _ => rfl

/- The allocated inodes of the small volume. -/
theorem smallVolume_allocated
    {number : Nat}
    (hAllocated : Allocated smallGeometry smallVolume number) :
    number = 2 ∨ number = 11 := by
  have hAll :
      ∀ number < 17,
        Allocated smallGeometry smallVolume number →
          number = 2 ∨ number = 11 := by
    decide
  exact hAll number (Nat.lt_succ_of_le hAllocated.1.2.1)
    hAllocated

/- The block that an allocated inode begins with. -/
def smallBlock
    (number : Nat) : Nat :=
  if number = 2 then 7 else 8

theorem smallVolume_blocks
    {number : Nat}
    (hAllocated : Allocated smallGeometry smallVolume number)
    {index : Nat}
    (hIndex : index ≤ 12) :
    (smallVolume.inodes number).block index =
      if index = 0 then smallBlock number else 0 := by
  have hAll :
      ∀ index < 13,
        (smallVolume.inodes 2).block index =
            (if index = 0 then 7 else 0) ∧
          (smallVolume.inodes 11).block index =
            if index = 0 then 8 else 0 := by
    decide
  have hBlocks := hAll index (Nat.lt_succ_of_le hIndex)
  rcases smallVolume_allocated hAllocated with rfl | rfl
  · exact hBlocks.1
  · exact hBlocks.2

/- Each inode has one pointer. -/
theorem smallVolume_pointer
    {number : Nat}
    (hAllocated : Allocated smallGeometry smallVolume number)
    (slot : Slot) :
    smallVolume.pointer smallGeometry
        (smallVolume.inodes number) slot =
      if slot = .direct 0 then smallBlock number else 0 := by
  have hBlocks := @smallVolume_blocks number hAllocated
  cases slot with
  | indirect =>
      rw [Volume.pointer_indirect, hBlocks (Nat.le_refl 12)]
      rfl
  | entry index =>
      rw [Volume.pointer_entry_of_none
        (hBlocks (Nat.le_refl 12))]
      rfl
  | direct index =>
      by_cases hIndex : index < directBlocks
      · rw [Volume.pointer_direct hIndex,
          hBlocks (Nat.le_of_lt hIndex)]
        simp only [Slot.direct.injEq]
      · rw [Volume.pointer_direct_of_le
          (Nat.le_of_not_lt hIndex), if_neg]
        rintro hSame
        injection hSame with hZero
        rw [hZero] at hIndex
        exact hIndex (by decide)

/- The two references of the small volume. -/
theorem smallVolume_refs
    {ref : Nat × Slot}
    (hSome :
      smallVolume.refs smallGeometry smallVolume.inodes ref ≠
        0) :
    (ref = (2, .direct 0) ∧
        smallVolume.refs smallGeometry smallVolume.inodes ref =
          7) ∨
      (ref = (11, .direct 0) ∧
        smallVolume.refs smallGeometry smallVolume.inodes ref =
          8) := by
  rcases ref with ⟨number, slot⟩
  unfold Volume.refs at hSome ⊢
  split at hSome
  · next hAllocated =>
      rw [if_pos hAllocated]
      dsimp only at hSome hAllocated ⊢
      rw [smallVolume_pointer hAllocated] at hSome ⊢
      by_cases hSlot : slot = .direct 0
      · rw [if_pos hSlot, hSlot]
        rcases smallVolume_allocated hAllocated with rfl | rfl
        · exact .inl ⟨rfl, rfl⟩
        · exact .inr ⟨rfl, rfl⟩
      · rw [if_neg hSlot] at hSome
        exact absurd rfl hSome
  · exact absurd rfl hSome

theorem smallVolume_used :
    ∀ block < 16,
      smallVolume.used block = decide (block < 9) := by
  decide

theorem smallVolume_root :
    Allocated smallGeometry smallVolume 2 := by
  decide

theorem smallVolume_file :
    Allocated smallGeometry smallVolume 11 := by
  decide

theorem smallVolume_owned :
    Owned smallGeometry smallVolume smallVolume.inodes where
  notUnit := smallGeometry_sane.not_isData_zero
  owned := by
    intro ref hSome
    rcases smallVolume_refs hSome with
      ⟨-, hBlock⟩ | ⟨-, hBlock⟩
    all_goals
      rw [hBlock]
      decide
  inUse := by
    intro ref hSome
    rcases smallVolume_refs hSome with
      ⟨-, hBlock⟩ | ⟨-, hBlock⟩
    all_goals
      rw [hBlock, smallVolume_used _ (by decide)]
      rfl
  unique := by
    intro ref other hSome hSame
    have hOther := hSame ▸ hSome
    rcases smallVolume_refs hSome with
        ⟨hRef, hBlock⟩ | ⟨hRef, hBlock⟩ <;>
      rcases smallVolume_refs hOther with
        ⟨hRef', hBlock'⟩ | ⟨hRef', hBlock'⟩
    · rw [hRef, hRef']
    · omega
    · omega
    · rw [hRef, hRef']
  covered := by
    intro block hData hUsed
    have hRange := smallGeometry_isData hData
    rw [smallVolume_used block hRange.2,
      decide_eq_true_eq] at hUsed
    have hBlock : block = 7 ∨ block = 8 := by omega
    rcases hBlock with rfl | rfl
    · refine ⟨(2, .direct 0), ?_⟩
      unfold Volume.refs
      rw [if_pos smallVolume_root,
        smallVolume_pointer smallVolume_root]
      rfl
    · refine ⟨(11, .direct 0), ?_⟩
      unfold Volume.refs
      rw [if_pos smallVolume_file,
        smallVolume_pointer smallVolume_file]
      rfl

/- Both inodes take exactly one block. -/
theorem smallVolume_size :
    ∀ number < 17,
      Allocated smallGeometry smallVolume number →
        0 < (smallVolume.inodes number).size ∧
          (smallVolume.inodes number).size ≤ 1024 ∧
          ((smallVolume.inodes number).mode &&& 0xf000 =
              sIfreg ∨
            (smallVolume.inodes number).mode &&& 0xf000 =
              sIfdir) ∧
          (smallVolume.inodes number).block 13 = 0 ∧
          (smallVolume.inodes number).block 14 = 0 := by
  decide

theorem smallVolume_shaped
    {number : Nat}
    (hAllocated : Allocated smallGeometry smallVolume number) :
    Shaped smallGeometry smallVolume
      (smallVolume.inodes number) := by
  rcases smallVolume_size number
      (Nat.lt_succ_of_le hAllocated.1.2.1) hAllocated with
    ⟨hSome, hSmall, hKind, hDouble, hTriple⟩
  have hSize : smallGeometry.blockSize = 1024 := rfl
  refine ⟨hKind, ⟨hDouble, hTriple⟩, ?_, ?_⟩
  · intro fileBlock
    unfold Volume.fileBlock
    rw [smallVolume_pointer hAllocated, hSize]
    have hSlot : fileSlot fileBlock = .direct 0 ↔ fileBlock = 0 := by
      unfold fileSlot
      split
      · rw [Slot.direct.injEq]
      · next hFar =>
          have hTwelve : directBlocks = 12 := rfl
          exact ⟨nofun, fun hZero => by omega⟩
    by_cases hFirst : fileBlock = 0
    · rw [if_pos (hSlot.mpr hFirst)]
      unfold smallBlock
      split <;> omega
    · rw [if_neg fun hSame => hFirst (hSlot.mp hSame)]
      omega
  · intro hIndirect
    rw [smallVolume_blocks hAllocated (Nat.le_refl 12)]
      at hIndirect
    exact absurd rfl hIndirect

theorem smallState_wellOwned :
    WellOwned smallGeometry smallVolume where
  metadata := by
    intro block hTracked hMetadata
    have hLow : block < 7 := of_decide_eq_true hMetadata
    rw [smallVolume_used block hTracked.2]
    exact decide_eq_true (by omega)
  owned := smallVolume_owned
  shaped := fun _ hAllocated => smallVolume_shaped hAllocated

theorem smallVolume_regular :
    (smallVolume.inodes 11).IsRegular := by
  unfold Inode.IsRegular
  decide

theorem smallState_blockCounts :
    BlockCounts smallGeometry smallVolume where
  total := by decide
  group := by
    intro group hGroup
    rw [Nat.lt_one_iff.mp hGroup]
    decide

theorem smallState_inodeCounts :
    InodeCounts smallGeometry smallVolume where
  total := by decide
  group := by
    intro group hGroup
    rw [Nat.lt_one_iff.mp hGroup]
    decide
  dirs := by
    intro group hGroup
    rw [Nat.lt_one_iff.mp hGroup]
    decide

theorem smallPath_nonzero :
    0 ∉ ([0x2f, 0x66] : List UInt8) := by
  decide

/- `"/f"` and `"/g"`. -/
def smallPath : CString :=
  ⟨[0x2f, 0x66], smallPath_nonzero⟩

def smallOtherPath : CString :=
  ⟨[0x2f, 0x67], by decide⟩

/- A path leads to an inode of the small volume. -/
def findsSmall
    (number : Nat)
    (result : Except Fault (Option (Inode × Nat))) : Bool :=
  match result with
  | .ok (some (file, found)) =>
      decide (found = number) &&
        decide (∀ i,
          file.bytes i = (smallVolume.inodes number).bytes i)
  | _ => false

theorem eq_of_findsSmall
    {number : Nat}
    {result : Except Fault (Option (Inode × Nat))}
    (hFinds : findsSmall number result = true) :
    result = .ok (some (smallVolume.inodes number, number)) := by
  unfold findsSmall at hFinds
  split at hFinds
  · rw [Bool.and_eq_true, decide_eq_true_eq,
      decide_eq_true_eq] at hFinds
    rw [hFinds.1, Inode.ext (funext hFinds.2)]
  · cases hFinds

theorem smallState_lookup :
    pathLookup smallState (some smallPath.1) =
      .ok (some (smallVolume.inodes 11, 11)) :=
  eq_of_findsSmall (by decide +kernel)

theorem smallState_otherLookup :
    pathLookup smallState (some smallOtherPath.1) =
      .ok (some (smallVolume.inodes 11, 11)) :=
  eq_of_findsSmall (by decide +kernel)

end Ext2

end Whirliscope
