import Whirliscope.Fs.Ext2.VolumeAllocation
import Whirliscope.Library.Ownership

/-
  The blocks of a file in terms of the volume, and volumes in
  which every block has one owner.

  Key definitions include:
    * `Slot`, `pointerOf`, `fileBlock`
    * `Owned`, `WellOwned`

  Main theorems:
    * `Holds.blockIdAt_eq`
    * `Holds.readInodeBytes_eq`
-/

------------------------------------------------------------
-- Fields of an Inode
------------------------------------------------------------

namespace Whirliscope

namespace Ext2

open ByteMemory FaultProgram

namespace Inode

theorem memory_ofMemory
    {source : Bytes}
    {i : Nat}
    (hIndex : i < inodeBytes) :
    (ofMemory source).memory i = source i := by
  rw [memory_of_lt _ hIndex]
  rfl

theorem field_setField_same
    (inode : Inode)
    {offset width : Nat}
    (hRange : offset + width ≤ inodeBytes)
    (value : Nat) :
    (inode.setField offset width value).field offset width =
      value % 256 ^ width := by
  rw [← getLE_putLE_same inode.memory offset width value]
  apply getLE_congr
  intro i hi
  exact memory_ofMemory (by omega)

theorem field_setField_of_disjoint
    (inode : Inode)
    {offset width field size : Nat}
    (hRange : field + size ≤ inodeBytes)
    (hApart :
      field + size ≤ offset ∨ offset + width ≤ field)
    (value : Nat) :
    (inode.setField offset width value).field field size =
      inode.field field size := by
  have hSame :
      getLE (putLE inode.memory offset width value) field
          size =
        getLE inode.memory field size :=
    getLE_putLE_of_disjoint hApart
  unfold Inode.field
  rw [← hSame]
  apply getLE_congr
  intro i hi
  exact memory_ofMemory (by omega)

theorem block_lt
    (inode : Inode)
    (index : Nat) :
    inode.block index < 2 ^ 32 :=
  getLE_lt inode.memory _ 4

theorem block_setBlock_same
    (inode : Inode)
    {index : Nat}
    (hIndex : index < 15)
    {block : Nat}
    (hBlock : block < 2 ^ 32) :
    (inode.setBlock index block).block index = block := by
  unfold setBlock Inode.block
  rw [field_setField_same _ (by unfold inodeBytes; omega)]
  exact Nat.mod_eq_of_lt hBlock

theorem block_setBlock_of_ne
    (inode : Inode)
    {index other : Nat}
    (hOther : other < 15)
    (hNe : other ≠ index)
    (block : Nat) :
    (inode.setBlock index block).block other =
      inode.block other :=
  field_setField_of_disjoint _
    (by unfold inodeBytes; omega) (by omega) _

theorem block_setBlocks
    (inode : Inode)
    {index : Nat}
    (hIndex : index < 15)
    (count : Nat) :
    (inode.setBlocks count).block index =
      inode.block index :=
  field_setField_of_disjoint _
    (by unfold inodeBytes; omega) (by omega) _

theorem block_setSize
    (inode : Inode)
    {index : Nat}
    (hIndex : index < 15)
    (size : Nat) :
    (inode.setSize size).block index = inode.block index :=
  field_setField_of_disjoint _
    (by unfold inodeBytes; omega) (by omega) _

theorem block_setLinksCount
    (inode : Inode)
    {index : Nat}
    (hIndex : index < 15)
    (count : Nat) :
    (inode.setLinksCount count).block index =
      inode.block index :=
  field_setField_of_disjoint _
    (by unfold inodeBytes; omega) (by omega) _

/- The fields before the block pointers. -/
@[simp] theorem mode_setBlock
    (inode : Inode)
    (index block : Nat) :
    (inode.setBlock index block).mode = inode.mode :=
  field_setField_of_disjoint _ (by decide) (by omega) _

@[simp] theorem size_setBlock
    (inode : Inode)
    (index block : Nat) :
    (inode.setBlock index block).size = inode.size :=
  field_setField_of_disjoint _ (by decide) (by omega) _

@[simp] theorem mode_setBlocks
    (inode : Inode)
    (count : Nat) :
    (inode.setBlocks count).mode = inode.mode :=
  field_setField_of_disjoint _ (by decide) (by omega) _

@[simp] theorem size_setBlocks
    (inode : Inode)
    (count : Nat) :
    (inode.setBlocks count).size = inode.size :=
  field_setField_of_disjoint _ (by decide) (by omega) _

@[simp] theorem mode_setSize
    (inode : Inode)
    (size : Nat) :
    (inode.setSize size).mode = inode.mode :=
  field_setField_of_disjoint _ (by decide) (by omega) _

theorem size_setSize
    (inode : Inode)
    {size : Nat}
    (hSize : size < 2 ^ 32) :
    (inode.setSize size).size = size := by
  unfold setSize Inode.size
  rw [field_setField_same _ (by decide)]
  exact Nat.mod_eq_of_lt hSize

@[simp] theorem mode_setLinksCount
    (inode : Inode)
    (count : Nat) :
    (inode.setLinksCount count).mode = inode.mode :=
  field_setField_of_disjoint _ (by decide) (by omega) _

@[simp] theorem size_setLinksCount
    (inode : Inode)
    (count : Nat) :
    (inode.setLinksCount count).size = inode.size :=
  field_setField_of_disjoint _ (by decide) (by omega) _

@[simp] theorem linksCount_setBlock
    (inode : Inode)
    (index block : Nat) :
    (inode.setBlock index block).linksCount =
      inode.linksCount :=
  field_setField_of_disjoint _ (by decide) (by omega) _

@[simp] theorem linksCount_setBlocks
    (inode : Inode)
    (count : Nat) :
    (inode.setBlocks count).linksCount = inode.linksCount :=
  field_setField_of_disjoint _ (by decide) (by omega) _

@[simp] theorem linksCount_setSize
    (inode : Inode)
    (size : Nat) :
    (inode.setSize size).linksCount = inode.linksCount :=
  field_setField_of_disjoint _ (by decide) (by omega) _

/- The kinds depend on the mode. -/
theorem isDir_congr
    {inode other : Inode}
    (hMode : other.mode = inode.mode) :
    other.isDir = inode.isDir := by
  unfold isDir
  rw [hMode]

theorem isFile_congr
    {inode other : Inode}
    (hMode : other.mode = inode.mode) :
    other.isFile = inode.isFile := by
  unfold isFile
  rw [hMode]

theorem field_zero
    (offset : Nat)
    {width : Nat}
    (hRange : offset + width ≤ inodeBytes) :
    zero.field offset width = 0 := by
  rw [← getLE_zeros offset width]
  apply getLE_congr
  intro i hi
  exact memory_ofMemory (by omega)

end Inode

theorem yields_countPointers
    {stops : Fault → Prop}
    {pointer : Nat → Except Fault Nat}
    {count : Nat}
    (hPointer :
      ∀ i, i < count → Yields stops (pointer i) fun _ => True) :
    Yields stops (countPointers pointer count)
      fun _ => True := by
  induction count with
  | zero => exact (yields_pure_iff _ _ _).mpr trivial
  | succ count ih =>
      rw [countPointers, yields_bind_iff]
      apply (ih fun i hi => hPointer i (by omega)).mono
      intro before _
      rw [yields_bind_iff]
      apply (hPointer count (by omega)).mono
      intro value _
      split <;> exact (yields_pure_iff _ _ _).mpr trivial

theorem yields_inodeAllocatedBlocks
    {stops : Fault → Prop}
    (s : State)
    (inode : Inode) :
    Yields stops (inodeAllocatedBlocks s inode)
      fun _ => True := by
  unfold inodeAllocatedBlocks
  rw [yields_bind_iff]
  apply (yields_countPointers fun i _ =>
    (yields_pure_iff _ _ _).mpr trivial).mono
  intro direct _
  split
  · exact (yields_pure_iff _ _ _).mpr trivial
  split
  · next indirect hIndirect =>
    rcases (blockPtr_eq_some_iff _ _ _ _ _).mp hIndirect with
      ⟨-, hInside, rfl⟩
    rw [yields_bind_iff]
    apply (yields_countPointers fun i hi => ?_).mono
    · intro entries _
      exact (yields_pure_iff _ _ _).mpr trivial
    · rw [load_eq]
      · exact (yields_ok_iff _ _ _).mpr trivial
      · exact hInside
      · unfold entriesPerBlock at hi
        change 4 * i + 4 ≤ s.blockSize
        omega
  · exact (yields_pure_iff _ _ _).mpr trivial

/- Counting the blocks only changes the block count. -/
theorem updateInodeBlockCount_eq
    (s : State)
    (inode : Inode) :
    ∃ count,
      updateInodeBlockCount s inode =
        .ok (inode.setBlocks count) := by
  rcases (yields_inodeAllocatedBlocks s inode).exists_eq_ok
    with ⟨total, hTotal, -⟩
  refine ⟨total * (s.blockSize / 512), ?_⟩
  unfold updateInodeBlockCount
  rw [hTotal]
  rfl

end Ext2

end Whirliscope

------------------------------------------------------------
-- Pointers of a File
------------------------------------------------------------

namespace Whirliscope

namespace Ext2

open ByteMemory FaultProgram

/- Where a file keeps a pointer to a block. -/
inductive Slot where
| direct (index : Nat)
| indirect
| entry (index : Nat)
deriving DecidableEq

/- The pointers that an indirect block holds. -/
def Geometry.entries
    (G : Geometry) : Nat :=
  G.blockSize / 4

/- A pointer of an inode, or 0. -/
def Volume.pointer
    (V : Volume)
    (G : Geometry)
    (inode : Inode) : Slot → Nat
| .direct index =>
    if index < directBlocks then inode.block index else 0
| .indirect => inode.block 12
| .entry index =>
    if index < G.entries ∧ inode.block 12 ≠ 0 then
      getLE (V.contents (inode.block 12)) (4 * index) 4
    else
      0

namespace Volume

variable {V : Volume} {G : Geometry} {inode : Inode}

theorem pointer_direct
    {index : Nat}
    (hIndex : index < directBlocks) :
    V.pointer G inode (.direct index) = inode.block index :=
  if_pos hIndex

theorem pointer_direct_of_le
    {index : Nat}
    (hIndex : directBlocks ≤ index) :
    V.pointer G inode (.direct index) = 0 :=
  if_neg (Nat.not_lt_of_le hIndex)

theorem pointer_indirect :
    V.pointer G inode .indirect = inode.block 12 :=
  rfl

theorem pointer_entry
    {index : Nat}
    (hIndex : index < G.entries)
    (hSome : inode.block 12 ≠ 0) :
    V.pointer G inode (.entry index) =
      getLE (V.contents (inode.block 12)) (4 * index) 4 :=
  if_pos ⟨hIndex, hSome⟩

theorem pointer_entry_of_none
    (hNone : inode.block 12 = 0)
    (index : Nat) :
    V.pointer G inode (.entry index) = 0 :=
  if_neg fun hSome => hSome.2 hNone

theorem pointer_entry_of_le
    {index : Nat}
    (hIndex : G.entries ≤ index) :
    V.pointer G inode (.entry index) = 0 :=
  if_neg fun hSome => Nat.not_lt_of_le hIndex hSome.1

end Volume

/- The slot of a block of a file. -/
def fileSlot
    (fileBlock : Nat) : Slot :=
  if fileBlock < directBlocks then
    .direct fileBlock
  else
    .entry (fileBlock - directBlocks)

/- The block that backs a file block, or 0. -/
def Volume.fileBlock
    (V : Volume)
    (G : Geometry)
    (inode : Inode)
    (fileBlock : Nat) : Nat :=
  V.pointer G inode (fileSlot fileBlock)

/- A byte of a file. -/
def Volume.fileByte
    (V : Volume)
    (G : Geometry)
    (inode : Inode)
    (offset : Nat) : UInt8 :=
  let block := V.fileBlock G inode (offset / G.blockSize)
  if block = 0 then 0
  else V.contents block (offset % G.blockSize)

end Ext2

end Whirliscope

------------------------------------------------------------
-- Well-Owned Volumes
------------------------------------------------------------

namespace Whirliscope

namespace Ext2

open ByteMemory FaultProgram Ownership

/-
  An inode that files and directories use: the root, or one
  that is not reserved.
-/
def Allocated
    (G : Geometry)
    (V : Volume)
    (number : Nat) : Prop :=
  G.HasInode number ∧ V.inodeUsed number = true ∧
    (number = rootInode ∨ G.firstIno ≤ number)

instance
    (G : Geometry)
    (V : Volume)
    (number : Nat) :
    Decidable (Allocated G V number) :=
  inferInstanceAs (Decidable (_ ∧ _ ∧ _))

/- The pointers of the allocated inodes. -/
def Volume.refs
    (V : Volume)
    (G : Geometry)
    (inodes : Nat → Inode)
    (ref : Nat × Slot) : Nat :=
  if Allocated G V ref.1 then
    V.pointer G (inodes ref.1) ref.2
  else
    0

/-
  Every data block in use belongs to one pointer of one
  allocated inode.
-/
def Owned
    (G : Geometry)
    (V : Volume)
    (inodes : Nat → Inode) : Prop :=
  Owns G.IsData 0 V.used (V.refs G inodes)

/- The file types of the format. -/
def Inode.IsRegular
    (inode : Inode) : Prop :=
  inode.mode &&& 0xf000 = sIfreg

def Inode.IsDirectory
    (inode : Inode) : Prop :=
  inode.mode &&& 0xf000 = sIfdir

/-
  An inode of a file or directory without holes, and without
  pointers at or past its size.
-/
structure Shaped
    (G : Geometry)
    (V : Volume)
    (inode : Inode) : Prop where
  kind : inode.IsRegular ∨ inode.IsDirectory
  pointers : inode.block 13 = 0 ∧ inode.block 14 = 0
  mapped :
    ∀ fileBlock, fileBlock * G.blockSize < inode.size ↔
      V.fileBlock G inode fileBlock ≠ 0
  indirect :
    inode.block 12 ≠ 0 →
      directBlocks * G.blockSize < inode.size

structure WellOwned
    (G : Geometry)
    (V : Volume) : Prop where
  metadata : MetadataUsed G V
  owned : Owned G V V.inodes
  shaped :
    ∀ number, Allocated G V number →
      Shaped G V (V.inodes number)

/- The indirect block of an inode holds data. -/
def IndirectIsData
    (G : Geometry)
    (inode : Inode) : Prop :=
  inode.block 12 ≠ 0 → G.IsData (inode.block 12)

/- The blocks of an inode hold data. -/
def BlocksAreData
    (G : Geometry)
    (V : Volume)
    (inode : Inode) : Prop :=
  ∀ slot, V.pointer G inode slot ≠ 0 →
    G.IsData (V.pointer G inode slot)

theorem BlocksAreData.indirect
    {G : Geometry}
    {V : Volume}
    {inode : Inode}
    (hBlocks : BlocksAreData G V inode) :
    IndirectIsData G inode :=
  hBlocks .indirect

theorem Owned.blocksAreData
    {G : Geometry}
    {V : Volume}
    {inodes : Nat → Inode}
    (hOwned : Owned G V inodes)
    {number : Nat}
    (hAllocated : Allocated G V number) :
    BlocksAreData G V (inodes number) := by
  intro slot hSlot
  have hRef :
      V.refs G inodes (number, slot) =
        V.pointer G (inodes number) slot :=
    if_pos hAllocated
  rw [← hRef] at hSlot ⊢
  exact hOwned.owned _ hSlot

namespace Holds

variable {G : Geometry} {V : Volume} {s : State}

theorem blockSizeAccepted
    (hSane : Sane G)
    (hHolds : Holds G V s) :
    BlockSizeAccepted s := by
  unfold BlockSizeAccepted
  rw [hHolds.blockSize]
  exact hSane.blockSize

theorem entriesPerBlock_eq
    (hHolds : Holds G V s) :
    entriesPerBlock s = G.entries := by
  unfold entriesPerBlock Geometry.entries
  rw [hHolds.blockSize]

theorem mappedBlock_eq
    (hHolds : Holds G V s)
    {inode : Inode}
    (hIndirect : IndirectIsData G inode)
    (fileBlock : Nat) :
    mappedBlock s inode fileBlock =
      V.fileBlock G inode fileBlock := by
  unfold mappedBlock Volume.fileBlock fileSlot
  by_cases hDirect : fileBlock < directBlocks
  · simp only [if_pos hDirect, Volume.pointer]
  · simp only [if_neg hDirect, Volume.pointer,
      hHolds.entriesPerBlock_eq, pointerAt]
    by_cases hEntry : fileBlock - directBlocks < G.entries
    · by_cases hNone : inode.block 12 = 0
      · simp [hNone]
      · have hData := hIndirect hNone
        have hRange :
            4 * (fileBlock - directBlocks) + 4 ≤
              G.blockSize := by
          unfold Geometry.entries at hEntry
          omega
        simp only [if_pos hEntry, if_neg hNone, hEntry, hNone,
          ne_eq, not_false_eq_true, and_self, if_true,
          hHolds.blockSize]
        exact hHolds.getLE_data hData hRange
    · simp [hEntry]

theorem blockIdAt_eq
    (hSane : Sane G)
    (hHolds : Holds G V s)
    {inode : Inode}
    (hIndirect : IndirectIsData G inode)
    (fileBlock : Nat) :
    blockIdAt s inode fileBlock =
      .ok (V.fileBlock G inode fileBlock) := by
  rw [← hHolds.mappedBlock_eq hIndirect]
  apply Ext2.blockIdAt_eq (hHolds.blockSizeAccepted hSane)
  intro hSome
  exact hHolds.blockInImage hSane (hIndirect hSome)

theorem fileByte_eq
    (hSane : Sane G)
    (hHolds : Holds G V s)
    {inode : Inode}
    (hBlocks : BlocksAreData G V inode)
    (offset : Nat) :
    fileByte s inode offset = V.fileByte G inode offset := by
  unfold Ext2.fileByte blockByte Volume.fileByte
  rw [hHolds.mappedBlock_eq hBlocks.indirect,
    hHolds.blockSize]
  by_cases hNone :
      V.fileBlock G inode (offset / G.blockSize) = 0
  · rw [if_pos hNone]
    exact (if_pos hNone).symm
  · rw [if_neg hNone]
    refine Eq.trans ?_ (if_neg hNone).symm
    exact hHolds.cells (.data _) (hBlocks _ hNone) _
      (Nat.mod_lt _ hSane.blockSize_pos)

/- Reading a file yields its bytes. -/
theorem readInodeBytes_eq
    (hSane : Sane G)
    (hHolds : Holds G V s)
    {inode : Inode}
    (hBlocks : BlocksAreData G V inode)
    {offset len : Nat}
    (hLen : offset + len ≤ inode.size)
    (buffer : Bytes) :
    readInodeBytes s inode offset buffer len =
      .ok (true,
        write buffer 0 len
          fun i => V.fileByte G inode (offset + i)) := by
  have hSame :
      (fun i => V.fileByte G inode (offset + i)) =
        fun i => fileByte s inode (offset + i) := by
    funext i
    exact (hHolds.fileByte_eq hSane hBlocks _).symm
  rw [hSame]
  apply Ext2.readInodeBytes_eq
    (hHolds.blockSizeAccepted hSane) _ _ hLen
  · intro hSome
    exact hHolds.blockInImage hSane (hBlocks.indirect hSome)
  · intro fileBlock _ hSome
    rw [hHolds.mappedBlock_eq hBlocks.indirect] at hSome ⊢
    exact hHolds.blockInImage hSane (hBlocks _ hSome)

end Holds

end Ext2

end Whirliscope
