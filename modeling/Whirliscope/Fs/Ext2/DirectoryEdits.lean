import Whirliscope.Fs.Ext2.DirectoryBlocks
import Whirliscope.Fs.Ext2.FileContent

/-
  Changes to the blocks of a directory: what a store into one
  of them keeps, and which rows the directory has then.

  Key definitions include:
    * `Volume.setBlock`
    * `Touched`

  Main theorems:
    * `Holds.ensures_storeBlock`
    * `Catalog.replace`, `Catalog.append`
-/

------------------------------------------------------------
-- Stores into a Block
------------------------------------------------------------

namespace Whirliscope

namespace Ext2

open ByteMemory FaultProgram Records

/- Replace the bytes of a block. -/
def Volume.setBlock
    (V : Volume)
    (block : Nat)
    (bytes : Bytes) : Volume :=
  V.withContents (Function.update V.contents block bytes)

/- The pointer that `block_ptr` yields for a whole block. -/
def Geometry.blockPointer
    (G : Geometry)
    (block : Nat) : Pointer where
  address := block * G.blockSize
  extent := G.blockSize

namespace Volume

variable (V : Volume) {block other : Nat}

@[simp] theorem setBlock_contents
    (block : Nat)
    (bytes : Bytes) :
    (V.setBlock block bytes).contents block = bytes :=
  Function.update_self _ _ _

theorem setBlock_contents_of_ne
    (hOther : other ≠ block)
    (bytes : Bytes) :
    (V.setBlock block bytes).contents other =
      V.contents other :=
  Function.update_of_ne hOther _ _

theorem setBlock_self
    (block : Nat) :
    V.setBlock block (V.contents block) = V := by
  unfold setBlock
  rw [Function.update_eq_self]
  rfl

end Volume

namespace Holds

variable {G : Geometry} {V : Volume} {s : State}
variable {stops : Fault → Prop} {block : Nat} {bytes : Bytes}

theorem blockPtr_eq
    (hSane : Sane G)
    (hHolds : Holds G V s)
    (hData : G.IsData block) :
    blockPtr s block 0 s.blockSize =
      some (G.blockPointer block) := by
  rw [hHolds.blockSize,
    hHolds.blockPtr_data hSane hData
      (Nat.le_of_eq (Nat.zero_add _))]
  rfl

/- A field of a whole block. -/
theorem load_block
    (hSane : Sane G)
    (hHolds : Holds G V s)
    (hData : G.IsData block)
    {offset width : Nat}
    (hRange : offset + width ≤ G.blockSize) :
    (s.view (G.blockPointer block)).load offset width =
      .ok (getLE (V.contents block) offset width) := by
  have hInside : (G.blockPointer block).InImage s := by
    have hBlock := hHolds.blockInImage hSane hData
    unfold BlockInImage at hBlock
    rw [hHolds.blockSize, Nat.add_mul, Nat.one_mul] at hBlock
    exact hBlock
  have hLoad :
      s.load (G.blockPointer block) offset width =
        .ok (getLE s.image (block * G.blockSize + offset)
          width) :=
    load_eq hInside hRange
  rw [hHolds.getLE_data hData hRange] at hLoad
  exact hLoad

/- One more store into a block. -/
theorem ensures_storeBlock
    (hSane : Sane G)
    (hHolds : Holds G (V.setBlock block bytes) s)
    (hData : G.IsData block)
    {offset count : Nat}
    (hRange : offset + count ≤ G.blockSize)
    (source : Bytes) :
    Ensures stops
      (store (G.blockPointer block) offset count source) s
      fun _ final =>
        Holds G
          (V.setBlock block (write bytes offset count source))
          final := by
  have hStore :=
    @Holds.ensures_storeData G (V.setBlock block bytes) s
      stops hSane hHolds block hData 0 G.blockSize offset count
      (Nat.le_of_eq (Nat.zero_add _)) hRange source
  rw [Nat.zero_add, Volume.setBlock_contents] at hStore
  apply hStore.mono
  intro _ final hFinal
  change Holds G
    (V.withContents (Function.update
      (Function.update V.contents block bytes) block _))
    final at hFinal
  rw [Function.update_idem] at hFinal
  exact hFinal

theorem ensures_storeBlockField
    (hSane : Sane G)
    (hHolds : Holds G (V.setBlock block bytes) s)
    (hData : G.IsData block)
    {offset width : Nat}
    (hRange : offset + width ≤ G.blockSize)
    (value : Nat) :
    Ensures stops
      (storeField (G.blockPointer block) offset width value) s
      fun _ final =>
        Holds G
          (V.setBlock block (putLE bytes offset width value))
          final :=
  hHolds.ensures_storeBlock hSane hData hRange _

end Holds

end Ext2

end Whirliscope

------------------------------------------------------------
-- What a Change to a Directory Keeps
------------------------------------------------------------

namespace Whirliscope

namespace Ext2

open ByteMemory FaultProgram Ownership Records

/- A block that can be mapped is below the largest size. -/
theorem Volume.fileBlock_size_lt
    {G : Geometry}
    {V : Volume}
    {file : Inode}
    {index : Nat}
    (hSane : Sane G)
    (hMapped : V.fileBlock G file index ≠ 0) :
    (index + 1) * G.blockSize < 2 ^ 32 := by
  have hNear : index < directBlocks + G.entries := by
    by_contra hFar
    apply hMapped
    unfold Volume.fileBlock
    rw [fileSlot_of_le (by omega)]
    exact Volume.pointer_entry_of_le (by omega)
  exact Nat.lt_of_le_of_lt
    (Nat.mul_le_mul_right G.blockSize hNear) hSane.maxSize_lt

/- A change to one inode and its blocks. -/
structure Touched
    (G : Geometry)
    (V : Volume)
    (number : Nat)
    (V' : Volume) : Prop where
  keeps : KeepsOthers G V V' number
  modes : SameModes V V'
  editing : Editing G V' number (V'.inodes number)

section

variable {G : Geometry} {V V' : Volume} {number : Nat}
variable {dir copy : Inode}
variable {rows first last : List (List DirRecord)}
variable {row row' : List DirRecord}

/- A block of the edited file has new bytes. -/
theorem Editing.keepsOthers_setBlock
    (hEditing : Editing G V number dir)
    (slot : Slot)
    (bytes : Bytes) :
    KeepsOthers G V
      (V.setBlock (V.pointer G dir slot) bytes) number :=
  hEditing.keepsOthers rfl (fun _ _ => rfl)
    fun _ _ _ hSlots =>
      V.setBlock_contents_of_ne (hSlots slot).symm bytes

theorem Editing.pointer_setBlock
    (hEditing : Editing G V number dir)
    {index : Nat}
    (hMapped : V.fileBlock G dir index ≠ 0)
    (bytes : Bytes)
    (slot : Slot) :
    (V.setBlock (V.fileBlock G dir index) bytes).pointer G dir
        slot =
      V.pointer G dir slot := by
  apply Volume.pointer_congr fun _ _ => rfl
  intro _
  exact V.setBlock_contents_of_ne
    (hEditing.fileBlock_ne_indirect hMapped).symm bytes

theorem Editing.setBlock
    (hEditing : Editing G V number dir)
    {index : Nat}
    (hMapped : V.fileBlock G dir index ≠ 0)
    (bytes : Bytes) :
    Editing G (V.setBlock (V.fileBlock G dir index) bytes)
      number dir :=
  hEditing.transport (hEditing.keepsOthers_setBlock _ bytes) rfl
    (hEditing.pointer_setBlock hMapped bytes)

theorem Volume.setBlock_sameInodes
    (V : Volume)
    (block : Nat)
    (bytes : Bytes) :
    SameInodes V (V.setBlock block bytes) :=
  ⟨rfl, rfl, rfl, rfl, rfl, rfl⟩

/- The last store of an edit. -/
theorem Editing.touched
    (hEditing : Editing G V' number copy)
    (hKeeps : KeepsOthers G V V' number)
    (hModes : SameModes V V')
    (hMode : copy.mode = (V.inodes number).mode)
    (size count : Nat) :
    Touched G V number
      (V'.setInode number (copy.resized size count)) where
  keeps := hKeeps.trans (.setInode G V' number _)
  modes := by
    apply hModes.trans
    apply SameModes.setInode
    rw [Inode.mode_resized, hMode, hModes.mode]
  editing := by
    rw [Volume.setInode_inodes_self]
    exact hEditing.setInode size count

/- A directory depends on its inode and its blocks. -/
theorem Catalog.congr
    (hCatalog : Catalog G V dir rows)
    (hMode : copy.mode = dir.mode)
    (hSize : copy.size = dir.size)
    (hBlocks :
      ∀ index < rows.length,
        V'.fileBlock G copy index = V.fileBlock G dir index ∧
          V'.contents (V.fileBlock G dir index) =
            V.contents (V.fileBlock G dir index)) :
    Catalog G V' copy rows where
  kind := (Inode.isDir_congr hMode).trans hCatalog.kind
  filled := hCatalog.filled
  size := hSize.trans hCatalog.size
  mapped := by
    intro index hIndex
    rw [(hBlocks index hIndex).1]
    exact hCatalog.mapped index hIndex
  tiled := by
    intro index row hRow
    have hIndex := (List.getElem?_eq_some_iff.mp hRow).1
    rw [(hBlocks index hIndex).1, (hBlocks index hIndex).2]
    exact hCatalog.tiled index row hRow

theorem Catalog.resized
    (hCatalog : Catalog G V dir rows)
    (count : Nat) :
    Catalog G
      (V.setInode number (dir.resized dir.size count))
      (dir.resized dir.size count) rows :=
  hCatalog.congr (Inode.mode_resized dir _ count)
    (Inode.size_resized dir dir.size_lt count)
    fun _ _ => ⟨Volume.pointer_resized dir _ count _, rfl⟩

/- Another row in the place of one of them. -/
theorem Catalog.replace
    {bytes : Bytes}
    (hEditing : Editing G V number dir)
    (hCatalog : Catalog G V dir (first ++ row :: last))
    (hTiles : Tiles bytes 0 row' G.blockSize) :
    Catalog G
      (V.setBlock (V.fileBlock G dir first.length) bytes) dir
      (first ++ row' :: last) := by
  have hLength :
      (first ++ row' :: last).length =
        (first ++ row :: last).length := by
    simp only [List.length_append, List.length_cons]
  have hHere : first.length < (first ++ row :: last).length := by
    simp only [List.length_append, List.length_cons]
    omega
  have hMapped := hCatalog.mapped first.length hHere
  have hBlock :
      ∀ index,
        (V.setBlock (V.fileBlock G dir first.length)
            bytes).fileBlock G dir index =
          V.fileBlock G dir index := fun index =>
    hEditing.pointer_setBlock hMapped bytes (fileSlot index)
  refine ⟨hCatalog.kind, by simp, ?_, ?_, ?_⟩
  · rw [hCatalog.size, hLength]
  · intro index hIndex
    rw [hBlock]
    exact hCatalog.mapped index (hLength ▸ hIndex)
  · intro index other hOther
    rw [hBlock]
    by_cases hSame : index = first.length
    · subst hSame
      rw [List.getElem?_append_right (Nat.le_refl _),
        Nat.sub_self, List.getElem?_cons_zero] at hOther
      cases hOther
      rw [Volume.setBlock_contents]
      exact hTiles
    · have hOld :
          (first ++ row :: last)[index]? = some other := by
        rw [← hOther]
        rcases Nat.lt_or_ge index first.length with
          hLow | hHigh
        · rw [List.getElem?_append_left hLow,
            List.getElem?_append_left hLow]
        · rw [List.getElem?_append_right hHigh,
            List.getElem?_append_right hHigh]
          obtain ⟨more, hMore⟩ :
              ∃ more, index - first.length = more + 1 :=
            ⟨index - first.length - 1, by omega⟩
          rw [hMore, List.getElem?_cons_succ,
            List.getElem?_cons_succ]
      have hIndex := (List.getElem?_eq_some_iff.mp hOld).1
      rw [V.setBlock_contents_of_ne fun hBoth =>
        hSame (hEditing.fileBlock_injective
          (hCatalog.mapped index hIndex) hBoth)]
      exact hCatalog.tiled index other hOld

/- One row more, in a block that was mapped for it. -/
theorem Catalog.append
    {bytes : Bytes}
    {block : Nat}
    (hEditing : Editing G V number copy)
    (hMode : copy.mode = dir.mode)
    (hCatalog : Catalog G V' dir rows)
    (hBlocks :
      ∀ index < rows.length,
        V.fileBlock G copy index = V'.fileBlock G dir index ∧
          V.contents (V'.fileBlock G dir index) =
            V'.contents (V'.fileBlock G dir index))
    (hBlock : V.fileBlock G copy rows.length = block)
    (hSome : block ≠ 0)
    (hTiles : Tiles bytes 0 row G.blockSize)
    (hSmall : (rows.length + 1) * G.blockSize < 2 ^ 32)
    (count : Nat) :
    Catalog G
      ((V.setBlock block bytes).setInode number
        (copy.resized ((rows.length + 1) * G.blockSize)
          count))
      (copy.resized ((rows.length + 1) * G.blockSize) count)
      (rows ++ [row]) := by
  subst hBlock
  have hFile :
      ∀ index,
        ((V.setBlock (V.fileBlock G copy rows.length)
            bytes).setInode number
            (copy.resized ((rows.length + 1) * G.blockSize)
              count)).fileBlock G
            (copy.resized ((rows.length + 1) * G.blockSize)
              count)
            index =
          V.fileBlock G copy index := fun index =>
    (Volume.pointer_resized copy _ count (fileSlot index)).trans
      (hEditing.pointer_setBlock hSome bytes (fileSlot index))
  refine ⟨?_, by simp, ?_, ?_, ?_⟩
  · exact (Inode.isDir_congr
      ((Inode.mode_resized copy _ count).trans hMode)).trans
        hCatalog.kind
  · rw [Inode.size_resized copy hSmall, List.length_append,
      List.length_singleton]
  · intro index hIndex
    rw [List.length_append, List.length_singleton] at hIndex
    rw [hFile]
    by_cases hSame : index = rows.length
    · rw [hSame]
      exact hSome
    · have hOld : index < rows.length := by omega
      rw [(hBlocks index hOld).1]
      exact hCatalog.mapped index hOld
  · intro index other hOther
    rw [hFile]
    by_cases hSame : index = rows.length
    · subst hSame
      rw [List.getElem?_append_right (Nat.le_refl _),
        Nat.sub_self, List.getElem?_cons_zero] at hOther
      cases hOther
      change Tiles ((V.setBlock _ bytes).contents _) 0 row _
      rw [Volume.setBlock_contents]
      exact hTiles
    · have hIndex := (List.getElem?_eq_some_iff.mp hOther).1
      rw [List.length_append, List.length_singleton] at hIndex
      have hOld : index < rows.length := by omega
      rw [List.getElem?_append_left hOld] at hOther
      rcases hBlocks index hOld with ⟨hFileBlock, hContents⟩
      have hMapped : V.fileBlock G copy index ≠ 0 := by
        rw [hFileBlock]
        exact hCatalog.mapped index hOld
      change Tiles ((V.setBlock _ bytes).contents _) 0 other _
      rw [V.setBlock_contents_of_ne fun hBoth =>
          hSame (hEditing.fileBlock_injective hMapped hBoth),
        hFileBlock, hContents]
      exact hCatalog.tiled index other hOther

end

end Ext2

end Whirliscope
