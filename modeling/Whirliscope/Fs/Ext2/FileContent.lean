import Whirliscope.Fs.Ext2.FileResize

/-
  The bytes of a file after its size was changed and after
  bytes were stored into it.

  Key definitions include:
    * `Intact`
    * `Stored`

  Main theorems:
    * `Resized.fileByte_eq`, `Resized.intact`
    * `Holds.ensures_writeLoop`
-/

------------------------------------------------------------
-- Bytes of a Growing File
------------------------------------------------------------

namespace Whirliscope

namespace Ext2

open ByteMemory FaultProgram Ownership

/-
  A file without holes. Blocks past its size, which a failed
  growth may leave behind, are clear.
-/
structure Intact
    (G : Geometry)
    (V : Volume)
    (file : Inode) : Prop where
  mapped :
    ∀ fileBlock, fileBlock * G.blockSize < file.size →
      V.fileBlock G file fileBlock ≠ 0
  clear :
    ∀ fileBlock, file.size ≤ fileBlock * G.blockSize →
      V.fileBlock G file fileBlock ≠ 0 →
        V.contents (V.fileBlock G file fileBlock) = zeros
  indirect :
    file.block 12 ≠ 0 →
      directBlocks * G.blockSize < file.size

section

variable {G : Geometry} {V V' : Volume}
variable {number other : Nat} {file copy : Inode}

theorem Shaped.intact
    (hShaped : Shaped G V file) :
    Intact G V file where
  mapped := fun fileBlock hLess =>
    (hShaped.mapped fileBlock).mp hLess
  clear := by
    intro fileBlock hFar hSome
    have hLess := (hShaped.mapped fileBlock).mpr hSome
    omega
  indirect := hShaped.indirect

/- The last block of the file is mapped. -/
theorem Intact.tail
    (hIntact : Intact G V file)
    (hRest : file.size % G.blockSize ≠ 0) :
    V.fileBlock G file (file.size / G.blockSize) ≠ 0 := by
  apply hIntact.mapped
  have hDiv := Nat.div_mul_le_self file.size G.blockSize
  have hSplit := Nat.div_add_mod file.size G.blockSize
  rw [Nat.mul_comm] at hSplit
  omega

/- The bytes of a file depend on its pointers and blocks. -/
theorem Volume.fileByte_congr
    {offset : Nat}
    (hBlock :
      V'.fileBlock G copy (offset / G.blockSize) =
        V.fileBlock G file (offset / G.blockSize))
    (hContents :
      V.fileBlock G file (offset / G.blockSize) ≠ 0 →
        V'.contents
            (V.fileBlock G file (offset / G.blockSize))
            (offset % G.blockSize) =
          V.contents
            (V.fileBlock G file (offset / G.blockSize))
            (offset % G.blockSize)) :
    V'.fileByte G copy offset = V.fileByte G file offset := by
  unfold Volume.fileByte
  dsimp only
  rw [hBlock]
  split
  · rfl
  · next hSome => rw [hContents hSome]

theorem Volume.fileByte_of_block
    {offset block : Nat}
    (hBlock :
      V.fileBlock G file (offset / G.blockSize) = block)
    (hSome : block ≠ 0) :
    V.fileByte G file offset =
      V.contents block (offset % G.blockSize) := by
  unfold Volume.fileByte
  dsimp only
  rw [hBlock, if_neg hSome]

/- A block of a file is not its indirect block. -/
theorem Editing.fileBlock_ne_indirect
    (hEditing : Editing G V number file)
    {fileBlock : Nat}
    (hSome : V.fileBlock G file fileBlock ≠ 0) :
    V.fileBlock G file fileBlock ≠ file.block 12 := fun hSame =>
  fileSlot_ne_indirect fileBlock
    (@Editing.pointer_injective _ _ _ _ hEditing _ .indirect
      hSome hSame)

theorem Editing.fileBlock_injective
    (hEditing : Editing G V number file)
    {fileBlock place : Nat}
    (hSome : V.fileBlock G file fileBlock ≠ 0)
    (hSame :
      V.fileBlock G file fileBlock = V.fileBlock G file place) :
    fileBlock = place :=
  fileSlot_injective (hEditing.pointer_injective hSome hSame)

/- The contents of the old blocks stay. -/
theorem Extends.contents_fileBlock
    (hEditing : Editing G V number file)
    (hExtends : Extends G V file V' copy)
    {fileBlock : Nat}
    (hSome : V.fileBlock G file fileBlock ≠ 0) :
    V'.fileBlock G copy fileBlock =
        V.fileBlock G file fileBlock ∧
      V'.contents (V.fileBlock G file fileBlock) =
        V.contents (V.fileBlock G file fileBlock) := by
  have hUsed : V.used (V.fileBlock G file fileBlock) = true :=
    hEditing.used hSome
  exact ⟨hExtends.pointers _ hSome,
    hExtends.contents _
      ((hExtends.used _ hUsed).trans hUsed.symm)
      (hEditing.fileBlock_ne_indirect hSome)⟩

/- New blocks read as the holes that they fill. -/
theorem Extends.fileByte_eq
    (hEditing : Editing G V number file)
    (hExtends : Extends G V file V' copy)
    (offset : Nat) :
    V'.fileByte G copy offset = V.fileByte G file offset := by
  by_cases hHole :
      V.fileBlock G file (offset / G.blockSize) = 0
  · have hOld : V.fileByte G file offset = 0 := by
      unfold Volume.fileByte
      exact if_pos hHole
    rw [hOld]
    unfold Volume.fileByte
    dsimp only
    split
    · rfl
    · next hSome =>
        have hClear :=
          hExtends.cleared _ (fileSlot_ne_indirect _) hHole hSome
        exact congrFun hClear _
  · have hKept :=
      hExtends.contents_fileBlock hEditing hHole
    exact Volume.fileByte_congr hKept.1 fun _ => by rw [hKept.2]

/- Clearing the rest of a block changes no pointer. -/
theorem Editing.pointer_clearTail
    (hEditing : Editing G V number file)
    (oldSize : Nat)
    (hTail :
      oldSize % G.blockSize ≠ 0 →
        V.fileBlock G file (oldSize / G.blockSize) ≠ 0)
    (slot : Slot) :
    (V.clearTail G file oldSize).pointer G file slot =
      V.pointer G file slot := by
  unfold Volume.clearTail
  split
  · rfl
  · next hRest =>
      apply Volume.pointer_congr fun _ _ => rfl
      intro _
      exact Function.update_of_ne
        (hEditing.fileBlock_ne_indirect (hTail hRest)).symm _ _

theorem SameInodes.clearTail
    (V : Volume)
    (oldSize : Nat) :
    SameInodes V (V.clearTail G file oldSize) := by
  unfold Volume.clearTail
  split
  · exact .refl V
  · exact ⟨rfl, rfl, rfl, rfl, rfl, rfl⟩

theorem Volume.clearTail_used
    (V : Volume)
    (oldSize : Nat) :
    (V.clearTail G file oldSize).used = V.used := by
  unfold clearTail
  split <;> rfl

/- The other blocks keep their contents. -/
theorem Volume.clearTail_contents
    (V : Volume)
    (oldSize : Nat)
    {block : Nat}
    (hBlock :
      oldSize % G.blockSize ≠ 0 →
        block ≠ V.fileBlock G file (oldSize / G.blockSize)) :
    (V.clearTail G file oldSize).contents block =
      V.contents block := by
  unfold clearTail
  split
  · rfl
  · next hRest => exact Function.update_of_ne (hBlock hRest) _ _

theorem Editing.clearTail
    (hEditing : Editing G V number file)
    (oldSize : Nat)
    (hTail :
      oldSize % G.blockSize ≠ 0 →
        V.fileBlock G file (oldSize / G.blockSize) ≠ 0) :
    KeepsOthers G V (V.clearTail G file oldSize) number := by
  have hSame := @SameInodes.clearTail G file V oldSize
  apply hEditing.keepsOthers hSame.inodeUsed
    fun other _ => congrFun hSame.inodes other
  intro block _ _ hSlots
  exact Volume.clearTail_contents V oldSize fun _ =>
    (hSlots _).symm

end

end Ext2

end Whirliscope

------------------------------------------------------------
-- Bytes After a Resize
------------------------------------------------------------

namespace Whirliscope

namespace Ext2

open ByteMemory FaultProgram Ownership

namespace Inode

variable {inode : Inode}

theorem block_resized
    (inode : Inode)
    {index : Nat}
    (hIndex : index < 15)
    (size count : Nat) :
    (inode.resized size count).block index =
      inode.block index :=
  (block_setBlocks _ hIndex count).trans
    (block_setSize _ hIndex size)

theorem size_resized
    (inode : Inode)
    {size : Nat}
    (hSize : size < 2 ^ 32)
    (count : Nat) :
    (inode.resized size count).size = size :=
  (size_setBlocks _ count).trans (size_setSize _ hSize)

@[simp] theorem mode_resized
    (inode : Inode)
    (size count : Nat) :
    (inode.resized size count).mode = inode.mode :=
  (mode_setBlocks _ count).trans (mode_setSize _ size)

@[simp] theorem linksCount_resized
    (inode : Inode)
    (size count : Nat) :
    (inode.resized size count).linksCount =
      inode.linksCount :=
  (linksCount_setBlocks _ count).trans
    (linksCount_setSize _ size)

end Inode

section

variable {G : Geometry} {V V' : Volume}
variable {number newSize : Nat} {file copy : Inode}
variable {result : Bool × Inode}

theorem Volume.pointer_resized
    (copy : Inode)
    (size count : Nat)
    (slot : Slot) :
    V.pointer G (copy.resized size count) slot =
      V.pointer G copy slot :=
  Volume.pointer_of_blocks
    (fun _ hIndex => Inode.block_resized copy (by omega) size
      count)
    slot

/- A byte in the cleared rest of a block is zero. -/
theorem Editing.fileByte_clearTail
    (hSane : Sane G)
    (hEditing : Editing G V number file)
    {oldSize : Nat}
    (hTail :
      oldSize % G.blockSize ≠ 0 →
        V.fileBlock G file (oldSize / G.blockSize) ≠ 0)
    (offset : Nat) :
    (V.clearTail G file oldSize).fileByte G file offset =
      if oldSize % G.blockSize ≠ 0 ∧ oldSize ≤ offset ∧
          offset / G.blockSize = oldSize / G.blockSize then
        0
      else
        V.fileByte G file offset := by
  have hPos := hSane.blockSize_pos
  have hPointer := hEditing.pointer_clearTail oldSize hTail
  by_cases hRest : oldSize % G.blockSize = 0
  · have hSame : V.clearTail G file oldSize = V := if_pos hRest
    rw [hSame, if_neg fun h => h.1 hRest]
  have hContents :
      (V.clearTail G file oldSize).contents =
        Function.update V.contents
          (V.fileBlock G file (oldSize / G.blockSize))
          (write
            (V.contents
              (V.fileBlock G file (oldSize / G.blockSize)))
            (oldSize % G.blockSize)
            (G.blockSize - oldSize % G.blockSize) zeros) := by
    unfold Volume.clearTail
    rw [if_neg hRest]
  by_cases hBlock :
      offset / G.blockSize = oldSize / G.blockSize
  · have hSome := hTail hRest
    have hOld := Nat.div_add_mod oldSize G.blockSize
    have hNew := Nat.div_add_mod offset G.blockSize
    have hLess := Nat.mod_lt offset hPos
    rw [hBlock] at hNew
    have hByte :
        (V.clearTail G file oldSize).fileByte G file offset =
          write
            (V.contents
              (V.fileBlock G file (oldSize / G.blockSize)))
            (oldSize % G.blockSize)
            (G.blockSize - oldSize % G.blockSize) zeros
            (offset % G.blockSize) := by
      unfold Volume.fileByte Volume.fileBlock
      dsimp only
      rw [hPointer, hBlock]
      unfold Volume.fileBlock at hSome hContents
      rw [if_neg hSome, hContents, Function.update_self]
    rw [hByte]
    by_cases hAfter : oldSize ≤ offset
    · rw [if_pos ⟨hRest, hAfter, hBlock⟩,
        write_of_mem (by omega) (by omega)]
      rfl
    · rw [if_neg fun h => hAfter h.2.1,
        write_of_not_mem (by omega)]
      unfold Volume.fileByte
      dsimp only
      rw [hBlock, if_neg hSome]
  · rw [if_neg fun h => hBlock h.2.2]
    apply Volume.fileByte_congr
    · exact hPointer _
    · intro hSome
      rw [hContents, Function.update_of_ne fun hSame =>
        hBlock (hEditing.fileBlock_injective hSome hSame)]

/- Past its size a file reads as zeros, but for its tail. -/
theorem Intact.fileByte_past
    (hSane : Sane G)
    (hIntact : Intact G V file)
    {offset : Nat}
    (hPast : file.size ≤ offset)
    (hTail :
      ¬ (file.size % G.blockSize ≠ 0 ∧
        offset / G.blockSize = file.size / G.blockSize)) :
    V.fileByte G file offset = 0 := by
  have hPos := hSane.blockSize_pos
  have hOld := Nat.div_add_mod file.size G.blockSize
  have hDiv :
      file.size / G.blockSize ≤ offset / G.blockSize :=
    Nat.div_le_div_right hPast
  have hFar :
      file.size ≤ offset / G.blockSize * G.blockSize := by
    by_cases hRest : file.size % G.blockSize = 0
    · have hMul := Nat.mul_le_mul_right G.blockSize hDiv
      rw [Nat.mul_comm] at hOld
      omega
    · have hNext :
          file.size / G.blockSize + 1 ≤
            offset / G.blockSize := by
        have hNe := fun h => hTail ⟨hRest, h⟩
        omega
      have hMul := Nat.mul_le_mul_right G.blockSize hNext
      have hLess := Nat.mod_lt file.size hPos
      rw [Nat.add_mul, Nat.one_mul] at hMul
      rw [Nat.mul_comm] at hOld
      omega
  unfold Volume.fileByte
  dsimp only
  split
  · rfl
  · next hSome =>
      rw [hIntact.clear _ hFar hSome]
      rfl

/- Writing the inode of an edited file back. -/
theorem Editing.setInode
    (hEditing : Editing G V number copy)
    (size count : Nat) :
    Editing G (V.setInode number (copy.resized size count))
      number (copy.resized size count) :=
  hEditing.transport (.setInode G V number _) rfl
    (Volume.pointer_resized copy size count)

theorem Editing.transport_clearTail
    (hEditing : Editing G V number file)
    (oldSize : Nat)
    (hTail :
      oldSize % G.blockSize ≠ 0 →
        V.fileBlock G file (oldSize / G.blockSize) ≠ 0) :
    Editing G (V.clearTail G file oldSize) number file :=
  hEditing.transport (hEditing.clearTail oldSize hTail)
    (Volume.clearTail_used V oldSize)
    (hEditing.pointer_clearTail oldSize hTail)

/- The tail of the file is still mapped when it has grown. -/
theorem Extends.tail
    (hIntact : Intact G V file)
    (hExtends : Extends G V file V' copy)
    (hRest : file.size % G.blockSize ≠ 0) :
    V'.fileBlock G copy (file.size / G.blockSize) ≠ 0 :=
  (hExtends.pointers _ (hIntact.tail hRest)).trans_ne
    (hIntact.tail hRest)

/- A resized file can be edited again. -/
theorem Resized.editing
    (hSane : Sane G)
    (hEditing : Editing G V number file)
    (hIntact : Intact G V file)
    (hResized :
      Resized G V number file newSize (true, copy) V') :
    Editing G V' number copy ∧ V'.inodes number = copy := by
  cases hResized with
  | grown count hFits hMore hGrown =>
      rcases hGrown.extends hSane hEditing rfl with
        ⟨hEditing₁, hExtends⟩
      exact ⟨(hEditing₁.transport_clearTail _
          (hExtends.tail hIntact)).setInode newSize count,
        Volume.setInode_inodes_self _ _ _⟩
  | kept count hFits hLess hSame =>
      exact ⟨hEditing.setInode newSize count,
        Volume.setInode_inodes_self _ _ _⟩
  | shrunk count hFits hLess hShrinking =>
      exact ⟨hShrinking.editing.setInode newSize count,
        Volume.setInode_inodes_self _ _ _⟩

/- A resize leaves the other files alone. -/
theorem Resized.keepsOthers
    (hSane : Sane G)
    (hEditing : Editing G V number file)
    (hIntact : Intact G V file)
    (hResized :
      Resized G V number file newSize (true, copy) V') :
    KeepsOthers G V V' number := by
  cases hResized with
  | grown count hFits hMore hGrown =>
      rcases hGrown.extends hSane hEditing rfl with
        ⟨hEditing₁, hExtends⟩
      exact ((hExtends.keepsOthers hEditing).trans
        (hEditing₁.clearTail _ (hExtends.tail hIntact))).trans
          (.setInode G _ number _)
  | kept count hFits hLess hSame =>
      exact .setInode G V number _
  | shrunk count hFits hLess hShrinking =>
      exact (hShrinking.shrinks.keepsOthers hEditing).trans
        (.setInode G _ number _)

/- The size of a resized file. -/
theorem Resized.size_eq
    (hSane : Sane G)
    (hResized :
      Resized G V number file newSize (true, copy) V') :
    newSize ≤ G.maxSize ∧ copy.size = newSize := by
  have hSmall : newSize ≤ G.maxSize → newSize < 2 ^ 32 :=
    fun hFits => Nat.lt_of_le_of_lt hFits hSane.maxSize_lt
  cases hResized with
  | grown count hFits =>
      exact ⟨hFits, Inode.size_resized _ (hSmall hFits) count⟩
  | kept count hFits =>
      exact ⟨hFits, Inode.size_resized _ (hSmall hFits) count⟩
  | shrunk count hFits =>
      exact ⟨hFits, Inode.size_resized _ (hSmall hFits) count⟩

/-
  The bytes of a resized file: those before its new end stay,
  and zeros come after its old end.
-/
theorem Resized.fileByte_eq
    (hSane : Sane G)
    (hEditing : Editing G V number file)
    (hIntact : Intact G V file)
    (hResized :
      Resized G V number file newSize (true, copy) V')
    {offset : Nat}
    (hOffset : offset < newSize) :
    V'.fileByte G copy offset =
      if offset < file.size then V.fileByte G file offset
      else 0 := by
  cases hResized with
  | @grown copy V₁ count hFits hMore hGrown =>
      rcases hGrown.extends hSane hEditing rfl with
        ⟨hEditing₁, hExtends⟩
      have hSaved :
          ((V₁.clearTail G copy file.size).setInode number
              (copy.resized newSize count)).fileByte G
              (copy.resized newSize count) offset =
            (V₁.clearTail G copy file.size).fileByte G copy
              offset :=
        Volume.fileByte_congr
          (Volume.pointer_resized copy newSize count _)
          fun _ => rfl
      rw [hSaved,
        hEditing₁.fileByte_clearTail hSane
          (hExtends.tail hIntact),
        hExtends.fileByte_eq hEditing]
      by_cases hOld : offset < file.size
      · rw [if_neg fun h => Nat.not_lt_of_le h.2.1 hOld,
          if_pos hOld]
      · rw [if_neg hOld]
        split
        · rfl
        · next hTail =>
            exact hIntact.fileByte_past hSane
              (Nat.le_of_not_lt hOld) fun h =>
                hTail ⟨h.1, Nat.le_of_not_lt hOld, h.2⟩
  | kept count hFits hLess hSame =>
      rw [if_pos (Nat.lt_of_lt_of_le hOffset hLess)]
      exact Volume.fileByte_congr
        (Volume.pointer_resized file newSize count _)
        fun _ => rfl
  | @shrunk copy V₁ count hFits hLess hShrinking =>
      rw [if_pos (Nat.lt_of_lt_of_le hOffset hLess)]
      have hBlock :
          offset / G.blockSize < G.sizeBlocks newSize :=
        (hSane.lt_sizeBlocks_iff _).mpr
          (Nat.lt_of_le_of_lt (Nat.div_mul_le_self _ _) hOffset)
      have hStays :
          ¬ GoneFrom (G.sizeBlocks newSize)
            (fileSlot (offset / G.blockSize)) := by
        rw [goneFrom_fileSlot]
        exact Nat.not_le_of_lt hBlock
      apply Volume.fileByte_congr
      · exact (Volume.pointer_resized copy newSize count _).trans
          (hShrinking.shrinks.kept _ hStays)
      · intro hSome
        have hContents :=
          hShrinking.shrinks.contents _ hSome
            (hEditing.fileBlock_ne_indirect hSome)
        exact congrFun hContents _

/- A resized file has no holes. -/
theorem Resized.intact
    (hSane : Sane G)
    (hEditing : Editing G V number file)
    (hIntact : Intact G V file)
    (hResized :
      Resized G V number file newSize (true, copy) V') :
    Intact G V' copy := by
  have hSize := (hResized.size_eq hSane).2
  cases hResized with
  | @grown copy V₁ count hFits hMore hGrown =>
      rcases hGrown.extends hSane hEditing rfl with
        ⟨hEditing₁, hExtends⟩
      have hTail := hExtends.tail hIntact
      have hBlock :
          ∀ fileBlock,
            ((V₁.clearTail G copy file.size).setInode number
                (copy.resized newSize count)).fileBlock G
                (copy.resized newSize count) fileBlock =
              V₁.fileBlock G copy fileBlock := fun _ =>
        (Volume.pointer_resized copy newSize count _).trans
          (hEditing₁.pointer_clearTail _ hTail _)
      constructor
      · intro fileBlock hLess
        rw [hSize] at hLess
        rw [hBlock]
        by_cases hOld :
            fileBlock < G.sizeBlocks file.size
        · have hMapped :=
            hIntact.mapped fileBlock
              ((hSane.lt_sizeBlocks_iff _).mp hOld)
          exact (hExtends.pointers _ hMapped).trans_ne hMapped
        · exact hGrown.mapped hSane hEditing rfl
            (Nat.le_of_not_lt hOld)
            ((hSane.lt_sizeBlocks_iff _).mpr hLess)
      · intro fileBlock hFar
        rw [hSize] at hFar
        rw [hBlock]
        intro hSome
        have hOther :
            file.size % G.blockSize ≠ 0 →
              V₁.fileBlock G copy fileBlock ≠
                V₁.fileBlock G copy
                  (file.size / G.blockSize) := by
          intro _ hSame
          have hIndex :=
            hEditing₁.fileBlock_injective hSome hSame
          have hDiv :=
            Nat.div_mul_le_self file.size G.blockSize
          rw [hIndex] at hFar
          omega
        have hCleared :=
          Volume.clearTail_contents V₁ file.size hOther
        refine hCleared.trans ?_
        by_cases hHole : V.fileBlock G file fileBlock = 0
        · exact hExtends.cleared _ (fileSlot_ne_indirect _)
            hHole hSome
        · have hKept :=
            hExtends.contents_fileBlock hEditing hHole
          rw [hKept.1, hKept.2]
          exact hIntact.clear fileBlock (by omega) hHole
      · rw [hSize, Inode.block_resized _ (by decide)]
        intro hSome
        by_cases hNone : file.block 12 = 0
        · exact (hSane.lt_sizeBlocks_iff _).mp
            (hGrown.indirect hSane rfl hNone hSome)
        · exact Nat.lt_trans (hIntact.indirect hNone) hMore
  | kept count hFits hLess hSame =>
      have hBlock :
          ∀ fileBlock,
            (V.setInode number
                (file.resized newSize count)).fileBlock G
                (file.resized newSize count) fileBlock =
              V.fileBlock G file fileBlock := fun _ =>
        Volume.pointer_resized file newSize count _
      constructor
      · intro fileBlock hNear
        rw [hSize] at hNear
        rw [hBlock]
        exact hIntact.mapped _ (Nat.lt_of_lt_of_le hNear hLess)
      · intro fileBlock hFar
        rw [hSize] at hFar
        rw [hBlock]
        apply hIntact.clear
        by_contra hNear
        rw [Nat.not_le, ← hSane.lt_sizeBlocks_iff, ← hSame,
          hSane.lt_sizeBlocks_iff] at hNear
        omega
      · rw [hSize, Inode.block_resized _ (by decide),
          ← hSane.lt_sizeBlocks_iff, hSame,
          hSane.lt_sizeBlocks_iff]
        exact hIntact.indirect
  | @shrunk copy V₁ count hFits hLess hShrinking =>
      have hBlock :
          ∀ fileBlock,
            (V₁.setInode number
                (copy.resized newSize count)).fileBlock G
                (copy.resized newSize count) fileBlock =
              V₁.fileBlock G copy fileBlock := fun _ =>
        Volume.pointer_resized copy newSize count _
      constructor
      · intro fileBlock hNear
        rw [hSize] at hNear
        have hMapped :=
          hIntact.mapped _ (Nat.lt_of_lt_of_le hNear hLess)
        rw [← hSane.lt_sizeBlocks_iff] at hNear
        rw [hBlock]
        exact (hShrinking.shrinks.kept _
          ((goneFrom_fileSlot _ _).not.mpr
            (Nat.not_le_of_lt hNear))).trans_ne hMapped
      · intro fileBlock hFar
        rw [hSize, ← Nat.not_lt, ← hSane.lt_sizeBlocks_iff,
          Nat.not_lt] at hFar
        rw [hBlock]
        intro hSome
        exact absurd
          (hShrinking.shrinks.cleared _
            ((goneFrom_fileSlot _ _).mpr hFar))
          hSome
      · rw [hSize, Inode.block_resized _ (by decide),
          ← hSane.lt_sizeBlocks_iff]
        intro hSome
        by_contra hFew
        exact hSome
          (hShrinking.shrinks.cleared .indirect
            (Nat.le_of_not_lt hFew))

/- A resize keeps the free counts true. -/
theorem Resized.counts
    (hSane : Sane G)
    (hResized : Resized G V number file newSize result V')
    (hCounts : BlockCounts G V) :
    BlockCounts G V' := by
  cases hResized with
  | tooBig => exact hCounts
  | full hFits hMore hGrown => exact hGrown.counts hSane hCounts
  | grown count hFits hMore hGrown =>
      have hGrownCounts := hGrown.counts hSane hCounts
      unfold Volume.setInode Volume.clearTail
      split_ifs <;>
        exact ⟨hGrownCounts.total, hGrownCounts.group⟩
  | kept => exact ⟨hCounts.total, hCounts.group⟩
  | shrunk count hFits hLess hShrinking =>
      have hFreed := hShrinking.counts hCounts
      exact ⟨hFreed.total, hFreed.group⟩

/- A resize changes no file into a directory. -/
theorem Resized.sameModes
    (hSane : Sane G)
    (hEditing : Editing G V number file)
    (hFile : file = V.inodes number)
    (hResized : Resized G V number file newSize result V') :
    SameModes V V' := by
  have hMode :
      ∀ {V₁ : Volume} {copy : Inode} (size count : Nat),
        SameInodes V V₁ → SameHeader file copy →
          (copy.resized size count).mode =
            (V₁.inodes number).mode := by
    intro V₁ copy size count hSame hHeader
    rw [Inode.mode_resized, hHeader.mode, hSame.inodes, hFile]
  cases hResized with
  | tooBig => exact .refl V
  | full hFits hMore hGrown => exact hGrown.sameInodes.sameModes
  | @grown copy V₁ count hFits hMore hGrown =>
      have hHeader :=
        (hGrown.extends hSane hEditing rfl).2.header
      have hSame :=
        hGrown.sameInodes.trans
          (@SameInodes.clearTail G copy V₁ file.size)
      exact hSame.sameModes.trans
        (.setInode (hMode newSize count hSame hHeader))
  | kept count hFits hLess hSame =>
      exact .setInode
        (hMode newSize count (.refl V) (.refl file))
  | shrunk count hFits hLess hShrinking =>
      have hSame := hShrinking.shrinks.same
      exact hSame.sameModes.trans
        (.setInode
          (hMode newSize count hSame hShrinking.shrinks.header))

/-
  A resize succeeds exactly when the size is possible and
  there is room for the blocks that are missing.
-/
theorem Resized.succeeds_iff
    (hSane : Sane G)
    (hEditing : Editing G V number file)
    (hCounts : BlockCounts G V)
    (hSize : file.size ≤ G.maxSize)
    (hHoles :
      ∀ fileBlock, file.size ≤ fileBlock * G.blockSize →
        V.fileBlock G file fileBlock = 0)
    (hResized : Resized G V number file newSize result V') :
    result.1 = true ↔
      newSize ≤ file.size ∨
        newSize ≤ G.maxSize ∧
          spaceNeeded file (G.sizeBlocks file.size)
              (G.sizeBlocks newSize) ≤
            V.freeBlocks := by
  have hGrow :
      ∀ {grown : Bool × Inode} {V₁ : Volume},
        newSize ≤ G.maxSize →
        Grown G (G.sizeBlocks newSize) V file
            (G.sizeBlocks file.size) grown V₁ →
          (grown.1 = true ↔
            spaceNeeded file (G.sizeBlocks file.size)
                (G.sizeBlocks newSize) ≤
              V.freeBlocks) := by
    intro grown V₁ hFits hGrown
    apply hGrown.succeeds_iff hSane hEditing hCounts
    · intro index hFirst _
      apply hHoles
      by_contra hNear
      rw [Nat.not_le, ← hSane.lt_sizeBlocks_iff] at hNear
      omega
    · exact hSane.sizeBlocks_le hFits
  cases hResized with
  | tooBig hBig =>
      constructor
      · intro hFalse
        cases hFalse
      · omega
  | full hFits hMore hGrown =>
      have hRoom := hGrow hFits hGrown
      have hLess : ¬ newSize ≤ file.size := by
        intro hLe
        have hMono := @sizeBlocks_mono G _ _ hLe
        omega
      rw [hRoom]
      exact ⟨fun h => .inr ⟨hFits, h⟩,
        fun h => (h.resolve_left hLess).2⟩
  | grown count hFits hMore hGrown =>
      exact ⟨fun _ => .inr
        ⟨hFits, (hGrow hFits hGrown).mp rfl⟩, fun _ => rfl⟩
  | kept count hFits hLess =>
      exact ⟨fun _ => .inl hLess, fun _ => rfl⟩
  | shrunk count hFits hLess =>
      exact ⟨fun _ => .inl hLess, fun _ => rfl⟩

end

end Ext2

end Whirliscope

------------------------------------------------------------
-- Storing Bytes Into a File
------------------------------------------------------------

namespace Whirliscope

namespace Ext2

open ByteMemory FaultProgram Ownership

def Volume.withContents
    (V : Volume)
    (contents : Nat → Bytes) : Volume :=
  { V with contents := contents }

/-
  The contents of the blocks after `count` bytes were stored
  into a file. Only blocks with some of these bytes change.
-/
structure Stored
    (G : Geometry)
    (V : Volume)
    (file : Inode)
    (source : Bytes)
    (offset count : Nat)
    (contents : Nat → Bytes) : Prop where
  others :
    ∀ block,
      (∀ fileBlock, fileBlock * G.blockSize < offset + count →
        offset < (fileBlock + 1) * G.blockSize →
          V.fileBlock G file fileBlock ≠ block) →
        contents block = V.contents block
  bytes :
    ∀ i,
      (V.withContents contents).fileByte G file i =
        if offset ≤ i ∧ i < offset + count then
          source (i - offset)
        else
          V.fileByte G file i

section

variable {G : Geometry} {V V' : Volume} {number : Nat}
variable {file copy : Inode} {source : Bytes}
variable {offset count chunk : Nat} {contents : Nat → Bytes}

theorem Stored.zero :
    Stored G V file source offset 0 V.contents where
  others := fun _ _ => rfl
  bytes := by
    intro i
    rw [if_neg (by omega)]
    rfl

/- Storing bytes changes no pointer of the file. -/
theorem Stored.pointer
    (hEditing : Editing G V number file)
    (hMapped :
      ∀ fileBlock, fileBlock * G.blockSize < offset + count →
        offset < (fileBlock + 1) * G.blockSize →
          V.fileBlock G file fileBlock ≠ 0)
    (hStored : Stored G V file source offset count contents)
    (slot : Slot) :
    (V.withContents contents).pointer G file slot =
      V.pointer G file slot := by
  apply Volume.pointer_congr fun _ _ => rfl
  intro _
  apply hStored.others
  intro fileBlock hLow hHigh
  exact hEditing.fileBlock_ne_indirect
    (hMapped fileBlock hLow hHigh)

theorem Stored.keepsOthers
    (hEditing : Editing G V number file)
    (hStored : Stored G V file source offset count contents) :
    KeepsOthers G V (V.withContents contents) number :=
  hEditing.keepsOthers rfl (fun _ _ => rfl)
    fun block _ _ hSlots =>
      hStored.others block fun _ _ _ => hSlots _

theorem Stored.editing
    (hEditing : Editing G V number file)
    (hMapped :
      ∀ fileBlock, fileBlock * G.blockSize < offset + count →
        offset < (fileBlock + 1) * G.blockSize →
          V.fileBlock G file fileBlock ≠ 0)
    (hStored : Stored G V file source offset count contents) :
    Editing G (V.withContents contents) number file :=
  hEditing.transport (hStored.keepsOthers hEditing) rfl
    (hStored.pointer hEditing hMapped)

/- The bytes below the size of a file without holes. -/
theorem Intact.mapped_range
    (hIntact : Intact G V file)
    {stop fileBlock : Nat}
    (hStop : stop ≤ file.size)
    (hLow : fileBlock * G.blockSize < stop) :
    V.fileBlock G file fileBlock ≠ 0 :=
  hIntact.mapped fileBlock (Nat.lt_of_lt_of_le hLow hStop)

theorem Stored.intact
    (hEditing : Editing G V number file)
    (hIntact : Intact G V file)
    (hStop : offset + count ≤ file.size)
    (hStored : Stored G V file source offset count contents) :
    Intact G (V.withContents contents) file := by
  have hMapped :
      ∀ fileBlock, fileBlock * G.blockSize < offset + count →
        offset < (fileBlock + 1) * G.blockSize →
          V.fileBlock G file fileBlock ≠ 0 :=
    fun _ hLow _ => hIntact.mapped_range hStop hLow
  have hBlock :
      ∀ fileBlock,
        (V.withContents contents).fileBlock G file fileBlock =
          V.fileBlock G file fileBlock := fun _ =>
    hStored.pointer hEditing hMapped _
  constructor
  · intro fileBlock hNear
    rw [hBlock]
    exact hIntact.mapped fileBlock hNear
  · intro fileBlock hFar
    rw [hBlock]
    intro hSome
    refine (hStored.others _ ?_).trans
      (hIntact.clear fileBlock hFar hSome)
    intro place hLow _ hSame
    have hIndex :=
      hEditing.fileBlock_injective hSome hSame.symm
    rw [hIndex] at hFar
    omega
  · exact hIntact.indirect

/- One more chunk goes into one block. -/
theorem Stored.extend
    (hSane : Sane G)
    (hEditing : Editing G V number file)
    (hMapped :
      V.fileBlock G file ((offset + count) / G.blockSize) ≠ 0)
    (hSome : 0 < chunk)
    (hRoom :
      chunk ≤ G.blockSize - (offset + count) % G.blockSize)
    (hStored : Stored G V file source offset count contents)
    (hPointer :
      ∀ slot,
        (V.withContents contents).pointer G file slot =
          V.pointer G file slot) :
    Stored G V file source offset (count + chunk)
      (Function.update contents
        (V.fileBlock G file ((offset + count) / G.blockSize))
        (write
          (contents
            (V.fileBlock G file
              ((offset + count) / G.blockSize)))
          ((offset + count) % G.blockSize) chunk
          (slice source count))) := by
  have hPos := hSane.blockSize_pos
  have hSplit := Nat.div_add_mod (offset + count) G.blockSize
  have hLess := Nat.mod_lt (offset + count) hPos
  have hBegins :
      (offset + count) / G.blockSize * G.blockSize ≤
        offset + count :=
    Nat.div_mul_le_self _ _
  have hEnds :
      offset + count <
        ((offset + count) / G.blockSize + 1) * G.blockSize :=
    Nat.lt_mul_of_div_lt (Nat.lt_succ_self _) hPos
  generalize hIndex :
    (offset + count) / G.blockSize = index at *
  generalize hAfter :
    Function.update contents (V.fileBlock G file index)
      (write (contents (V.fileBlock G file index))
        ((offset + count) % G.blockSize) chunk
        (slice source count)) = after
  have hOther :
      ∀ block, block ≠ V.fileBlock G file index →
        after block = contents block := by
    intro block hBlock
    rw [← hAfter, Function.update_of_ne hBlock]
  have hPointer' :
      ∀ slot,
        (V.withContents after).pointer G file slot =
          V.pointer G file slot := by
    intro slot
    rw [← hPointer]
    apply Volume.pointer_congr fun _ _ => rfl
    exact fun _ =>
      hOther _ (hEditing.fileBlock_ne_indirect hMapped).symm
  constructor
  · intro block hBlock
    rw [hOther block (hBlock index (by omega) (by omega)).symm]
    exact hStored.others block fun place hLow hHigh =>
      hBlock place (by omega) hHigh
  intro i
  have hBefore := hStored.bytes i
  have hPlace := Nat.div_add_mod i G.blockSize
  have hShort := Nat.mod_lt i hPos
  by_cases hHere : i / G.blockSize = index
  · rw [hHere] at hPlace
    have hByte :
        (V.withContents after).fileByte G file i =
          write (contents (V.fileBlock G file index))
            ((offset + count) % G.blockSize) chunk
            (slice source count) (i % G.blockSize) := by
      rw [Volume.fileByte_of_block (hPointer' _)
        (by rw [hHere]; exact hMapped), hHere]
      change after (V.fileBlock G file index) _ = _
      rw [← hAfter]
      exact congrFun (Function.update_self _ _ _) _
    rw [hByte]
    by_cases hIn :
        (offset + count) % G.blockSize ≤ i % G.blockSize ∧
          i % G.blockSize <
            (offset + count) % G.blockSize + chunk
    · rw [write_of_mem hIn.1 hIn.2, slice_apply,
        if_pos (by omega)]
      congr 1
      omega
    · rw [write_of_not_mem (by omega)]
      have hOld :
          (V.withContents contents).fileByte G file i =
            contents (V.fileBlock G file index)
              (i % G.blockSize) := by
        rw [Volume.fileByte_of_block (hPointer _)
          (by rw [hHere]; exact hMapped), hHere]
        rfl
      rw [← hOld, hBefore]
      have hSame :
          (offset ≤ i ∧ i < offset + count) ↔
            (offset ≤ i ∧ i < offset + (count + chunk)) := by
        omega
      simp only [hSame]
  · have hOld :
        (V.withContents after).fileByte G file i =
          (V.withContents contents).fileByte G file i := by
      apply Volume.fileByte_congr
      · exact (hPointer' _).trans (hPointer _).symm
      · intro hSome'
        have hBlock :
            (V.withContents contents).fileBlock G file
                (i / G.blockSize) =
              V.fileBlock G file (i / G.blockSize) :=
          hPointer _
        rw [hBlock] at hSome' ⊢
        have hNe :
            V.fileBlock G file (i / G.blockSize) ≠
              V.fileBlock G file index := fun hSame =>
          hHere (hEditing.fileBlock_injective hSome' hSame)
        exact congrFun (hOther _ hNe) _
    -- The chunk lies in the other block.
    have hSame :
        (offset ≤ i ∧ i < offset + count) ↔
          (offset ≤ i ∧ i < offset + (count + chunk)) := by
      constructor
      · omega
      · rintro ⟨hLow, hHigh⟩
        refine ⟨hLow, ?_⟩
        by_contra hPast
        apply hHere
        apply Nat.div_eq_of_lt_le
        · omega
        · rw [Nat.add_mul, Nat.one_mul]
          rw [Nat.mul_comm] at hSplit
          omega
    rw [hOld, hBefore]
    simp only [hSame]

/- A file block that is mapped is left as it is. -/
theorem Ensured.of_mapped
    {fileBlock : Nat}
    {result : Option Nat × Inode}
    (hMapped : V.fileBlock G file fileBlock ≠ 0)
    (hEnsured : Ensured G V file fileBlock result V') :
    result = (some (V.fileBlock G file fileBlock), file) ∧
      V' = V := by
  cases hEnsured with
  | mapped => exact ⟨rfl, rfl⟩
  | linked count hHole => exact absurd hHole hMapped
  | full hHole => exact absurd hHole hMapped
  | unlinked hHole => exact absurd hHole hMapped

/- One pass of the copy loop of `ext2_write_file`. -/
theorem Holds.ensures_writeChunk
    {stops : Fault → Prop}
    {s : State}
    {written len : Nat}
    (hSane : Sane G)
    (hHolds : Holds G V s)
    (hEditing : Editing G V number file)
    (hMapped :
      V.fileBlock G file ((offset + written) / G.blockSize) ≠
        0)
    (hSmall : offset + len < 2 ^ 32)
    (hMore : written < len) :
    Ensures stops (writeChunk source offset len (written, file))
      s
      fun next final =>
        ∃ chunk, 0 < chunk ∧ written + chunk ≤ len ∧
          chunk ≤
            G.blockSize - (offset + written) % G.blockSize ∧
          next = .inl (written + chunk, file) ∧
          Holds G
            (V.withContents
              (Function.update V.contents
                (V.fileBlock G file
                  ((offset + written) / G.blockSize))
                (write
                  (V.contents
                    (V.fileBlock G file
                      ((offset + written) / G.blockSize)))
                  ((offset + written) % G.blockSize) chunk
                  (slice source written))))
            final := by
  have hPos := hSane.blockSize_pos
  have hLess := Nat.mod_lt (offset + written) hPos
  have hDiv :
      (offset + written) / G.blockSize ≤ offset + written :=
    Nat.div_le_self _ _
  have hWrap :
      wrap 32 ((offset + written) / G.blockSize) =
        (offset + written) / G.blockSize :=
    wrap_of_lt (by omega)
  have hData :
      G.IsData
        (V.fileBlock G file
          ((offset + written) / G.blockSize)) :=
    hEditing.blocksAreData _ hMapped
  unfold writeChunk
  simp only [ensures_bind_iff, ensures_get_iff,
    if_neg (Nat.not_le_of_lt hMore), hHolds.blockSize,
    divide_of_pos hPos, modulo_of_pos hPos, ensures_lift_iff,
    yields_ok_iff, hWrap]
  apply (hHolds.ensures_ensureFileBlock hSane hEditing.metadata
    hEditing.blocksAreData.indirect _).mono
  rintro result middle ⟨V', hHolds', hEnsured⟩
  rcases hEnsured.of_mapped hMapped with ⟨rfl, rfl⟩
  have hRange :
      (offset + written) % G.blockSize +
          min (G.blockSize - (offset + written) % G.blockSize)
            (len - written) ≤
        G.blockSize := by
    omega
  simp only [ensures_bind_iff, ensures_get_iff,
    hHolds'.blockSize,
    hHolds'.blockPtr_data hSane hData hRange, ensures_pure_iff]
  have hStore :=
    @Holds.ensures_storeData G V' middle stops hSane hHolds' _
      hData _ _ 0 _ hRange (Nat.le_of_eq (Nat.zero_add _))
      (slice source written)
  rw [Nat.add_zero] at hStore
  apply hStore.mono
  intro _ final hFinal
  exact
    ⟨min (G.blockSize - (offset + written) % G.blockSize)
        (len - written),
      by omega, by omega, by omega, rfl, hFinal⟩

/- The copy loop of `ext2_write_file` on mapped blocks. -/
theorem Holds.ensures_writeLoop
    {stops : Fault → Prop}
    {s : State}
    {len : Nat}
    (hSane : Sane G)
    (hHolds : Holds G V s)
    (hEditing : Editing G V number file)
    (hIntact : Intact G V file)
    (source : Bytes)
    (hStop : offset + len ≤ file.size) :
    Ensures stops
      (loop (throw .noReturn) (writeChunk source offset len)
        (len + 1) (0, file))
      s
      fun result final =>
        result = some file ∧
          ∃ contents,
            Stored G V file source offset len contents ∧
              Holds G (V.withContents contents) final := by
  have hSmall : offset + len < 2 ^ 32 :=
    Nat.lt_of_le_of_lt hStop file.size_lt
  apply ensures_loop_measure
    (fun state : Nat × Inode => len - state.1)
    fun state final =>
      state.2 = file ∧ state.1 ≤ len ∧
        ∃ contents,
          Stored G V file source offset state.1 contents ∧
            Holds G (V.withContents contents) final
  · rintro ⟨written, copy⟩ state
      ⟨rfl, hLe, contents, hStored, hHolds'⟩
    dsimp only at hLe hStored hHolds'
    by_cases hMore : written < len
    · have hMapped :
          ∀ fileBlock,
            fileBlock * G.blockSize < offset + written →
              offset < (fileBlock + 1) * G.blockSize →
                V.fileBlock G copy fileBlock ≠ 0 :=
        fun _ hLow _ =>
          hIntact.mapped_range (by omega) hLow
      have hNext :
          V.fileBlock G copy
              ((offset + written) / G.blockSize) ≠ 0 :=
        hIntact.mapped_range hStop
          (Nat.lt_of_le_of_lt (Nat.div_mul_le_self _ _)
            (by omega))
      have hPointer := hStored.pointer hEditing hMapped
      have hBlock :
          (V.withContents contents).fileBlock G copy
              ((offset + written) / G.blockSize) =
            V.fileBlock G copy
              ((offset + written) / G.blockSize) :=
        hPointer _
      apply (hHolds'.ensures_writeChunk hSane
        (hStored.editing hEditing hMapped)
        (by rw [hBlock]; exact hNext) hSmall hMore).mono
      rintro next final ⟨chunk, hSome, hRoom, hFits, rfl, hFinal⟩
      rw [hBlock] at hFinal
      exact ⟨by dsimp only; omega, rfl, hRoom, _,
        hStored.extend hSane hEditing hNext hSome hFits
          hPointer,
        hFinal⟩
    · have hDone : written = len := by omega
      subst hDone
      unfold writeChunk
      simp only [ge_iff_le, Nat.le_refl, if_true,
        ensures_pure_iff]
      exact ⟨rfl, contents, hStored, hHolds'⟩
  · dsimp only
    omega
  · exact ⟨rfl, Nat.zero_le len, V.contents, .zero, hHolds⟩

end

end Ext2

end Whirliscope
