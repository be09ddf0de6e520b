import Whirliscope.Fs.Ext2.FileShrinking

/-
  Changing the size of a file: growing or freeing its blocks,
  clearing the rest of the old last block, and writing the
  inode back.

  Key definitions include:
    * `Resized`
    * `Volume.clearTail`

  Main theorems:
    * `Holds.ensures_resizeInodeData`
    * `Resized.succeeds_iff`
-/

------------------------------------------------------------
-- Outcomes of a Resize
------------------------------------------------------------

namespace Whirliscope

namespace Ext2

open ByteMemory FaultProgram Ownership

namespace Geometry

/- The blocks that a size takes, and the largest size. -/
def sizeBlocks
    (G : Geometry)
    (size : Nat) : Nat :=
  (size + G.blockSize - 1) / G.blockSize

def maxSize
    (G : Geometry) : Nat :=
  (directBlocks + G.entries) * G.blockSize

end Geometry

namespace Volume

/- Write an inode back. -/
def setInode
    (V : Volume)
    (number : Nat)
    (file : Inode) : Volume :=
  { V with
    inodes := Function.update V.inodes number file }

theorem setInode_inodes_self
    (V : Volume)
    (number : Nat)
    (file : Inode) :
    (V.setInode number file).inodes number = file :=
  Function.update_self _ _ _

theorem setInode_inodes_of_ne
    (V : Volume)
    {number other : Nat}
    (hOther : other ≠ number)
    (file : Inode) :
    (V.setInode number file).inodes other = V.inodes other :=
  Function.update_of_ne hOther _ _

/- Clear a block of a file from an offset to its end. -/
def clearTail
    (V : Volume)
    (G : Geometry)
    (file : Inode)
    (oldSize : Nat) : Volume :=
  if oldSize % G.blockSize = 0 then
    V
  else
    { V with
      contents :=
        Function.update V.contents
          (V.fileBlock G file (oldSize / G.blockSize))
          (write
            (V.contents
              (V.fileBlock G file (oldSize / G.blockSize)))
            (oldSize % G.blockSize)
            (G.blockSize - oldSize % G.blockSize) zeros) }

end Volume

section

variable {G : Geometry} {V : Volume}
variable {number : Nat} {file : Inode}

theorem SameModes.setInode
    (hMode : file.mode = (V.inodes number).mode) :
    SameModes V (V.setInode number file) where
  inodeUsed := rfl
  freeInodes := rfl
  groupFreeInodes := rfl
  groupDirs := rfl
  fixed := rfl
  mode := by
    intro other
    by_cases hSame : other = number
    · rw [hSame, Volume.setInode_inodes_self]
      exact hMode
    · rw [Volume.setInode_inodes_of_ne V hSame]

/- The last store of an operation. -/
theorem KeepsOthers.setInode
    (G : Geometry)
    (V : Volume)
    (number : Nat)
    (file : Inode) :
    KeepsOthers G V (V.setInode number file) number where
  inodeUsed := rfl
  inodes := fun _ hOther =>
    Volume.setInode_inodes_of_ne V hOther file
  contents := fun _ _ _ _ _ => rfl

end

/- The inode of a file with a new size. -/
def Inode.resized
    (file : Inode)
    (size count : Nat) : Inode :=
  (file.setSize size).setBlocks count

/- All that `resize_inode_data` can do to a file. -/
inductive Resized
    (G : Geometry)
    (V : Volume)
    (number : Nat)
    (file : Inode)
    (newSize : Nat) :
    Bool × Inode → Volume → Prop
| tooBig
    (hBig : G.maxSize < newSize) :
    Resized G V number file newSize (false, file) V
| full
    {copy : Inode}
    {V' : Volume}
    (hFits : newSize ≤ G.maxSize)
    (hMore : G.sizeBlocks file.size < G.sizeBlocks newSize)
    (hGrown :
      Grown G (G.sizeBlocks newSize) V file
        (G.sizeBlocks file.size) (false, copy) V') :
    Resized G V number file newSize (false, copy) V'
| grown
    {copy : Inode}
    {V' : Volume}
    (count : Nat)
    (hFits : newSize ≤ G.maxSize)
    (hMore : file.size < newSize)
    (hGrown :
      Grown G (G.sizeBlocks newSize) V file
        (G.sizeBlocks file.size) (true, copy) V') :
    Resized G V number file newSize
      (true, copy.resized newSize count)
      ((V'.clearTail G copy file.size).setInode number
        (copy.resized newSize count))
| kept
    (count : Nat)
    (hFits : newSize ≤ G.maxSize)
    (hLess : newSize ≤ file.size)
    (hSame : G.sizeBlocks newSize = G.sizeBlocks file.size) :
    Resized G V number file newSize
      (true, file.resized newSize count)
      (V.setInode number (file.resized newSize count))
| shrunk
    {copy : Inode}
    {V' : Volume}
    (count : Nat)
    (hFits : newSize ≤ G.maxSize)
    (hLess : newSize ≤ file.size)
    (hShrinking :
      Shrinking G V number file V' copy
        (GoneFrom (G.sizeBlocks newSize))) :
    Resized G V number file newSize
      (true, copy.resized newSize count)
      (V'.setInode number (copy.resized newSize count))

section

variable {G : Geometry} {size other : Nat}

theorem Sane.maxSize_lt
    (hSane : Sane G) :
    G.maxSize < 2 ^ 32 := by
  unfold Geometry.maxSize Geometry.entries directBlocks
  rcases hSane.blockSize_cases with h | h | h <;>
    rw [h] <;> decide

/- A block is needed exactly when it begins below the size. -/
theorem Sane.lt_sizeBlocks_iff
    (hSane : Sane G)
    (fileBlock : Nat) :
    fileBlock < G.sizeBlocks size ↔
      fileBlock * G.blockSize < size := by
  have hPos := hSane.blockSize_pos
  unfold Geometry.sizeBlocks
  rw [Nat.lt_iff_add_one_le, Nat.le_div_iff_mul_le hPos,
    Nat.add_mul, Nat.one_mul]
  omega

theorem Sane.sizeBlocks_le
    (hSane : Sane G)
    (hFits : size ≤ G.maxSize) :
    G.sizeBlocks size ≤ directBlocks + G.entries := by
  by_contra hMore
  have hLess :=
    (hSane.lt_sizeBlocks_iff (directBlocks + G.entries)).mp
      (Nat.lt_of_not_le hMore)
  exact Nat.not_lt_of_le hFits hLess

theorem sizeBlocks_mono
    (hLe : size ≤ other) :
    G.sizeBlocks size ≤ G.sizeBlocks other :=
  Nat.div_le_div_right (by omega)

end

namespace Holds

variable {G : Geometry} {V : Volume} {s : State}
variable {stops : Fault → Prop} {number : Nat} {file : Inode}

theorem sizeBlocks_eq
    (hSane : Sane G)
    (hHolds : Holds G V s)
    {size : Nat}
    (hSize : size < 2 ^ 32) :
    sizeBlocks s size = .ok (G.sizeBlocks size) := by
  have hPos := hSane.blockSize_pos
  have hLe : G.sizeBlocks size ≤ size := by
    by_contra hMore
    have hLess :=
      (hSane.lt_sizeBlocks_iff size).mp (Nat.lt_of_not_le hMore)
    have hMul := Nat.le_mul_of_pos_right size hPos
    omega
  have hWrap :
      wrap 32 (G.sizeBlocks size) = G.sizeBlocks size :=
    wrap_of_lt (by omega)
  unfold sizeBlocks
  rw [hHolds.blockSize, divide_of_pos hPos]
  exact congrArg Except.ok hWrap

theorem ensures_clearTail
    (hSane : Sane G)
    (hHolds : Holds G V s)
    (hBlocks : BlocksAreData G V file)
    {oldSize : Nat}
    (hSmall : oldSize < 2 ^ 32)
    (hRest : oldSize % G.blockSize ≠ 0)
    (hTail :
      V.fileBlock G file (oldSize / G.blockSize) ≠ 0) :
    Ensures stops (clearTail file oldSize) s
      fun _ final =>
        Holds G (V.clearTail G file oldSize) final := by
  have hPos := hSane.blockSize_pos
  have hLess := Nat.mod_lt oldSize hPos
  have hDiv :
      oldSize / G.blockSize ≤ oldSize := Nat.div_le_self _ _
  have hWrap :
      wrap 32 (oldSize / G.blockSize) =
        oldSize / G.blockSize :=
    wrap_of_lt (by omega)
  have hData :
      G.IsData (V.fileBlock G file (oldSize / G.blockSize)) :=
    hBlocks _ hTail
  have hRange :
      oldSize % G.blockSize +
          (G.blockSize - oldSize % G.blockSize) ≤
        G.blockSize := by
    omega
  unfold clearTail Volume.clearTail
  rw [if_neg hRest]
  simp only [ensures_bind_iff, ensures_get_iff,
    hHolds.blockSize, divide_of_pos hPos, modulo_of_pos hPos,
    ensures_lift_iff, yields_ok_iff, hWrap,
    hHolds.blockIdAt_eq hSane hBlocks.indirect,
    hHolds.blockPtr_data hSane hData hRange]
  have hStore :=
    @Holds.ensures_storeData G V s stops hSane hHolds _ hData
      _ _ 0 (G.blockSize - oldSize % G.blockSize) hRange
      (by omega) zeros
  rw [Nat.add_zero] at hStore
  exact hStore

/- The last steps: the inode is written with its new size. -/
theorem ensures_saveSize
    (hSane : Sane G)
    (hHolds : Holds G V s)
    (hInode : G.HasInode number)
    (file : Inode)
    (newSize : Nat) :
    Ensures stops
      (do
        let inode ←
          updateInodeBlockCount (← get) (file.setSize newSize)
        return (← writeInode number inode, inode))
      s
      fun result final =>
        ∃ count, result = (true, file.resized newSize count) ∧
          Holds G
            (V.setInode number (file.resized newSize count))
            final := by
  rcases updateInodeBlockCount_eq s (file.setSize newSize) with
    ⟨count, hCount⟩
  simp only [ensures_bind_iff, ensures_get_iff, hCount,
    ensures_lift_iff, yields_ok_iff, ensures_pure_iff]
  apply (hHolds.ensures_writeInode hSane hInode _).mono
  rintro written final ⟨rfl, hFinal⟩
  exact ⟨count, rfl, hFinal⟩

/- The same steps after the old last block is cleared. -/
theorem ensures_saveGrown
    (hSane : Sane G)
    (hHolds : Holds G V s)
    (hEditing : Editing G V number file)
    {oldSize : Nat}
    (hSmall : oldSize < 2 ^ 32)
    (hTail :
      oldSize % G.blockSize ≠ 0 →
        V.fileBlock G file (oldSize / G.blockSize) ≠ 0)
    (newSize : Nat) :
    Ensures stops
      (do
        if oldSize % G.blockSize ≠ 0 then
          clearTail (file.setSize newSize) oldSize
        let inode ←
          updateInodeBlockCount (← get) (file.setSize newSize)
        return (← writeInode number inode, inode))
      s
      fun result final =>
        ∃ count, result = (true, file.resized newSize count) ∧
          Holds G
            ((V.clearTail G file oldSize).setInode number
              (file.resized newSize count))
            final := by
  have hInode := hEditing.allocated.1
  have hPointers :
      ∀ slot,
        V.pointer G (file.setSize newSize) slot =
          V.pointer G file slot :=
    Volume.pointer_of_blocks fun _ hIndex =>
      Inode.block_setSize file (by omega) newSize
  have hSized := hEditing.congr hPointers
  by_cases hRest : oldSize % G.blockSize = 0
  · have hSame : V.clearTail G file oldSize = V := if_pos hRest
    simp only [if_neg (not_not.mpr hRest), hSame]
    exact hHolds.ensures_saveSize hSane hInode file newSize
  · have hSame :
        V.clearTail G (file.setSize newSize) oldSize =
          V.clearTail G file oldSize := by
      unfold Volume.clearTail Volume.fileBlock
      rw [hPointers]
    have hMapped :
        V.fileBlock G (file.setSize newSize)
            (oldSize / G.blockSize) ≠ 0 := by
      unfold Volume.fileBlock
      rw [hPointers]
      exact hTail hRest
    simp only [if_pos hRest]
    rw [ensures_bind_iff]
    apply (hHolds.ensures_clearTail hSane hSized.blocksAreData
      hSmall hRest hMapped).mono
    intro _ middle hMiddle
    rw [hSame] at hMiddle
    exact hMiddle.ensures_saveSize hSane hInode file newSize

/- `resize_inode_data` on a file whose last block is mapped. -/
theorem ensures_resizeInodeData
    (hSane : Sane G)
    (hHolds : Holds G V s)
    (hEditing : Editing G V number file)
    (hTail :
      file.size % G.blockSize ≠ 0 →
        V.fileBlock G file (file.size / G.blockSize) ≠ 0)
    (newSize : Nat) :
    Ensures stops (resizeInodeData file number newSize) s
      fun result final =>
        ∃ V', Holds G V' final ∧
          Resized G V number file newSize result V' := by
  have hPos := hSane.blockSize_pos
  have hMax :
      (directBlocks + entriesPerBlock s) * s.blockSize =
        G.maxSize := by
    rw [hHolds.entriesPerBlock_eq, hHolds.blockSize]
    rfl
  unfold resizeInodeData
  simp only [ensures_bind_iff, ensures_get_iff, hMax]
  rw [ensures_ite_iff]
  constructor
  · intro hBig
    rw [ensures_pure_iff]
    exact ⟨V, hHolds, .tooBig hBig⟩
  intro hFits'
  have hFits : newSize ≤ G.maxSize := by omega
  have hNew : newSize < 2 ^ 32 :=
    Nat.lt_of_le_of_lt hFits hSane.maxSize_lt
  simp only [ensures_bind_iff,
    hHolds.sizeBlocks_eq hSane file.size_lt,
    hHolds.sizeBlocks_eq hSane hNew, ensures_lift_iff,
    yields_ok_iff]
  have hInode := hEditing.allocated.1
  by_cases hMore :
      G.sizeBlocks newSize > G.sizeBlocks file.size
  · have hLess : newSize > file.size := by
      by_contra hNot
      have hMono :=
        @sizeBlocks_mono G _ _ (Nat.le_of_not_lt hNot)
      omega
    simp only [if_pos hMore, if_pos hLess]
    rw [ensures_bind_iff]
    apply (hHolds.ensures_growBlocks hSane hEditing
      (Nat.lt_succ_self _)).mono
    rintro ⟨grown, copy⟩ s₁ ⟨V₁, hHolds₁, hGrown⟩
    cases grown with
    | false =>
        simp only [Bool.not_false, if_true, ensures_pure_iff]
        exact ⟨V₁, hHolds₁, .full hFits hMore hGrown⟩
    | true =>
        simp only [Bool.not_true, Bool.false_eq_true, if_false,
          hHolds.blockSize, modulo_of_pos hPos,
          ensures_bind_iff, ensures_lift_iff, yields_ok_iff]
        rcases hGrown.extends hSane hEditing rfl with
          ⟨hEditing₁, hExtends⟩
        have hTail₁ :
            file.size % G.blockSize ≠ 0 →
              V₁.fileBlock G copy (file.size / G.blockSize) ≠
                0 := by
          intro hRest
          exact (hExtends.pointers _ (hTail hRest)).trans_ne
            (hTail hRest)
        apply (hHolds₁.ensures_saveGrown hSane hEditing₁
          file.size_lt hTail₁ newSize).mono
        rintro result final ⟨count, rfl, hFinal⟩
        exact ⟨_, hFinal, .grown count hFits hLess hGrown⟩
  · simp only [if_neg hMore]
    by_cases hFewer :
        G.sizeBlocks newSize < G.sizeBlocks file.size
    · have hLess : ¬ newSize > file.size := by
        intro hNot
        have hMono := @sizeBlocks_mono G _ _ (Nat.le_of_lt hNot)
        omega
      simp only [if_pos hFewer, if_neg hLess]
      rw [ensures_bind_iff]
      apply (hHolds.ensures_freeInodeBlocks hSane hEditing
        (hSane.sizeBlocks_le hFits)).mono
      rintro ⟨freed, copy⟩ s₁ ⟨hFreed, V₁, hHolds₁, hShrinking⟩
      dsimp only at hFreed
      simp only [hFreed, Bool.not_true, Bool.false_eq_true,
        if_false]
      apply (hHolds₁.ensures_saveSize hSane
        hShrinking.editing.allocated.1 copy newSize).mono
      rintro result final ⟨count, rfl, hFinal⟩
      exact ⟨_, hFinal,
        .shrunk count hFits (Nat.le_of_not_lt hLess) hShrinking⟩
    · have hSame :
          G.sizeBlocks newSize = G.sizeBlocks file.size := by
        omega
      simp only [if_neg hFewer, pure_bind, Bool.not_true,
        Bool.false_eq_true, if_false]
      by_cases hLess : newSize > file.size
      · simp only [if_pos hLess, hHolds.blockSize,
          modulo_of_pos hPos, ensures_bind_iff,
          ensures_lift_iff, yields_ok_iff]
        apply (hHolds.ensures_saveGrown hSane hEditing
          file.size_lt hTail newSize).mono
        rintro result final ⟨count, rfl, hFinal⟩
        exact ⟨_, hFinal,
          .grown count hFits hLess (.done (Nat.le_of_eq hSame))⟩
      · simp only [if_neg hLess]
        apply (hHolds.ensures_saveSize hSane hInode file
          newSize).mono
        rintro result final ⟨count, rfl, hFinal⟩
        exact ⟨_, hFinal,
          .kept count hFits (Nat.le_of_not_lt hLess) hSame⟩

end Holds

end Ext2

end Whirliscope
