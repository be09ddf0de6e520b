import Whirliscope.Fs.Ext2.VolumeAccess

/-
  Marking blocks and inodes as used or free, in terms of the
  volume that the image holds.

  Key definitions include:
    * `adjust`
    * `Volume.markBlock`, `Volume.markInode`

  Main theorems:
    * `Holds.ensures_markBlockUsed`
    * `Holds.ensures_markInodeUsed`
-/

------------------------------------------------------------
-- Counting Up and Down
------------------------------------------------------------

namespace Whirliscope

namespace Ext2

open ByteMemory FaultProgram

/-
  A free count after something was taken or given back: it
  stops at zero on the way down and wraps on the way up.
-/
def adjust
    (bits : Nat)
    (taken : Bool)
    (count : Nat) : Nat :=
  if taken then count - 1 else wrap bits (count + 1)

namespace Holds

variable {G : Geometry} {V : Volume} {s : State}
variable {stops : Fault → Prop}

theorem freeBlocks_lt
    (hHolds : Holds G V s) :
    V.freeBlocks < 2 ^ 32 := by
  rw [← (hHolds.cells .superblock trivial).1]
  exact getLE_lt _ _ _

theorem freeInodes_lt
    (hHolds : Holds G V s) :
    V.freeInodes < 2 ^ 32 := by
  rw [← (hHolds.cells .superblock trivial).2.1]
  exact getLE_lt _ _ _

theorem groupFreeBlocks_lt
    (hHolds : Holds G V s)
    {group : Nat}
    (hGroup : group < G.groupCount) :
    V.groupFreeBlocks group < 2 ^ 16 := by
  rw [← (hHolds.cells (.groupDesc group) hGroup).1]
  exact getLE_lt _ _ _

theorem groupFreeInodes_lt
    (hHolds : Holds G V s)
    {group : Nat}
    (hGroup : group < G.groupCount) :
    V.groupFreeInodes group < 2 ^ 16 := by
  rw [← (hHolds.cells (.groupDesc group) hGroup).2.1]
  exact getLE_lt _ _ _

theorem groupDirs_lt
    (hHolds : Holds G V s)
    {group : Nat}
    (hGroup : group < G.groupCount) :
    V.groupDirs group < 2 ^ 16 := by
  rw [← (hHolds.cells (.groupDesc group) hGroup).2.2.1]
  exact getLE_lt _ _ _

section

variable (W : Nat → Volume) {bits count offset width : Nat}

/-
  Counting in a field, where storing a value into the field
  turns the volume into `W` of the value.
-/
theorem ensures_decrementSuperblockField
    (hCount : superblockField s offset width = .ok count)
    (hLess : count < 2 ^ bits)
    (hSame : Holds G (W count) s)
    (hStore :
      ∀ value,
        Ensures stops
          (setSuperblockField offset width value) s
          fun _ final => Holds G (W (wrap bits value)) final) :
    Ensures stops (decrementSuperblockField offset width) s
      fun _ final => Holds G (W (adjust bits true count)) final := by
  unfold decrementSuperblockField
  rw [ensures_bind_iff, ensures_get_iff, hCount,
    ensures_bind_iff, ensures_lift_iff, yields_ok_iff,
    ensures_ite_iff]
  constructor
  · intro _
    have hNext := hStore (count - 1)
    rw [wrap_of_lt (by omega)] at hNext
    exact hNext
  · intro hZero
    have hEq : count - 1 = count := by omega
    rw [ensures_pure_iff, adjust, if_pos rfl, hEq]
    exact hSame

theorem ensures_incrementSuperblockField
    (hCount : superblockField s offset width = .ok count)
    (hStore :
      ∀ value,
        Ensures stops
          (setSuperblockField offset width value) s
          fun _ final => Holds G (W (wrap bits value)) final) :
    Ensures stops (incrementSuperblockField offset width) s
      fun _ final => Holds G (W (adjust bits false count)) final := by
  unfold incrementSuperblockField
  rw [ensures_bind_iff, ensures_get_iff, hCount,
    ensures_bind_iff, ensures_lift_iff, yields_ok_iff]
  exact hStore (count + 1)

theorem ensures_decrementField
    {pointer : Pointer}
    (hCount : s.load pointer offset width = .ok count)
    (hLess : count < 2 ^ bits)
    (hSame : Holds G (W count) s)
    (hStore :
      ∀ value,
        Ensures stops (storeField pointer offset width value)
          s
          fun _ final => Holds G (W (wrap bits value)) final) :
    Ensures stops (decrementField pointer offset width) s
      fun _ final => Holds G (W (adjust bits true count)) final := by
  unfold decrementField
  rw [ensures_bind_iff, ensures_get_iff, hCount,
    ensures_bind_iff, ensures_lift_iff, yields_ok_iff,
    ensures_ite_iff]
  constructor
  · intro _
    have hNext := hStore (count - 1)
    rw [wrap_of_lt (by omega)] at hNext
    exact hNext
  · intro hZero
    have hEq : count - 1 = count := by omega
    rw [ensures_pure_iff, adjust, if_pos rfl, hEq]
    exact hSame

theorem ensures_incrementField
    {pointer : Pointer}
    (hCount : s.load pointer offset width = .ok count)
    (hStore :
      ∀ value,
        Ensures stops (storeField pointer offset width value)
          s
          fun _ final => Holds G (W (wrap bits value)) final) :
    Ensures stops (incrementField pointer offset width) s
      fun _ final => Holds G (W (adjust bits false count)) final := by
  unfold incrementField
  rw [ensures_bind_iff, ensures_get_iff, hCount,
    ensures_bind_iff, ensures_lift_iff, yields_ok_iff]
  exact hStore (count + 1)

end

end Holds

end Ext2

end Whirliscope

------------------------------------------------------------
-- Marking a Block
------------------------------------------------------------

namespace Whirliscope

namespace Ext2

open ByteMemory FaultProgram

namespace Volume

/- Take a free block, or give a used one back. -/
def markBlock
    (V : Volume)
    (G : Geometry)
    (block : Nat)
    (used : Bool) : Volume :=
  if V.used block = used then
    V
  else
    { V with
      used := Function.update V.used block used
      freeBlocks := adjust 32 used V.freeBlocks
      groupFreeBlocks :=
        Function.update V.groupFreeBlocks
          (G.blockGroup block)
          (adjust 16 used
            (V.groupFreeBlocks (G.blockGroup block))) }

variable {V : Volume} {G : Geometry} {block : Nat}
variable {used : Bool}

@[simp] theorem markBlock_inodeUsed :
    (V.markBlock G block used).inodeUsed = V.inodeUsed := by
  unfold markBlock
  split <;> rfl

@[simp] theorem markBlock_inodes :
    (V.markBlock G block used).inodes = V.inodes := by
  unfold markBlock
  split <;> rfl

@[simp] theorem markBlock_contents :
    (V.markBlock G block used).contents = V.contents := by
  unfold markBlock
  split <;> rfl

@[simp] theorem markBlock_freeInodes :
    (V.markBlock G block used).freeInodes =
      V.freeInodes := by
  unfold markBlock
  split <;> rfl

@[simp] theorem markBlock_groupFreeInodes :
    (V.markBlock G block used).groupFreeInodes =
      V.groupFreeInodes := by
  unfold markBlock
  split <;> rfl

@[simp] theorem markBlock_groupDirs :
    (V.markBlock G block used).groupDirs = V.groupDirs := by
  unfold markBlock
  split <;> rfl

@[simp] theorem markBlock_fixed :
    (V.markBlock G block used).fixed = V.fixed := by
  unfold markBlock
  split <;> rfl

@[simp] theorem markBlock_used :
    (V.markBlock G block used).used =
      Function.update V.used block used := by
  unfold markBlock
  split
  · next hSame => rw [← hSame, Function.update_eq_self]
  · rfl

end Volume

namespace Holds

variable {G : Geometry} {V : Volume} {s : State}
variable {stops : Fault → Prop}

/- Where the driver finds the bit of a block. -/
theorem relative_eq
    (hSane : Sane G)
    {block : Nat}
    (hTracked : G.Tracked block) :
    wrapSub 32 block G.firstDataBlock =
      block - G.firstDataBlock := by
  have hLess := hSane.blocksCount_lt
  exact wrapSub_of_le
    (Nat.lt_trans hTracked.2 hLess) hTracked.1

theorem ensures_markBlockUsed
    (hSane : Sane G)
    (hHolds : Holds G V s)
    {block : Nat}
    (hTracked : G.Tracked block)
    (used : Bool) :
    Ensures stops (markBlockUsed block used) s
      fun marked final =>
        marked = true ∧
          Holds G (V.markBlock G block used) final := by
  have hPos := hSane.blocksPerGroup.1
  have hGroup := hSane.blockGroup_lt hTracked
  have hBit := hSane.hasBlockBit_index hTracked
  have hAt := Sane.blockAt_index hTracked
  have hBelow : ¬ block ≥ G.blocksCount :=
    Nat.not_le_of_lt hTracked.2
  have hDesc :
      groupDesc s
          ((block - G.firstDataBlock) / G.blocksPerGroup) =
        some (G.cellPointer
          (.groupDesc (G.blockGroup block))) := by
    have hEq := hHolds.groupDesc_eq hSane
      (G.blockGroup block)
    rw [if_pos hGroup] at hEq
    exact hEq
  have hOld :
      bitmapGet s
          (G.cellPointer (.blockBitmap (G.blockGroup block)))
          ((block - G.firstDataBlock) % G.blocksPerGroup) =
        .ok (V.used block) := by
    have hEq := hHolds.bitmapGet_block hSane hGroup hBit
    rw [hAt] at hEq
    exact hEq
  unfold markBlockUsed
  rw [ensures_bind_iff, ensures_get_iff]
  simp only [hHolds.blocksCount_eq hSane,
    hHolds.firstDataBlock_eq hSane,
    hHolds.blocksPerGroup_eq hSane, divide_of_pos hPos,
    modulo_of_pos hPos, ensures_bind_iff, ensures_lift_iff,
    yields_ok_iff, if_neg hBelow, relative_eq hSane hTracked,
    hDesc, hHolds.descBlockBitmap_eq hSane hGroup,
    hHolds.blockPtr_blockBitmap hSane hGroup, hOld]
  rw [ensures_ite_iff]
  constructor
  · intro hSame
    rw [ensures_pure_iff, Volume.markBlock, if_pos hSame]
    exact ⟨rfl, hHolds⟩
  intro hChanged
  rw [Volume.markBlock, if_neg hChanged, ensures_bind_iff]
  apply (hHolds.ensures_setBlockBit hSane hGroup hBit
    used).mono
  intro _ s₁ hBits
  rw [hAt] at hBits
  have hSuper := hBits.freeBlocksCount_eq hSane
  cases used with
  | true =>
      simp only [if_true, ensures_bind_iff, ensures_pure_iff,
        true_and]
      apply (ensures_decrementSuperblockField
        (fun count =>
          { V with
            used := Function.update V.used block true
            freeBlocks := count })
        hSuper hBits.freeBlocks_lt hBits
        fun value =>
          hBits.ensures_setFreeBlocks hSane value).mono
      intro _ s₂ hTotal
      apply ensures_decrementField
        (fun count =>
          { V with
            used := Function.update V.used block true
            freeBlocks := adjust 32 true V.freeBlocks
            groupFreeBlocks :=
              Function.update V.groupFreeBlocks
                (G.blockGroup block) count })
        (hTotal.descFreeBlocksCount_eq hSane hGroup)
        (hTotal.groupFreeBlocks_lt hGroup)
      · simp only [Function.update_eq_self]
        exact hTotal
      · intro value
        exact hTotal.ensures_setGroupFreeBlocks hSane hGroup
          value
  | false =>
      simp only [Bool.false_eq_true, if_false,
        ensures_bind_iff, ensures_pure_iff, true_and]
      apply (ensures_incrementSuperblockField
        (fun count =>
          { V with
            used := Function.update V.used block false
            freeBlocks := count })
        hSuper
        fun value =>
          hBits.ensures_setFreeBlocks hSane value).mono
      intro _ s₂ hTotal
      apply ensures_incrementField
        (fun count =>
          { V with
            used := Function.update V.used block false
            freeBlocks := adjust 32 false V.freeBlocks
            groupFreeBlocks :=
              Function.update V.groupFreeBlocks
                (G.blockGroup block) count })
        (hTotal.descFreeBlocksCount_eq hSane hGroup)
      intro value
      exact hTotal.ensures_setGroupFreeBlocks hSane hGroup
        value

end Holds

end Ext2

end Whirliscope

------------------------------------------------------------
-- Marking an Inode
------------------------------------------------------------

namespace Whirliscope

namespace Ext2

open ByteMemory FaultProgram

namespace Volume

/-
  Take a free inode, or give a used one back. Directories are
  counted the other way.
-/
def markInode
    (V : Volume)
    (G : Geometry)
    (number : Nat)
    (used isDir : Bool) : Volume :=
  if V.inodeUsed number = used then
    V
  else
    { V with
      inodeUsed := Function.update V.inodeUsed number used
      freeInodes := adjust 32 used V.freeInodes
      groupFreeInodes :=
        Function.update V.groupFreeInodes
          (G.inodeGroup number)
          (adjust 16 used
            (V.groupFreeInodes (G.inodeGroup number)))
      groupDirs :=
        if isDir then
          Function.update V.groupDirs (G.inodeGroup number)
            (adjust 16 (!used)
              (V.groupDirs (G.inodeGroup number)))
        else
          V.groupDirs }

variable {V : Volume} {G : Geometry} {number : Nat}
variable {used isDir : Bool}

@[simp] theorem markInode_used :
    (V.markInode G number used isDir).used = V.used := by
  unfold markInode
  split <;> rfl

@[simp] theorem markInode_inodes :
    (V.markInode G number used isDir).inodes =
      V.inodes := by
  unfold markInode
  split <;> rfl

@[simp] theorem markInode_contents :
    (V.markInode G number used isDir).contents =
      V.contents := by
  unfold markInode
  split <;> rfl

@[simp] theorem markInode_freeBlocks :
    (V.markInode G number used isDir).freeBlocks =
      V.freeBlocks := by
  unfold markInode
  split <;> rfl

@[simp] theorem markInode_groupFreeBlocks :
    (V.markInode G number used isDir).groupFreeBlocks =
      V.groupFreeBlocks := by
  unfold markInode
  split <;> rfl

@[simp] theorem markInode_fixed :
    (V.markInode G number used isDir).fixed = V.fixed := by
  unfold markInode
  split <;> rfl

@[simp] theorem markInode_inodeUsed :
    (V.markInode G number used isDir).inodeUsed =
      Function.update V.inodeUsed number used := by
  unfold markInode
  split
  · next hSame => rw [← hSame, Function.update_eq_self]
  · rfl

end Volume

namespace Holds

variable {G : Geometry} {V : Volume} {s : State}
variable {stops : Fault → Prop}

theorem ensures_markInodeUsed
    (hSane : Sane G)
    (hHolds : Holds G V s)
    {number : Nat}
    (hInode : G.HasInode number)
    (used isDir : Bool) :
    Ensures stops (markInodeUsed number used isDir) s
      fun marked final =>
        marked = true ∧
          Holds G (V.markInode G number used isDir)
            final := by
  have hPos := hSane.inodesPerGroup.1
  have hGroup := hInode.2.2
  have hBit := hSane.hasInodeBit_index hInode
  have hAt := Sane.inodeAt_index (G := G) hInode.1
  have hZero : ¬ number = 0 := Nat.ne_of_gt hInode.1
  have hBelow : ¬ number > G.inodesCount :=
    Nat.not_lt_of_le hInode.2.1
  have hDesc :
      groupDesc s ((number - 1) / G.inodesPerGroup) =
        some (G.cellPointer
          (.groupDesc (G.inodeGroup number))) := by
    have hEq := hHolds.groupDesc_eq hSane
      (G.inodeGroup number)
    rw [if_pos hGroup] at hEq
    exact hEq
  have hOld :
      bitmapGet s
          (G.cellPointer (.inodeBitmap (G.inodeGroup number)))
          ((number - 1) % G.inodesPerGroup) =
        .ok (V.inodeUsed number) := by
    have hEq := hHolds.bitmapGet_inode hSane hGroup hBit
    rw [hAt] at hEq
    exact hEq
  unfold markInodeUsed
  rw [ensures_bind_iff, ensures_get_iff, if_neg hZero]
  simp only [hHolds.inodesCount_eq hSane,
    hHolds.inodesPerGroup_eq hSane, divide_of_pos hPos,
    modulo_of_pos hPos, ensures_bind_iff, ensures_lift_iff,
    yields_ok_iff, if_neg hBelow, hDesc,
    hHolds.descInodeBitmap_eq hSane hGroup,
    hHolds.blockPtr_inodeBitmap hSane hGroup, hOld]
  rw [ensures_ite_iff]
  constructor
  · intro hSame
    rw [ensures_pure_iff, Volume.markInode, if_pos hSame]
    exact ⟨rfl, hHolds⟩
  intro hChanged
  rw [Volume.markInode, if_neg hChanged, ensures_bind_iff]
  apply (hHolds.ensures_setInodeBit hSane hGroup hBit
    used).mono
  intro _ s₁ hBits
  rw [hAt] at hBits
  have hSuper := hBits.freeInodesCount_eq hSane
  cases used with
  | true =>
      simp only [if_true, ensures_bind_iff]
      apply (ensures_decrementSuperblockField
        (fun count =>
          { V with
            inodeUsed :=
              Function.update V.inodeUsed number true
            freeInodes := count })
        hSuper hBits.freeInodes_lt hBits
        fun value =>
          hBits.ensures_setFreeInodes hSane value).mono
      intro _ s₂ hTotal
      apply (ensures_decrementField
        (fun count =>
          { V with
            inodeUsed :=
              Function.update V.inodeUsed number true
            freeInodes := adjust 32 true V.freeInodes
            groupFreeInodes :=
              Function.update V.groupFreeInodes
                (G.inodeGroup number) count })
        (hTotal.descFreeInodesCount_eq hSane hGroup)
        (hTotal.groupFreeInodes_lt hGroup)
        (by simp only [Function.update_eq_self]
            exact hTotal)
        fun value => hTotal.ensures_setGroupFreeInodes hSane
          hGroup value).mono
      intro _ s₃ hFree
      cases isDir with
      | false =>
          simp only [Bool.false_eq_true, if_false,
            ensures_pure_iff, true_and]
          exact hFree
      | true =>
          simp only [if_true, ensures_bind_iff,
            ensures_pure_iff, true_and]
          apply ensures_incrementField
            (fun count =>
              { V with
                inodeUsed :=
                  Function.update V.inodeUsed number true
                freeInodes := adjust 32 true V.freeInodes
                groupFreeInodes :=
                  Function.update V.groupFreeInodes
                    (G.inodeGroup number)
                    (adjust 16 true
                      (V.groupFreeInodes
                        (G.inodeGroup number)))
                groupDirs :=
                  Function.update V.groupDirs
                    (G.inodeGroup number) count })
            (hFree.descUsedDirsCount_eq hSane hGroup)
          intro value
          exact hFree.ensures_setGroupDirs hSane hGroup value
  | false =>
      simp only [Bool.false_eq_true, if_false,
        ensures_bind_iff]
      apply (ensures_incrementSuperblockField
        (fun count =>
          { V with
            inodeUsed :=
              Function.update V.inodeUsed number false
            freeInodes := count })
        hSuper
        fun value =>
          hBits.ensures_setFreeInodes hSane value).mono
      intro _ s₂ hTotal
      apply (ensures_incrementField
        (fun count =>
          { V with
            inodeUsed :=
              Function.update V.inodeUsed number false
            freeInodes := adjust 32 false V.freeInodes
            groupFreeInodes :=
              Function.update V.groupFreeInodes
                (G.inodeGroup number) count })
        (hTotal.descFreeInodesCount_eq hSane hGroup)
        fun value => hTotal.ensures_setGroupFreeInodes hSane
          hGroup value).mono
      intro _ s₃ hFree
      cases isDir with
      | false =>
          simp only [Bool.false_eq_true, if_false,
            ensures_pure_iff, true_and]
          exact hFree
      | true =>
          simp only [if_true, ensures_bind_iff,
            ensures_pure_iff, true_and]
          apply ensures_decrementField
            (fun count =>
              { V with
                inodeUsed :=
                  Function.update V.inodeUsed number false
                freeInodes := adjust 32 false V.freeInodes
                groupFreeInodes :=
                  Function.update V.groupFreeInodes
                    (G.inodeGroup number)
                    (adjust 16 false
                      (V.groupFreeInodes
                        (G.inodeGroup number)))
                groupDirs :=
                  Function.update V.groupDirs
                    (G.inodeGroup number) count })
            (hFree.descUsedDirsCount_eq hSane hGroup)
            (hFree.groupDirs_lt hGroup)
          · simp only [Function.update_eq_self]
            exact hFree
          · intro value
            exact hFree.ensures_setGroupDirs hSane hGroup
              value

end Holds

end Ext2

end Whirliscope
