import Whirliscope.Fs.Ext2.Operations

/-
  The results of the operations on a file system.

  Every operation returns a count or zero, or one of the
  documented errors. Those that change the image succeed only
  after a sync, which is their last step.

  Key definitions include:
    * `Documented`
    * `Stable`, `Concludes`
-/

------------------------------------------------------------
-- Documented Results
------------------------------------------------------------

namespace Whirliscope

namespace Ext2

open ByteMemory FaultProgram

/- A success value or a `USER_ERR_*` value. -/
def Documented
    (result : Int) : Prop :=
  0 ≤ result ∨ result = userErrAgain ∨
    result = userErrFault ∨ result = userErrInval ∨
    result = userErrNosys

instance
    (result : Int) :
    Decidable (Documented result) :=
  inferInstanceAs (Decidable (_ ∨ _))

theorem documented_inval : Documented userErrInval := by
  decide

theorem documented_fault : Documented userErrFault := by
  decide

theorem documented_ofNat
    (count : Nat) :
    Documented count :=
  .inl (Int.natCast_nonneg count)

end Ext2

end Whirliscope

------------------------------------------------------------
-- Functions That Change the Image
------------------------------------------------------------

namespace Whirliscope

namespace Ext2

open ByteMemory FaultProgram

/-
  A fact that does not depend on the image, and what holds in
  addition after a sync that succeeds.
-/
structure Stable
    (invariant success : State → Prop) : Prop where
  image :
    ∀ s image, invariant s → invariant (s.withImage image)
  sync :
    ∀ s, invariant s →
      Ensures (fun _ => True) ext2Sync s
        fun ok final =>
          invariant final ∧ (ok = true → success final)

namespace Stable

variable {invariant success : State → Prop}

theorem keeps_lift
    {α : Type}
    (computation : Except Fault α) :
    Keeps invariant
      (liftM computation : Ext2M α) :=
  Preserves.of_lift _ (yields_trivial computation)

theorem keeps_stop
    {α : Type} :
    Keeps invariant (throw Fault.noReturn : Ext2M α) :=
  Preserves.of_throw _ trivial

variable (hStable : Stable invariant success)
include hStable

theorem keeps_store
    (pointer : Pointer)
    (offset count : Nat)
    (source : Bytes) :
    Keeps invariant (store pointer offset count source) := by
  intro s hs
  unfold store
  rw [ensures_bind_iff, ensures_get_iff, ensures_ite_iff]
  constructor
  · intro _
    rw [ensures_set_iff]
    exact hStable.image s _ hs
  · intro _
    exact (ensures_throw_iff _ _ _ _).mpr trivial

theorem keeps_storeField
    (pointer : Pointer)
    (offset width value : Nat) :
    Keeps invariant
      (storeField pointer offset width value) :=
  hStable.keeps_store _ _ _ _

theorem keeps_setSuperblockField
    (offset width value : Nat) :
    Keeps invariant
      (setSuperblockField offset width value) := by
  unfold setSuperblockField
  refine (Preserves.of_get _).bind fun s => ?_
  split
  · exact Preserves.of_throw _ trivial
  · exact hStable.keeps_storeField _ _ _ _

theorem keeps_writeInode
    (inodeNumber : Nat)
    (inode : Inode) :
    Keeps invariant (writeInode inodeNumber inode) := by
  unfold writeInode
  refine (Preserves.of_get _).bind fun s => ?_
  refine (keeps_lift _).bind fun location => ?_
  split
  · exact (hStable.keeps_store _ _ _ _).bind fun _ =>
      Preserves.of_pure _ _
  · exact Preserves.of_pure _ _

theorem keeps_decrementSuperblockField
    (offset width : Nat) :
    Keeps invariant
      (decrementSuperblockField offset width) := by
  unfold decrementSuperblockField
  refine (Preserves.of_get _).bind fun s => ?_
  refine (keeps_lift _).bind fun count => ?_
  exact Preserves.ite (hStable.keeps_setSuperblockField _ _ _)
    (Preserves.of_pure _ _)

theorem keeps_incrementSuperblockField
    (offset width : Nat) :
    Keeps invariant
      (incrementSuperblockField offset width) := by
  unfold incrementSuperblockField
  refine (Preserves.of_get _).bind fun s => ?_
  refine (keeps_lift _).bind fun count => ?_
  exact hStable.keeps_setSuperblockField _ _ _

theorem keeps_decrementField
    (pointer : Pointer)
    (offset width : Nat) :
    Keeps invariant
      (decrementField pointer offset width) := by
  unfold decrementField
  refine (Preserves.of_get _).bind fun s => ?_
  refine (keeps_lift _).bind fun count => ?_
  exact Preserves.ite (hStable.keeps_storeField _ _ _ _)
    (Preserves.of_pure _ _)

theorem keeps_incrementField
    (pointer : Pointer)
    (offset width : Nat) :
    Keeps invariant
      (incrementField pointer offset width) := by
  unfold incrementField
  refine (Preserves.of_get _).bind fun s => ?_
  refine (keeps_lift _).bind fun count => ?_
  exact hStable.keeps_storeField _ _ _ _

theorem keeps_bitmapSet
    (bitmap : Pointer)
    (index : Nat)
    (value : Bool) :
    Keeps invariant (bitmapSet bitmap index value) := by
  unfold bitmapSet
  refine (Preserves.of_get _).bind fun s => ?_
  refine (keeps_lift _).bind fun byte => ?_
  exact hStable.keeps_storeField _ _ _ _

theorem keeps_markBlockUsed
    (block : Nat)
    (used : Bool) :
    Keeps invariant (markBlockUsed block used) := by
  unfold markBlockUsed
  refine (Preserves.of_get _).bind fun s => ?_
  refine (keeps_lift _).bind fun blocks => ?_
  refine Preserves.ite (Preserves.of_pure _ _) ?_
  refine (keeps_lift _).bind fun first => ?_
  refine (keeps_lift _).bind fun perGroup => ?_
  refine (keeps_lift _).bind fun group => ?_
  refine (keeps_lift _).bind fun perGroup => ?_
  refine (keeps_lift _).bind fun groupIndex => ?_
  split
  · refine (keeps_lift _).bind fun bitmapBlock => ?_
    split
    · refine (keeps_lift _).bind fun old => ?_
      refine Preserves.ite (Preserves.of_pure _ _) ?_
      refine (hStable.keeps_bitmapSet _ _ _).bind fun _ => ?_
      refine Preserves.ite ?_ ?_
      · refine (hStable.keeps_decrementSuperblockField _
          _).bind fun _ => ?_
        exact (hStable.keeps_decrementField _ _ _).bind
          fun _ => Preserves.of_pure _ _
      · refine (hStable.keeps_incrementSuperblockField _
          _).bind fun _ => ?_
        exact (hStable.keeps_incrementField _ _ _).bind
          fun _ => Preserves.of_pure _ _
    · exact Preserves.of_pure _ _
  · exact Preserves.of_pure _ _

theorem keeps_markInodeUsed
    (inodeNumber : Nat)
    (used isDir : Bool) :
    Keeps invariant (markInodeUsed inodeNumber used isDir) := by
  unfold markInodeUsed
  refine (Preserves.of_get _).bind fun s => ?_
  refine Preserves.ite (Preserves.of_pure _ _) ?_
  refine (keeps_lift _).bind fun inodes => ?_
  refine Preserves.ite (Preserves.of_pure _ _) ?_
  refine (keeps_lift _).bind fun perGroup => ?_
  refine (keeps_lift _).bind fun group => ?_
  refine (keeps_lift _).bind fun perGroup => ?_
  refine (keeps_lift _).bind fun groupIndex => ?_
  split
  · refine (keeps_lift _).bind fun bitmapBlock => ?_
    split
    · refine (keeps_lift _).bind fun old => ?_
      refine Preserves.ite (Preserves.of_pure _ _) ?_
      refine (hStable.keeps_bitmapSet _ _ _).bind fun _ => ?_
      refine Preserves.ite ?_ ?_
      · refine (hStable.keeps_decrementSuperblockField _
          _).bind fun _ => ?_
        refine (hStable.keeps_decrementField _ _ _).bind
          fun _ => ?_
        exact Preserves.ite
          ((hStable.keeps_incrementField _ _ _).bind
            fun _ => Preserves.of_pure _ _)
          (Preserves.of_pure _ _)
      · refine (hStable.keeps_incrementSuperblockField _
          _).bind fun _ => ?_
        refine (hStable.keeps_incrementField _ _ _).bind
          fun _ => ?_
        exact Preserves.ite
          ((hStable.keeps_decrementField _ _ _).bind
            fun _ => Preserves.of_pure _ _)
          (Preserves.of_pure _ _)
    · exact Preserves.of_pure _ _
  · exact Preserves.of_pure _ _

theorem keeps_allocateBlock :
    Keeps invariant allocateBlock := by
  unfold allocateBlock
  refine (Preserves.of_get _).bind fun s => ?_
  refine Preserves.loop keeps_stop (fun group => ?_) _ _
  unfold allocateBlockInGroup
  refine (Preserves.of_get _).bind fun s => ?_
  refine Preserves.ite (Preserves.of_pure _ _) ?_
  split
  · refine (keeps_lift _).bind fun free => ?_
    refine Preserves.ite (Preserves.of_pure _ _) ?_
    refine (keeps_lift _).bind fun bitmapBlock => ?_
    split
    · refine (keeps_lift _).bind fun base => ?_
      refine (keeps_lift _).bind fun limit => ?_
      refine Preserves.bind ?_ fun found => ?_
      · refine Preserves.loop keeps_stop (fun index => ?_) _ _
        unfold allocateBlockAt
        refine Preserves.ite (Preserves.of_pure _ _) ?_
        refine (Preserves.of_get _).bind fun s => ?_
        refine (keeps_lift _).bind fun used => ?_
        refine Preserves.ite (Preserves.of_pure _ _) ?_
        refine (hStable.keeps_markBlockUsed _ _).bind
          fun marked => ?_
        refine Preserves.ite (Preserves.of_pure _ _) ?_
        refine (Preserves.of_get _).bind fun s => ?_
        split
        · exact (hStable.keeps_store _ _ _ _).bind fun _ =>
            Preserves.of_pure _ _
        · exact (hStable.keeps_markBlockUsed _ _).bind
            fun _ => Preserves.of_pure _ _
      · split
        · exact Preserves.of_pure _ _
        · exact Preserves.of_pure _ _
    · exact Preserves.of_pure _ _
  · exact Preserves.of_pure _ _

theorem keeps_allocateInode
    (isDir : Bool) :
    Keeps invariant (allocateInode isDir) := by
  unfold allocateInode
  refine (Preserves.of_get _).bind fun s => ?_
  refine (keeps_lift _).bind fun field => ?_
  refine Preserves.loop keeps_stop (fun inode => ?_) _ _
  unfold allocateInodeAt
  refine (Preserves.of_get _).bind fun s => ?_
  refine (keeps_lift _).bind fun inodes => ?_
  refine Preserves.ite (Preserves.of_pure _ _) ?_
  refine (keeps_lift _).bind fun perGroup => ?_
  refine (keeps_lift _).bind fun group => ?_
  refine (keeps_lift _).bind fun perGroup => ?_
  refine (keeps_lift _).bind fun groupIndex => ?_
  split
  · refine (keeps_lift _).bind fun free => ?_
    refine Preserves.ite (Preserves.of_pure _ _) ?_
    refine (keeps_lift _).bind fun bitmapBlock => ?_
    split
    · refine (keeps_lift _).bind fun used => ?_
      refine Preserves.ite (Preserves.of_pure _ _) ?_
      refine (hStable.keeps_markInodeUsed _ _ _).bind
        fun marked => ?_
      refine Preserves.ite (Preserves.of_pure _ _) ?_
      exact (hStable.keeps_writeInode _ _).bind fun _ =>
        Preserves.of_pure _ _
    · exact Preserves.of_pure _ _
  · exact Preserves.of_pure _ _

/- Both ways to find the indirect block go on like this. -/
theorem keeps_setIndirectEntry
    (inode : Inode)
    (entry blockId : Nat) :
    Keeps invariant
      (if inode.block 12 = 0 then return (false, inode)
      else do
        let s ← get
        let some indirect :=
            blockPtr s (inode.block 12) 0 s.blockSize
          | return (false, inode)
        storeField indirect (4 * entry) 4 blockId
        return (true, inode) : Ext2M (Bool × Inode)) := by
  refine Preserves.ite (Preserves.of_pure _ _) ?_
  refine (Preserves.of_get _).bind fun s => ?_
  split
  · exact (hStable.keeps_storeField _ _ _ _).bind fun _ =>
      Preserves.of_pure _ _
  · exact Preserves.of_pure _ _

theorem keeps_setBlockIdAt
    (inode : Inode)
    (fileBlock blockId : Nat)
    (allocateMetadata : Bool) :
    Keeps invariant
      (setBlockIdAt inode fileBlock blockId
        allocateMetadata) := by
  unfold setBlockIdAt
  refine Preserves.ite (Preserves.of_pure _ _) ?_
  refine (Preserves.of_get _).bind fun s => ?_
  refine Preserves.ite (Preserves.of_pure _ _) ?_
  refine Preserves.ite ?_ ?_
  · refine hStable.keeps_allocateBlock.bind fun block => ?_
    exact (Preserves.of_pure _ _).bind fun inode =>
      hStable.keeps_setIndirectEntry inode _ _
  · exact (Preserves.of_pure _ _).bind fun inode =>
      hStable.keeps_setIndirectEntry inode _ _

theorem keeps_ensureFileBlock
    (inode : Inode)
    (fileBlock : Nat) :
    Keeps invariant (ensureFileBlock inode fileBlock) := by
  unfold ensureFileBlock
  refine (Preserves.of_get _).bind fun s => ?_
  refine (keeps_lift _).bind fun mapped => ?_
  refine Preserves.ite (Preserves.of_pure _ _) ?_
  refine hStable.keeps_allocateBlock.bind fun block => ?_
  refine Preserves.ite (Preserves.of_pure _ _) ?_
  refine (hStable.keeps_setBlockIdAt _ _ _ _).bind
    fun linked => ?_
  refine Preserves.ite ?_ ?_
  · exact (hStable.keeps_markBlockUsed _ _).bind fun _ =>
      Preserves.of_pure _ _
  · refine (Preserves.of_get _).bind fun s => ?_
    exact (keeps_lift _).bind fun inode =>
      Preserves.of_pure _ _

theorem keeps_freeInodeBlocks
    (inode : Inode)
    (keepBlocks : Nat) :
    Keeps invariant (freeInodeBlocks inode keepBlocks) := by
  have hCount :
      ∀ inode : Inode,
        Keeps invariant
          (do
            return (true,
              ← updateInodeBlockCount (← get) inode) :
            Ext2M (Bool × Inode)) := by
    intro inode
    refine (Preserves.of_get _).bind fun s => ?_
    exact (keeps_lift _).bind fun inode =>
      Preserves.of_pure _ _
  unfold freeInodeBlocks
  refine (Preserves.of_get _).bind fun s => ?_
  refine Preserves.ite (Preserves.of_pure _ _) ?_
  refine Preserves.bind ?_ fun inode => ?_
  · refine Preserves.loop keeps_stop (fun state => ?_) _ _
    unfold freeDirectBlock
    refine Preserves.ite (Preserves.of_pure _ _) ?_
    refine Preserves.ite ?_ (Preserves.of_pure _ _)
    exact (hStable.keeps_markBlockUsed _ _).bind fun _ =>
      Preserves.of_pure _ _
  · refine Preserves.ite (hCount inode) ?_
    refine (Preserves.of_get _).bind fun s => ?_
    split
    · refine Preserves.bind ?_ fun _ => ?_
      · refine Preserves.loop keeps_stop (fun index => ?_) _ _
        unfold freeIndirectEntry
        refine (Preserves.of_get _).bind fun s => ?_
        refine Preserves.ite (Preserves.of_pure _ _) ?_
        refine (keeps_lift _).bind fun entry => ?_
        refine Preserves.ite ?_ (Preserves.of_pure _ _)
        refine (hStable.keeps_markBlockUsed _ _).bind
          fun _ => ?_
        exact (hStable.keeps_storeField _ _ _ _).bind
          fun _ => Preserves.of_pure _ _
      · refine Preserves.ite ?_ (hCount inode)
        exact (hStable.keeps_markBlockUsed _ _).bind
          fun _ => hCount _
    · exact Preserves.of_pure _ _

theorem keeps_clearTail
    (inode : Inode)
    (oldSize : Nat) :
    Keeps invariant (clearTail inode oldSize) := by
  unfold clearTail
  refine (Preserves.of_get _).bind fun s => ?_
  refine (keeps_lift _).bind fun fileBlock => ?_
  refine (keeps_lift _).bind fun blockOffset => ?_
  refine (keeps_lift _).bind fun diskBlock => ?_
  dsimp only
  split
  · exact hStable.keeps_store _ _ _ _
  · exact Preserves.of_pure _ _

theorem keeps_resizeInodeData
    (inode : Inode)
    (inodeNumber newSize : Nat) :
    Keeps invariant
      (resizeInodeData inode inodeNumber newSize) := by
  have hWrite :
      ∀ inode : Inode,
        Keeps invariant
          (do
            let inode ← updateInodeBlockCount (← get) inode
            return (← writeInode inodeNumber inode, inode) :
            Ext2M (Bool × Inode)) := by
    intro inode
    refine (Preserves.of_get _).bind fun s => ?_
    refine (keeps_lift _).bind fun inode => ?_
    exact (hStable.keeps_writeInode _ _).bind fun _ =>
      Preserves.of_pure _ _
  -- What follows the change of the blocks, in each case.
  have hFinish :
      ∀ (s : State) (oldSize : Nat) (resized : Bool × Inode),
        Keeps invariant
          (if !resized.1 then return (false, resized.2)
          else
            if newSize > oldSize then do
              if (← modulo oldSize s.blockSize) ≠ 0 then
                clearTail (resized.2.setSize newSize) oldSize
                let inode ←
                  updateInodeBlockCount (← get)
                    (resized.2.setSize newSize)
                return (← writeInode inodeNumber inode, inode)
              else
                let inode ←
                  updateInodeBlockCount (← get)
                    (resized.2.setSize newSize)
                return (← writeInode inodeNumber inode, inode)
            else do
              let inode ←
                updateInodeBlockCount (← get)
                  (resized.2.setSize newSize)
              return (← writeInode inodeNumber inode, inode) :
          Ext2M (Bool × Inode)) := by
    intro s oldSize resized
    refine Preserves.ite (Preserves.of_pure _ _) ?_
    refine Preserves.ite ?_ (hWrite _)
    refine (keeps_lift _).bind fun rest => ?_
    refine Preserves.ite ?_ (hWrite _)
    exact (hStable.keeps_clearTail _ _).bind fun _ => hWrite _
  unfold resizeInodeData
  refine (Preserves.of_get _).bind fun s => ?_
  refine Preserves.ite (Preserves.of_pure _ _) ?_
  refine (keeps_lift _).bind fun oldBlocks => ?_
  refine (keeps_lift _).bind fun newBlocks => ?_
  refine Preserves.ite ?_ (Preserves.ite ?_ ?_)
  · refine Preserves.bind ?_ fun resized => hFinish _ _ _
    refine Preserves.loop keeps_stop (fun state => ?_) _ _
    unfold growBlock
    refine Preserves.ite (Preserves.of_pure _ _) ?_
    refine (hStable.keeps_ensureFileBlock _ _).bind
      fun ensured => ?_
    exact Preserves.ite (Preserves.of_pure _ _)
      (Preserves.of_pure _ _)
  · exact (hStable.keeps_freeInodeBlocks _ _).bind
      fun resized => hFinish _ _ _
  · exact (Preserves.of_pure _ _).bind fun resized =>
      hFinish _ _ _

theorem keeps_storeEntryName
    (block : Pointer)
    (pos : Nat)
    (name : List UInt8)
    (fileType : Nat) :
    Keeps invariant
      (storeEntryName block pos name fileType) := by
  unfold storeEntryName
  refine (hStable.keeps_storeField _ _ _ _).bind fun _ => ?_
  refine (hStable.keeps_storeField _ _ _ _).bind fun _ => ?_
  exact hStable.keeps_store _ _ _ _

theorem keeps_placeEntry
    (block : Pointer)
    (pos inode actual recLen child : Nat)
    (name : List UInt8)
    (fileType : Nat) :
    Keeps invariant
      (placeEntry block pos inode actual recLen child name
        fileType) := by
  unfold placeEntry
  refine Preserves.ite ?_ ?_
  · refine (hStable.keeps_storeField _ _ _ _).bind fun _ => ?_
    refine (hStable.keeps_storeField _ _ _ _).bind fun _ => ?_
    refine (hStable.keeps_storeField _ _ _ _).bind fun _ => ?_
    exact hStable.keeps_storeEntryName _ _ _ _
  · refine (hStable.keeps_storeField _ _ _ _).bind fun _ => ?_
    exact hStable.keeps_storeEntryName _ _ _ _

theorem keeps_addAtRecord
    (block : Pointer)
    (needed child : Nat)
    (name : List UInt8)
    (fileType pos : Nat) :
    Keeps invariant
      (addAtRecord block needed child name fileType pos) := by
  unfold addAtRecord
  refine (Preserves.of_get _).bind fun s => ?_
  refine Preserves.ite (Preserves.of_pure _ _) ?_
  refine (keeps_lift _).bind fun recLen => ?_
  refine Preserves.ite (Preserves.of_pure _ _) ?_
  refine (keeps_lift _).bind fun inode => ?_
  refine (keeps_lift _).bind fun entryLength => ?_
  refine Preserves.ite ?_ (Preserves.of_pure _ _)
  exact (hStable.keeps_placeEntry _ _ _ _ _ _ _ _).bind
    fun _ => Preserves.of_pure _ _

theorem keeps_finishAdd
    (dir : Inode)
    (dirInode size : Nat) :
    Keeps invariant (finishAdd dir dirInode size) := by
  unfold finishAdd
  refine (Preserves.of_get _).bind fun s => ?_
  refine (keeps_lift _).bind fun dir => ?_
  exact (hStable.keeps_writeInode _ _).bind fun _ =>
    Preserves.of_pure _ _

theorem keeps_addDirEntry
    (dir : Inode)
    (dirInode child : Nat)
    (name : List UInt8)
    (fileType : Nat) :
    Keeps invariant
      (addDirEntry dir dirInode child name fileType) := by
  unfold addDirEntry
  refine Preserves.ite (Preserves.of_pure _ _) ?_
  refine (Preserves.of_get _).bind fun s => ?_
  refine (keeps_lift _).bind fun counted => ?_
  refine Preserves.bind ?_ fun placed => ?_
  · refine Preserves.loop keeps_stop (fun state => ?_) _ _
    unfold addInBlock
    refine Preserves.ite (Preserves.of_pure _ _) ?_
    refine (hStable.keeps_ensureFileBlock _ _).bind
      fun ensured => ?_
    rcases ensured with ⟨diskBlock, dir⟩
    dsimp only
    split
    · refine (Preserves.of_get _).bind fun s => ?_
      split
      · refine Preserves.bind ?_ fun placed => ?_
        · exact Preserves.loop keeps_stop
            (fun pos => hStable.keeps_addAtRecord _ _ _ _ _ _)
            _ _
        · split
          · exact (hStable.keeps_finishAdd _ _ _).bind
              fun _ => Preserves.of_pure _ _
          · exact Preserves.of_pure _ _
          · exact Preserves.of_pure _ _
      · exact Preserves.of_pure _ _
    · exact Preserves.of_pure _ _
  · dsimp only
    split
    · exact Preserves.of_pure _ _
    · unfold addInNewBlock
      refine (hStable.keeps_ensureFileBlock _ _).bind
        fun ensured => ?_
      rcases ensured with ⟨diskBlock, dir⟩
      dsimp only
      split
      · refine (Preserves.of_get _).bind fun s => ?_
        split
        · refine (hStable.keeps_store _ _ _ _).bind
            fun _ => ?_
          refine (hStable.keeps_storeField _ _ _ _).bind
            fun _ => ?_
          refine (hStable.keeps_storeField _ _ _ _).bind
            fun _ => ?_
          refine (hStable.keeps_storeEntryName _ _ _ _).bind
            fun _ => ?_
          exact hStable.keeps_finishAdd _ _ _
        · exact Preserves.of_pure _ _
      · exact Preserves.of_pure _ _

theorem keeps_removeDirEntry
    (dir : Inode)
    (dirInode : Nat)
    (name : List UInt8) :
    Keeps invariant (removeDirEntry dir dirInode name) := by
  have hWrite :
      ∀ inode : Nat,
        Keeps invariant
          (do
            if ← writeInode dirInode dir then
              return .inr (some (some inode))
            return .inr (some none) :
            Ext2M ((Nat × Option Nat) ⊕
              Option (Option Nat))) := by
    intro inode
    refine (hStable.keeps_writeInode _ _).bind fun _ => ?_
    exact Preserves.ite (Preserves.of_pure _ _)
      (Preserves.of_pure _ _)
  unfold removeDirEntry
  refine Preserves.ite (Preserves.of_pure _ _) ?_
  refine Preserves.loop keeps_stop (fun offset => ?_) _ _
  unfold removeInBlock
  refine (Preserves.of_get _).bind fun s => ?_
  refine Preserves.ite (Preserves.of_pure _ _) ?_
  refine (keeps_lift _).bind fun fileBlock => ?_
  refine (keeps_lift _).bind fun diskBlock => ?_
  refine Preserves.ite (Preserves.of_pure _ _) ?_
  split
  · refine Preserves.bind ?_ fun removed => ?_
    · refine Preserves.loop keeps_stop (fun state => ?_) _ _
      unfold removeAtRecord
      refine (Preserves.of_get _).bind fun s => ?_
      refine Preserves.ite (Preserves.of_pure _ _) ?_
      refine (keeps_lift _).bind fun recLen => ?_
      refine Preserves.ite (Preserves.of_pure _ _) ?_
      refine (keeps_lift _).bind fun inode => ?_
      refine Preserves.ite (Preserves.of_pure _ _) ?_
      refine (keeps_lift _).bind fun same => ?_
      refine Preserves.ite (Preserves.of_pure _ _) ?_
      split
      · refine (keeps_lift _).bind fun merged => ?_
        exact (hStable.keeps_storeField _ _ _ _).bind
          fun _ => hWrite _
      · exact (hStable.keeps_storeField _ _ _ _).bind
          fun _ => hWrite _
    · split
      · exact Preserves.of_pure _ _
      · exact Preserves.of_pure _ _
  · exact Preserves.of_pure _ _

theorem keeps_writeLoop
    (source : Bytes)
    (offset len : Nat)
    (file : Inode) :
    Keeps invariant
      (loop (throw .noReturn) (writeChunk source offset len)
        (len + 1) (0, file)) := by
  refine Preserves.loop keeps_stop (fun state => ?_) _ _
  unfold writeChunk
  refine Preserves.ite (Preserves.of_pure _ _) ?_
  refine (Preserves.of_get _).bind fun s => ?_
  refine (keeps_lift _).bind fun fileBlock => ?_
  refine (keeps_lift _).bind fun blockOffset => ?_
  refine (hStable.keeps_ensureFileBlock _ _).bind
    fun ensured => ?_
  rcases ensured with ⟨diskBlock, file⟩
  dsimp only
  split
  · refine (Preserves.of_get _).bind fun s => ?_
    split
    · exact (hStable.keeps_store _ _ _ _).bind fun _ =>
        Preserves.of_pure _ _
    · exact Preserves.of_pure _ _
  · exact Preserves.of_pure _ _

theorem keeps_storeDotEntries
    (data : Pointer)
    (blockSize inodeNumber parentInode : Nat) :
    Keeps invariant
      (storeDotEntries data blockSize inodeNumber
        parentInode) := by
  unfold storeDotEntries
  refine (hStable.keeps_store _ _ _ _).bind fun _ => ?_
  refine (hStable.keeps_storeField _ _ _ _).bind fun _ => ?_
  refine (hStable.keeps_storeField _ _ _ _).bind fun _ => ?_
  refine (hStable.keeps_storeEntryName _ _ _ _).bind
    fun _ => ?_
  refine (hStable.keeps_storeField _ _ _ _).bind fun _ => ?_
  refine (hStable.keeps_storeField _ _ _ _).bind fun _ => ?_
  exact hStable.keeps_storeEntryName _ _ _ _

theorem keeps_linkDirectory
    (found : ParentLookup)
    (inodeNumber : Nat)
    (inode : Inode) :
    Keeps invariant
      (linkDirectory found inodeNumber inode) := by
  unfold linkDirectory
  refine (hStable.keeps_writeInode _ _).bind fun _ => ?_
  refine Preserves.ite (Preserves.of_pure _ _) ?_
  refine (hStable.keeps_writeInode _ _).bind fun _ => ?_
  refine Preserves.ite (Preserves.of_pure _ _) ?_
  exact (hStable.keeps_addDirEntry _ _ _ _ _).bind fun _ =>
    Preserves.of_pure _ _

end Stable

end Ext2

end Whirliscope

------------------------------------------------------------
-- Operations That Change the Image
------------------------------------------------------------

namespace Whirliscope

namespace Ext2

open ByteMemory FaultProgram

/-
  An operation returns a documented result, and its success
  comes from a sync.
-/
def Concludes
    (invariant success : State → Prop)
    (program : Ext2M Int) : Prop :=
  ∀ s, invariant s →
    Ensures (fun _ => True) program s
      fun result final =>
        Documented result ∧ invariant final ∧
          (0 ≤ result → success final)

section

variable {invariant success : State → Prop}

theorem concludes_inval :
    Concludes invariant success (return userErrInval) := by
  intro s hs
  rw [ensures_pure_iff]
  exact ⟨documented_inval, hs,
    fun hNever => absurd hNever (by decide)⟩

theorem concludes_fault :
    Concludes invariant success (return userErrFault) := by
  intro s hs
  rw [ensures_pure_iff]
  exact ⟨documented_fault, hs,
    fun hNever => absurd hNever (by decide)⟩

theorem Concludes.after
    {α : Type}
    {first : Ext2M α}
    {next : α → Ext2M Int}
    (hFirst : Keeps invariant first)
    (hNext :
      ∀ value, Concludes invariant success (next value)) :
    Concludes invariant success (first >>= next) := by
  intro s hs
  rw [ensures_bind_iff]
  apply (hFirst s hs).mono
  intro value middle hMiddle
  exact hNext value middle hMiddle

theorem Concludes.ite
    {condition : Prop}
    [Decidable condition]
    {left right : Ext2M Int}
    (hLeft : Concludes invariant success left)
    (hRight : Concludes invariant success right) :
    Concludes invariant success
      (if condition then left else right) := by
  split_ifs
  · exact hLeft
  · exact hRight

theorem Concludes.of_get
    {next : State → Ext2M Int}
    (hNext : ∀ s, Concludes invariant success (next s)) :
    Concludes invariant success (get >>= next) :=
  Concludes.after (Preserves.of_get _) hNext

theorem Concludes.of_lift
    {α : Type}
    {computation : Except Fault α}
    {next : α → Ext2M Int}
    (hNext :
      ∀ value, Concludes invariant success (next value)) :
    Concludes invariant success
      ((liftM computation : Ext2M α) >>= next) :=
  Concludes.after (Stable.keeps_lift computation) hNext

end

namespace Stable

variable {invariant success : State → Prop}
variable (hStable : Stable invariant success)
include hStable

/- The last step: success, or an error of the sync. -/
theorem concludes_sync
    {next : Bool → Ext2M Int}
    {value : Nat}
    (hSynced : next true = return (value : Int))
    (hFailed : next false = return userErrFault) :
    Concludes invariant success (ext2Sync >>= next) := by
  intro s hs
  rw [ensures_bind_iff]
  apply (hStable.sync s hs).mono
  rintro ok final ⟨hFinal, hSuccess⟩
  cases ok with
  | false =>
      rw [hFailed]
      exact concludes_fault final hFinal
  | true =>
      rw [hSynced, ensures_pure_iff]
      exact ⟨documented_ofNat value, hFinal,
        fun _ => hSuccess rfl⟩

theorem concludes_ext2WriteFile
    (path : Option CString)
    (buffer : Option Bytes)
    (len offset : Nat) :
    Concludes invariant success
      (ext2WriteFile path buffer len offset) := by
  unfold ext2WriteFile
  refine Concludes.ite concludes_inval ?_
  refine Concludes.of_get fun _ => ?_
  refine Concludes.of_lift fun found => ?_
  split
  · refine Concludes.ite concludes_inval ?_
    refine Concludes.ite concludes_inval ?_
    -- The rest of the body follows both branches.
    refine Concludes.ite
      (Concludes.after (hStable.keeps_resizeInodeData _ _ _)
        fun resized => ?_)
      (Concludes.after (Preserves.of_pure _ _)
        fun resized => ?_)
    all_goals
      refine Concludes.ite concludes_fault ?_
      refine Concludes.after (hStable.keeps_writeLoop _ _ _ _)
        fun copied => ?_
      split
      · refine Concludes.after (hStable.keeps_writeInode _ _)
          fun written => ?_
        refine Concludes.ite concludes_fault ?_
        exact hStable.concludes_sync rfl rfl
      · exact concludes_fault
  · exact concludes_inval

theorem concludes_ext2TruncateFile
    (path : Option CString)
    (size : Nat) :
    Concludes invariant success
      (ext2TruncateFile path size) := by
  unfold ext2TruncateFile
  refine Concludes.of_get fun _ => ?_
  refine Concludes.of_lift fun found => ?_
  split
  · refine Concludes.ite concludes_inval ?_
    refine Concludes.after (hStable.keeps_resizeInodeData _ _ _)
      fun resized => ?_
    exact Concludes.ite concludes_fault
      (hStable.concludes_sync rfl rfl)
  · exact concludes_inval

theorem concludes_ext2CreateFile
    (path : Option CString) :
    Concludes invariant success (ext2CreateFile path) := by
  unfold ext2CreateFile
  refine Concludes.of_get fun _ => ?_
  refine Concludes.of_lift fun existing => ?_
  refine Concludes.ite concludes_inval ?_
  refine Concludes.of_get fun _ => ?_
  refine Concludes.of_lift fun found => ?_
  split
  · refine Concludes.of_get fun _ => ?_
    refine Concludes.of_lift fun named => ?_
    refine Concludes.ite concludes_inval ?_
    refine Concludes.after (hStable.keeps_allocateInode _)
      fun inodeNumber => ?_
    refine Concludes.ite concludes_fault ?_
    refine Concludes.after (hStable.keeps_writeInode _ _)
      fun written => ?_
    have hAdded :
        ∀ added : Bool,
          Concludes invariant success
            (if !added then do
              let _ ← markInodeUsed inodeNumber false false
              return userErrFault
            else do
              return if ← ext2Sync then 0 else userErrFault) :=
      fun added =>
        Concludes.ite
          (Concludes.after (hStable.keeps_markInodeUsed _ _ _)
            fun _ => concludes_fault)
          (hStable.concludes_sync rfl rfl)
    refine Concludes.ite
      (Concludes.after (hStable.keeps_addDirEntry _ _ _ _ _)
        fun entry => ?_)
      (Concludes.after (Preserves.of_pure _ _)
        fun added => hAdded added)
    exact Concludes.after (Preserves.of_pure _ _)
      fun added => hAdded added
  · exact concludes_inval

theorem concludes_undoMkdir
    (inodeNumber block : Nat) :
    Concludes invariant success
      (undoMkdir inodeNumber block) :=
  Concludes.after (hStable.keeps_markBlockUsed _ _) fun _ =>
    Concludes.after (hStable.keeps_markInodeUsed _ _ _)
      fun _ => concludes_fault

theorem concludes_ext2Mkdir
    (path : Option CString) :
    Concludes invariant success (ext2Mkdir path) := by
  unfold ext2Mkdir
  refine Concludes.of_get fun _ => ?_
  refine Concludes.of_lift fun existing => ?_
  refine Concludes.ite concludes_inval ?_
  refine Concludes.of_get fun _ => ?_
  refine Concludes.of_lift fun found => ?_
  split
  · refine Concludes.after (hStable.keeps_allocateInode _)
      fun inodeNumber => ?_
    refine Concludes.after hStable.keeps_allocateBlock
      fun block => ?_
    refine Concludes.ite ?_ ?_
    · have hBlock :
          Concludes invariant success
            (if block ≠ 0 then do
              let _ ← markBlockUsed block false
              return userErrFault
            else
              return userErrFault) :=
        Concludes.ite
          (Concludes.after (hStable.keeps_markBlockUsed _ _)
            fun _ => concludes_fault)
          concludes_fault
      exact Concludes.ite
        (Concludes.after (hStable.keeps_markInodeUsed _ _ _)
          fun _ => hBlock)
        hBlock
    · refine Concludes.of_get fun s => ?_
      refine Concludes.of_lift fun inode => ?_
      split
      · refine Concludes.after
          (hStable.keeps_storeDotEntries _ _ _ _) fun _ => ?_
        refine Concludes.after
          (hStable.keeps_linkDirectory _ _ _) fun linked => ?_
        exact Concludes.ite (hStable.concludes_undoMkdir _ _)
          (hStable.concludes_sync rfl rfl)
      · exact hStable.concludes_undoMkdir _ _
  · exact concludes_inval

theorem concludes_releaseInode
    (inode : Inode)
    (inodeNumber : Nat)
    (isDir : Bool) :
    Concludes invariant success
      (releaseInode inode inodeNumber isDir) :=
  Concludes.after (hStable.keeps_freeInodeBlocks _ _) fun _ =>
    Concludes.after (hStable.keeps_writeInode _ _) fun _ =>
      Concludes.after (hStable.keeps_markInodeUsed _ _ _)
        fun _ => hStable.concludes_sync rfl rfl

theorem concludes_ext2Unlink
    (path : Option CString) :
    Concludes invariant success (ext2Unlink path) := by
  unfold ext2Unlink
  refine Concludes.of_get fun _ => ?_
  refine Concludes.of_lift fun found => ?_
  split
  · refine Concludes.of_get fun _ => ?_
    refine Concludes.of_lift fun named => ?_
    split
    · refine Concludes.of_get fun _ => ?_
      refine Concludes.of_lift fun inode => ?_
      split
      · refine Concludes.ite concludes_inval ?_
        refine Concludes.after
          (hStable.keeps_removeDirEntry _ _ _)
          fun removed => ?_
        exact Concludes.ite concludes_fault
          (hStable.concludes_releaseInode _ _ _)
      · exact concludes_inval
    · exact concludes_inval
  · exact concludes_inval

theorem concludes_ext2Rmdir
    (path : Option CString) :
    Concludes invariant success (ext2Rmdir path) := by
  unfold ext2Rmdir
  refine Concludes.of_get fun _ => ?_
  refine Concludes.of_lift fun found => ?_
  split
  · refine Concludes.ite concludes_inval ?_
    refine Concludes.of_get fun _ => ?_
    refine Concludes.of_lift fun named => ?_
    split
    · refine Concludes.of_get fun _ => ?_
      refine Concludes.of_lift fun inode => ?_
      split
      · refine Concludes.ite concludes_inval ?_
        refine Concludes.of_get fun _ => ?_
        refine Concludes.of_lift fun empty => ?_
        refine Concludes.ite concludes_inval ?_
        refine Concludes.after
          (hStable.keeps_removeDirEntry _ _ _)
          fun removed => ?_
        refine Concludes.ite concludes_fault ?_
        exact Concludes.ite
          (Concludes.after (hStable.keeps_writeInode _ _)
            fun _ => hStable.concludes_releaseInode _ _ _)
          (hStable.concludes_releaseInode _ _ _)
      · exact concludes_inval
    · exact concludes_inval
  · exact concludes_inval

end Stable

/- The calls that change the image. -/
def Call.changesImage : Call → Bool
| .writeFile _ _ _ _ | .createFile _ | .mkdir _ | .unlink _
| .rmdir _ | .truncateFile _ _ => true
| _ => false

/- A call of an operation reports its result. -/
theorem Concludes.ensures_code
    {invariant success : State → Prop}
    {program : Ext2M Int}
    (hConcludes : Concludes invariant success program)
    {s : State}
    (hs : invariant s) :
    Ensures (fun _ => True)
      (do return Reply.code (← program)) s
      fun reply final =>
        invariant final ∧
          ∀ result, reply = .code result → 0 ≤ result →
            success final := by
  rw [ensures_bind_iff]
  apply (hConcludes s hs).mono
  rintro result final ⟨_, hFinal, hSuccess⟩
  rw [ensures_pure_iff]
  refine ⟨hFinal, ?_⟩
  rintro _ ⟨rfl⟩ hNonneg
  exact hSuccess hNonneg

/- What every call keeps, and what follows its success. -/
theorem Stable.ensures_call
    {invariant success : State → Prop}
    (hStable : Stable invariant success)
    (call : Call)
    {s : State}
    (hs : invariant s) :
    Ensures (fun _ => True) call.run s
      fun reply final =>
        invariant final ∧
          (call.changesImage = true →
            ∀ result, reply = .code result → 0 ≤ result →
              success final) := by
  have hChange :
      ∀ {program : Ext2M Int},
        Concludes invariant success program →
        Ensures (fun _ => True)
          (do return Reply.code (← program)) s
          fun reply final =>
            invariant final ∧
              (call.changesImage = true →
                ∀ result, reply = .code result →
                  0 ≤ result → success final) := by
    intro program hConcludes
    apply (hConcludes.ensures_code hs).mono
    exact fun _ _ hPost => ⟨hPost.1, fun _ => hPost.2⟩
  have hRead :
      ∀ {program : Ext2M Reply}, Keeps invariant program →
        call.changesImage = false →
        Ensures (fun _ => True) program s
          fun reply final =>
            invariant final ∧
              (call.changesImage = true →
                ∀ result, reply = .code result →
                  0 ≤ result → success final) := by
    intro program hKeeps hFalse
    apply (hKeeps s hs).mono
    intro _ final hFinal
    rw [hFalse]
    exact ⟨hFinal, fun hNever =>
      absurd hNever Bool.false_ne_true⟩
  cases call with
  | writeFile path buffer len offset =>
      exact hChange (hStable.concludes_ext2WriteFile _ _ _ _)
  | createFile path =>
      exact hChange (hStable.concludes_ext2CreateFile _)
  | mkdir path => exact hChange (hStable.concludes_ext2Mkdir _)
  | unlink path =>
      exact hChange (hStable.concludes_ext2Unlink _)
  | rmdir path => exact hChange (hStable.concludes_ext2Rmdir _)
  | truncateFile path size =>
      exact hChange (hStable.concludes_ext2TruncateFile _ _)
  | sync =>
      refine hRead (Preserves.bind ?_ fun _ =>
        Preserves.of_pure _ _) rfl
      intro state hState
      exact (hStable.sync state hState).mono fun _ _ h => h.1
  | getStatus | listDir | stat | readFile =>
      refine hRead ?_ rfl
      refine (Preserves.of_get _).bind fun _ => ?_
      exact (Stable.keeps_lift _).bind fun _ =>
        Preserves.of_pure _ _

theorem Stable.keeps_runCalls
    {invariant success : State → Prop}
    (hStable : Stable invariant success)
    (calls : List Call) :
    Keeps invariant (runCalls calls) := by
  induction calls with
  | nil => exact Preserves.of_pure _ _
  | cons call calls ih =>
      refine Preserves.bind ?_ fun reply => ?_
      · intro s hs
        exact (hStable.ensures_call call hs).mono
          fun _ _ hPost => hPost.1
      · exact ih.bind fun _ => Preserves.of_pure _ _

/- The results of an operation, whatever it keeps. -/
theorem Concludes.answers
    {program : Ext2M Int}
    (hConcludes :
      Concludes (fun _ => True) (fun _ => True) program) :
    Answers Documented program := by
  intro s
  apply (hConcludes s trivial).mono
  exact fun _ _ hResult => hResult.1

theorem stable_trivial :
    Stable (fun _ => True) (fun _ => True) where
  image := fun _ _ _ => trivial
  sync := fun s _ =>
    (ensures_trivial ext2Sync s).mono fun _ _ _ =>
      ⟨trivial, fun _ => trivial⟩

end Ext2

end Whirliscope

------------------------------------------------------------
-- Results of Readers
------------------------------------------------------------

namespace Whirliscope

namespace Ext2

open ByteMemory FaultProgram

/- Reading a directory yields what its exits yield. -/
theorem yields_scanDirectory
    {β γ : Type}
    {s : State}
    {dir : Inode}
    {unreadable broken finished : β → γ}
    {visit : View → β → Nat → Except Fault (β ⊕ γ)}
    {post : γ → Prop}
    (hUnreadable : ∀ acc, post (unreadable acc))
    (hBroken : ∀ acc, post (broken acc))
    (hFinished : ∀ acc, post (finished acc))
    (hVisit :
      ∀ view acc pos,
        Yields (fun _ => True) (visit view acc pos)
          (Sum.elim (fun _ => True) post))
    (start : β) :
    Yields (fun _ => True)
      (scanDirectory s dir unreadable broken finished visit
        start) post := by
  unfold scanDirectory
  refine yields_loop (fun _ _ => True) ?_ ?_ trivial
  · exact fun _ _ => Yields.error trivial
  rintro _ ⟨offset, buffer, acc⟩ -
  unfold scanBlocks
  dsimp only
  split_ifs
  · exact Yields.ok (hFinished acc)
  rw [yields_bind_iff]
  apply (yields_trivial _).mono
  rintro ⟨readable, buffer⟩ -
  dsimp only
  split_ifs
  · exact Yields.ok (hUnreadable acc)
  rw [yields_bind_iff]
  have hScanned :
      Yields (fun _ => True)
        (loop (throw .noReturn)
          (scanRecords (bufferView buffer)
            (min (dir.size - offset) s.blockSize) broken
            (visit (bufferView buffer)))
          (min (dir.size - offset) s.blockSize + 1) (0, acc))
        (Sum.elim (fun _ => True) post) := by
    refine yields_loop (fun _ _ => True) ?_ ?_ trivial
    · exact fun _ _ => Yields.error trivial
    rintro _ ⟨pos, acc⟩ -
    unfold scanRecords
    dsimp only
    split_ifs
    · exact Yields.ok trivial
    rw [yields_bind_iff]
    apply (yields_trivial _).mono
    intro recLen _
    split_ifs
    · exact Yields.ok (hBroken acc)
    rw [yields_bind_iff]
    apply (hVisit _ acc pos).mono
    intro result hResult
    cases result with
    | inl next => exact Yields.ok trivial
    | inr value => exact Yields.ok hResult
  apply hScanned.mono
  intro scanned hResult
  cases scanned with
  | inl next => exact Yields.ok trivial
  | inr value => exact Yields.ok hResult

theorem yields_ext2ListDir
    (s : State)
    (path : Option CString)
    (maxEntries : Nat) :
    Yields (fun _ => True) (ext2ListDir s path maxEntries)
      fun result => Documented result.1 := by
  unfold ext2ListDir
  rw [yields_bind_iff]
  apply (yields_trivial _).mono
  intro found _
  split
  · split_ifs
    · exact Yields.ok documented_inval
    · exact Yields.ok documented_inval
    · apply yields_scanDirectory
      · exact fun _ => documented_fault
      · exact fun _ => documented_fault
      · exact fun written => documented_ofNat written.length
      · intro view written pos
        unfold listVisit
        rw [yields_bind_iff]
        apply (yields_trivial _).mono
        intro inode _
        split
        · exact Yields.ok trivial
        rw [yields_bind_iff]
        apply (yields_trivial _).mono
        intro dots _
        split
        · exact Yields.ok trivial
        split
        · exact Yields.ok (documented_ofNat written.length)
        rw [yields_bind_iff]
        apply (yields_trivial _).mono
        exact fun _ _ => Yields.ok trivial
  · exact Yields.ok documented_inval

theorem yields_ext2ReadFile
    (s : State)
    (path : Option CString)
    (buffer : Bytes)
    (len offset : Nat) :
    Yields (fun _ => True)
      (ext2ReadFile s path buffer len offset)
      fun result => Documented result.1 := by
  unfold ext2ReadFile
  rw [yields_bind_iff]
  apply (yields_trivial _).mono
  intro found _
  split
  · split_ifs
    · exact Yields.ok documented_inval
    · exact Yields.ok (documented_ofNat 0)
    · rw [yields_bind_iff]
      apply (yields_trivial _).mono
      rintro ⟨readable, out⟩ -
      refine Yields.ok ?_
      dsimp only
      split_ifs
      · exact documented_ofNat _
      · decide
  · exact Yields.ok documented_inval

end Ext2

end Whirliscope
