import Whirliscope.Fs.Ext2.FileBlocks

/-
  Mapping a block of a file: everything that one call can do
  to the volume and to the caller's copy of the inode.

  Key definitions include:
    * `Editing`
    * `Ensured`

  Main theorems:
    * `Holds.ensures_ensureFileBlock`
    * `Ensured.editing`
-/

------------------------------------------------------------
-- Editing a File
------------------------------------------------------------

namespace Whirliscope

namespace Ext2

open ByteMemory FaultProgram Ownership

/- The pointers once a copy of an inode is written back. -/
def Volume.refsWith
    (V : Volume)
    (G : Geometry)
    (number : Nat)
    (file : Inode) : Nat × Slot → Nat :=
  V.refs G (Function.update V.inodes number file)

/-
  An operation edits an allocated inode in a copy. No block
  has two owners once the copy is written back.
-/
structure Editing
    (G : Geometry)
    (V : Volume)
    (number : Nat)
    (file : Inode) : Prop where
  allocated : Allocated G V number
  metadata : MetadataUsed G V
  separates :
    Separates G.IsData 0 V.used (V.refsWith G number file)

namespace Volume

/- Store a pointer into an indirect block. -/
def setEntry
    (V : Volume)
    (indirect index block : Nat) : Volume :=
  { V with
    contents :=
      Function.update V.contents indirect
        (putLE (V.contents indirect) (4 * index) 4 block) }

end Volume

section

variable {G : Geometry} {V : Volume} {number : Nat}
variable {file : Inode}

theorem Volume.refsWith_self
    (hAllocated : Allocated G V number)
    (slot : Slot) :
    V.refsWith G number file (number, slot) =
      V.pointer G file slot := by
  unfold refsWith refs
  rw [if_pos hAllocated, Function.update_self]

theorem Volume.refsWith_of_ne
    {other : Nat}
    (hNe : other ≠ number)
    (slot : Slot) :
    V.refsWith G number file (other, slot) =
      V.refs G V.inodes (other, slot) := by
  unfold refsWith refs
  rw [Function.update_of_ne hNe]

theorem Volume.refsWith_inodes
    (V : Volume)
    (G : Geometry)
    (number : Nat) :
    V.refsWith G number (V.inodes number) =
      V.refs G V.inodes := by
  unfold refsWith
  rw [Function.update_eq_self]

theorem Editing.blocksAreData
    (hEditing : Editing G V number file) :
    BlocksAreData G V file := by
  intro slot hSome
  rw [← Volume.refsWith_self hEditing.allocated] at hSome ⊢
  exact hEditing.separates.owned _ hSome

/- The blocks of the file are in use. -/
theorem Editing.used
    (hEditing : Editing G V number file)
    {slot : Slot}
    (hSome : V.pointer G file slot ≠ 0) :
    V.used (V.pointer G file slot) = true := by
  rw [← Volume.refsWith_self hEditing.allocated] at hSome ⊢
  exact hEditing.separates.inUse _ hSome

theorem Editing.pointer_injective
    (hEditing : Editing G V number file)
    {slot other : Slot}
    (hSome : V.pointer G file slot ≠ 0)
    (hSame :
      V.pointer G file slot = V.pointer G file other) :
    slot = other := by
  have hAllocated := hEditing.allocated
  rw [← Volume.refsWith_self hAllocated] at hSome
  rw [← Volume.refsWith_self hAllocated,
    ← Volume.refsWith_self hAllocated] at hSame
  exact congrArg Prod.snd
    (hEditing.separates.unique _ _ hSome hSame)

/- The volume of an operation that begins with a copy. -/
theorem WellOwned.editing
    (hWell : WellOwned G V)
    (hAllocated : Allocated G V number) :
    Editing G V number (V.inodes number) where
  allocated := hAllocated
  metadata := hWell.metadata
  separates := by
    rw [Volume.refsWith_inodes]
    exact hWell.owned.toSeparates

theorem MetadataUsed.takeBlock
    (hMetadata : MetadataUsed G V)
    (block : Nat) :
    MetadataUsed G (V.takeBlock G block) := by
  intro other hTracked hMeta
  change (V.markBlock G block true).used other = true
  rw [Volume.markBlock_used]
  by_cases hSame : other = block
  · rw [hSame, Function.update_self]
  · rw [Function.update_of_ne hSame]
    exact hMetadata other hTracked hMeta

end

/-
  All that `set_block_id_at` can do when it may allocate: the
  pointer goes into the inode, into its indirect block or into
  a new indirect block, or there is no such pointer or no
  indirect block for it.
-/
inductive Linked
    (G : Geometry)
    (V : Volume)
    (file : Inode)
    (fileBlock block : Nat) :
    Bool × Inode → Volume → Prop
| direct
    (hDirect : fileBlock < directBlocks) :
    Linked G V file fileBlock block
      (true, file.setBlock fileBlock block) V
| entry
    (hFar : directBlocks ≤ fileBlock)
    (hEntry : fileBlock - directBlocks < G.entries)
    (hSome : file.block 12 ≠ 0) :
    Linked G V file fileBlock block (true, file)
      (V.setEntry (file.block 12)
        (fileBlock - directBlocks) block)
| indirect
    {indirect : Nat}
    (hFar : directBlocks ≤ fileBlock)
    (hEntry : fileBlock - directBlocks < G.entries)
    (hNone : file.block 12 = 0)
    (hFresh : Fresh G V indirect) :
    Linked G V file fileBlock block
      (true, file.setBlock 12 indirect)
      ((V.takeBlock G indirect).setEntry indirect
        (fileBlock - directBlocks) block)
| full
    {copy : Inode}
    (hFar : directBlocks ≤ fileBlock)
    (hEntry : fileBlock - directBlocks < G.entries)
    (hNone : file.block 12 = 0)
    (hFull : Exhausted G V) :
    Linked G V file fileBlock block (false, copy) V
| tooFar
    (hFar : directBlocks ≤ fileBlock)
    (hEntry : G.entries ≤ fileBlock - directBlocks) :
    Linked G V file fileBlock block (false, file) V

/-
  All that `ensure_file_block` can do: the block is mapped
  already, it is taken and linked, nothing is free, or the
  block that was taken cannot be linked.
-/
inductive Ensured
    (G : Geometry)
    (V : Volume)
    (file : Inode)
    (fileBlock : Nat) :
    Option Nat × Inode → Volume → Prop
| mapped
    (hMapped : V.fileBlock G file fileBlock ≠ 0) :
    Ensured G V file fileBlock
      (some (V.fileBlock G file fileBlock), file) V
| linked
    {block : Nat}
    {copy : Inode}
    {V' : Volume}
    (count : Nat)
    (hHole : V.fileBlock G file fileBlock = 0)
    (hFresh : Fresh G V block)
    (hLinked :
      Linked G (V.takeBlock G block) file fileBlock block
        (true, copy) V') :
    Ensured G V file fileBlock
      (some block, copy.setBlocks count) V'
| full
    (hHole : V.fileBlock G file fileBlock = 0)
    (hFull : Exhausted G V) :
    Ensured G V file fileBlock (none, file) V
| unlinked
    {block : Nat}
    {copy : Inode}
    {V' : Volume}
    (hHole : V.fileBlock G file fileBlock = 0)
    (hFresh : Fresh G V block)
    (hLinked :
      Linked G (V.takeBlock G block) file fileBlock block
        (false, copy) V') :
    Ensured G V file fileBlock (none, copy)
      (V'.markBlock G block false)

namespace Holds

variable {G : Geometry} {V : Volume} {s : State}
variable {stops : Fault → Prop} {number : Nat} {file : Inode}

/- Store a pointer into an indirect block of the volume. -/
theorem ensures_setEntry
    (hSane : Sane G)
    (hHolds : Holds G V s)
    {indirect index : Nat}
    (hData : G.IsData indirect)
    (hIndex : index < G.entries)
    (block : Nat) :
    Ensures stops
      (storeField
        { address := indirect * G.blockSize + 0
          extent := G.blockSize }
        (4 * index) 4 block)
      s
      fun _ final =>
        Holds G (V.setEntry indirect index block) final := by
  unfold Geometry.entries at hIndex
  apply (hHolds.ensures_storeData hSane hData
    (Nat.le_of_eq (Nat.zero_add G.blockSize))
    (by omega : 4 * index + 4 ≤ G.blockSize)
    (bytesLE block)).mono
  intro _ final hFinal
  rw [Nat.zero_add] at hFinal
  exact hFinal

theorem ensures_setBlockIdAt
    (hSane : Sane G)
    (hHolds : Holds G V s)
    (hMetadata : MetadataUsed G V)
    (hIndirect : IndirectIsData G file)
    (fileBlock block : Nat) :
    Ensures stops (setBlockIdAt file fileBlock block true) s
      fun result final =>
        ∃ V', Holds G V' final ∧
          Linked G V file fileBlock block result V' := by
  unfold setBlockIdAt
  rw [ensures_ite_iff]
  constructor
  · intro hDirect
    rw [ensures_pure_iff]
    exact ⟨V, hHolds, .direct hDirect⟩
  intro hNotDirect
  have hFar : directBlocks ≤ fileBlock := by omega
  simp only [ensures_bind_iff, ensures_get_iff,
    hHolds.entriesPerBlock_eq]
  rw [ensures_ite_iff]
  constructor
  · intro hTooFar
    rw [ensures_pure_iff]
    exact ⟨V, hHolds, .tooFar hFar hTooFar⟩
  intro hNear
  have hEntry : fileBlock - directBlocks < G.entries := by
    omega
  rw [ensures_ite_iff]
  constructor
  · rintro ⟨hNone, -⟩
    rw [ensures_bind_iff]
    apply (hHolds.ensures_allocateBlock hSane hMetadata).mono
    rintro indirect s₁ (⟨rfl, rfl, hFull⟩ | ⟨hFresh, hTaken⟩)
    · rw [pure_bind,
        if_pos (Inode.block_setBlock_same file (by decide)
          (by decide)),
        ensures_pure_iff]
      exact ⟨V, hHolds, .full hFar hEntry hNone hFull⟩
    · have hData := hFresh.1
      have hLess :=
        Nat.lt_trans hData.1.2 hSane.blocksCount_lt
      have hBlock :
          (file.setBlock 12 indirect).block 12 = indirect :=
        Inode.block_setBlock_same file (by decide) hLess
      have hSome : ¬ indirect = 0 :=
        Nat.ne_of_gt (hSane.pos_of_isData hData)
      simp only [pure_bind, hBlock, if_neg hSome,
        ensures_bind_iff, ensures_get_iff, hTaken.blockSize,
        hTaken.blockPtr_data hSane hData
          (Nat.le_of_eq (Nat.zero_add G.blockSize)),
        ensures_pure_iff]
      apply (hTaken.ensures_setEntry hSane hData hEntry
        block).mono
      intro _ final hFinal
      exact ⟨_, hFinal, .indirect hFar hEntry hNone hFresh⟩
  · intro hSome
    have hSome' : file.block 12 ≠ 0 := by simpa using hSome
    have hData := hIndirect hSome'
    simp only [pure_bind, if_neg hSome', ensures_bind_iff,
      ensures_get_iff, hHolds.blockSize,
      hHolds.blockPtr_data hSane hData
        (Nat.le_of_eq (Nat.zero_add G.blockSize)),
      ensures_pure_iff]
    apply (hHolds.ensures_setEntry hSane hData hEntry
      block).mono
    intro _ final hFinal
    exact ⟨_, hFinal, .entry hFar hEntry hSome'⟩

theorem ensures_ensureFileBlock
    (hSane : Sane G)
    (hHolds : Holds G V s)
    (hMetadata : MetadataUsed G V)
    (hIndirect : IndirectIsData G file)
    (fileBlock : Nat) :
    Ensures stops (ensureFileBlock file fileBlock) s
      fun result final =>
        ∃ V', Holds G V' final ∧
          Ensured G V file fileBlock result V' := by
  unfold ensureFileBlock
  simp only [ensures_bind_iff, ensures_get_iff,
    hHolds.blockIdAt_eq hSane hIndirect, ensures_lift_iff,
    yields_ok_iff]
  rw [ensures_ite_iff]
  constructor
  · intro hMapped
    rw [ensures_pure_iff]
    exact ⟨V, hHolds, .mapped hMapped⟩
  intro hHole'
  have hHole : V.fileBlock G file fileBlock = 0 := by
    simpa using hHole'
  rw [ensures_bind_iff]
  apply (hHolds.ensures_allocateBlock hSane hMetadata).mono
  rintro block s₁ (⟨rfl, rfl, hFull⟩ | ⟨hFresh, hTaken⟩)
  · rw [if_pos rfl, ensures_pure_iff]
    exact ⟨V, hHolds, .full hHole hFull⟩
  have hSome : ¬ block = 0 :=
    Nat.ne_of_gt (hSane.pos_of_isData hFresh.1)
  rw [if_neg hSome, ensures_bind_iff]
  apply (hTaken.ensures_setBlockIdAt hSane
    (hMetadata.takeBlock block) hIndirect fileBlock
    block).mono
  rintro ⟨linked, copy⟩ s₂ ⟨V', hHolds', hLinked⟩
  cases linked with
  | false =>
      simp only [Bool.not_false, if_true, ensures_bind_iff,
        ensures_pure_iff]
      apply (hHolds'.ensures_markBlockUsed hSane hFresh.1.1
        false).mono
      rintro marked final ⟨-, hFinal⟩
      exact ⟨_, hFinal, .unlinked hHole hFresh hLinked⟩
  | true =>
      rcases updateInodeBlockCount_eq s₂ copy with
        ⟨count, hCount⟩
      simp only [Bool.not_true, Bool.false_eq_true, if_false,
        ensures_bind_iff, ensures_get_iff, hCount,
        ensures_lift_iff, yields_ok_iff, ensures_pure_iff]
      exact ⟨V', hHolds', .linked count hHole hFresh hLinked⟩

end Holds

end Ext2

end Whirliscope

------------------------------------------------------------
-- Pointers After a Link
------------------------------------------------------------

namespace Whirliscope

namespace Ext2

open ByteMemory FaultProgram Ownership

section

variable {G : Geometry} {V V' : Volume}
variable {file copy : Inode} {fileBlock block : Nat}

/- Pointers depend on the inode and its indirect block. -/
theorem Volume.pointer_congr
    (hBlocks : ∀ i, i ≤ 12 → copy.block i = file.block i)
    (hContents :
      file.block 12 ≠ 0 →
        V'.contents (file.block 12) =
          V.contents (file.block 12))
    (slot : Slot) :
    V'.pointer G copy slot = V.pointer G file slot := by
  cases slot with
  | direct index =>
      by_cases hIndex : index < directBlocks
      · rw [pointer_direct hIndex, pointer_direct hIndex]
        unfold directBlocks at hIndex
        exact hBlocks index (by omega)
      · rw [pointer_direct_of_le (by omega),
          pointer_direct_of_le (by omega)]
  | indirect => exact hBlocks 12 (Nat.le_refl 12)
  | entry index =>
      have hBlock := hBlocks 12 (Nat.le_refl 12)
      by_cases hNone : file.block 12 = 0
      · rw [pointer_entry_of_none hNone,
          pointer_entry_of_none (hBlock.trans hNone)]
      · by_cases hIndex : index < G.entries
        · rw [pointer_entry hIndex hNone,
            pointer_entry hIndex (by rw [hBlock]; exact hNone),
            hBlock, hContents hNone]
        · rw [pointer_entry_of_le (by omega),
            pointer_entry_of_le (by omega)]

/- The slot of a file block is not the indirect block's. -/
theorem fileSlot_ne_indirect
    (fileBlock : Nat) :
    fileSlot fileBlock ≠ .indirect := by
  unfold fileSlot
  split <;> simp

theorem fileSlot_of_lt
    (hDirect : fileBlock < directBlocks) :
    fileSlot fileBlock = .direct fileBlock :=
  if_pos hDirect

theorem fileSlot_of_le
    (hFar : directBlocks ≤ fileBlock) :
    fileSlot fileBlock =
      .entry (fileBlock - directBlocks) :=
  if_neg (Nat.not_lt_of_le hFar)

theorem fileSlot_injective :
    Function.Injective fileSlot := by
  intro left right hSame
  by_cases hLeft : left < directBlocks <;>
    by_cases hRight : right < directBlocks <;>
      simp [fileSlot, hLeft, hRight] at hSame <;> omega

namespace Volume

@[simp] theorem takeBlock_contents_self :
    (V.takeBlock G block).contents block = zeros :=
  Function.update_self _ _ _

theorem takeBlock_contents_of_ne
    {other : Nat}
    (hNe : other ≠ block) :
    (V.takeBlock G block).contents other =
      V.contents other :=
  Function.update_of_ne hNe _ _

@[simp] theorem takeBlock_used :
    (V.takeBlock G block).used =
      Function.update V.used block true :=
  markBlock_used

@[simp] theorem setEntry_contents_self
    {indirect index : Nat} :
    (V.setEntry indirect index block).contents indirect =
      putLE (V.contents indirect) (4 * index) 4 block :=
  Function.update_self _ _ _

theorem setEntry_contents_of_ne
    {indirect index other : Nat}
    (hNe : other ≠ indirect) :
    (V.setEntry indirect index block).contents other =
      V.contents other :=
  Function.update_of_ne hNe _ _

/- The entries of an indirect block after a store. -/
theorem getLE_setEntry
    {indirect index other : Nat}
    (hBlock : block < 2 ^ 32) :
    getLE
        ((V.setEntry indirect index block).contents indirect)
        (4 * other) 4 =
      if other = index then block
      else getLE (V.contents indirect) (4 * other) 4 := by
  rw [setEntry_contents_self]
  by_cases hSame : other = index
  · rw [if_pos hSame, hSame, getLE_putLE_same]
    exact Nat.mod_eq_of_lt hBlock
  · rw [if_neg hSame, getLE_putLE_of_disjoint (by omega)]

end Volume

theorem Fresh.lt
    (hSane : Sane G)
    (hFresh : Fresh G V block) :
    block < 2 ^ 32 :=
  Nat.lt_trans hFresh.1.1.2 hSane.blocksCount_lt

theorem Fresh.ne_of_used
    (hFresh : Fresh G V block)
    {other : Nat}
    (hUsed : V.used other = true) :
    other ≠ block := by
  rintro rfl
  have hFree := hFresh.2
  rw [hUsed] at hFree
  exact Bool.false_ne_true hFree.symm

/- The pointers after a block was linked. -/
theorem Linked.pointer
    (hSane : Sane G)
    (hFresh : Fresh G V block)
    (hUsed :
      file.block 12 ≠ 0 → V.used (file.block 12) = true)
    (hLinked :
      Linked G (V.takeBlock G block) file fileBlock block
        (true, copy) V')
    (slot : Slot) :
    V'.pointer G copy slot =
      if slot = fileSlot fileBlock then block
      else if slot = .indirect then copy.block 12
      else V.pointer G file slot := by
  have hLess := hFresh.lt hSane
  have hOld :
      ∀ slot,
        (V.takeBlock G block).pointer G file slot =
          V.pointer G file slot :=
    Volume.pointer_congr (fun _ _ => rfl) fun hSome =>
      Volume.takeBlock_contents_of_ne
        (hFresh.ne_of_used (hUsed hSome))
  cases hLinked with
  | direct hDirect =>
      have hTwelve :
          (file.setBlock fileBlock block).block 12 =
            file.block 12 :=
        Inode.block_setBlock_of_ne _ (by decide)
          (by unfold directBlocks at hDirect; omega) _
      rw [fileSlot_of_lt hDirect]
      cases slot with
      | direct index =>
          by_cases hIndex : index < directBlocks
          · rw [Volume.pointer_direct hIndex]
            unfold directBlocks at hIndex hDirect
            by_cases hSame : index = fileBlock
            · rw [if_pos (by rw [hSame]), hSame,
                Inode.block_setBlock_same _ (by omega) hLess]
            · rw [if_neg (by simpa using hSame),
                if_neg (by simp),
                Inode.block_setBlock_of_ne _ (by omega) hSame,
                Volume.pointer_direct hIndex]
          · rw [Volume.pointer_direct_of_le (by omega),
              if_neg (by simp; omega), if_neg (by simp),
              Volume.pointer_direct_of_le (by omega)]
      | indirect => simp [Volume.pointer_indirect]
      | entry index =>
          rw [if_neg (by simp), if_neg (by simp), ← hOld]
          unfold Volume.pointer
          rw [hTwelve]
  | entry hFar hEntry hSome =>
      rw [fileSlot_of_le hFar]
      cases slot with
      | direct index =>
          rw [if_neg (by simp), if_neg (by simp)]
          rfl
      | indirect => simp [Volume.pointer_indirect]
      | entry index =>
          rw [if_neg (by simp : ¬ Slot.entry index = .indirect),
            ← hOld]
          by_cases hIndex : index < G.entries
          · rw [Volume.pointer_entry hIndex hSome,
              Volume.pointer_entry hIndex hSome,
              Volume.getLE_setEntry hLess]
            simp only [Slot.entry.injEq]
          · rw [Volume.pointer_entry_of_le (by omega),
              Volume.pointer_entry_of_le (by omega),
              if_neg (by simp; omega)]
  | @indirect indirect hFar hEntry hNone hFresh' =>
      have hTwelve :
          (file.setBlock 12 indirect).block 12 = indirect :=
        Inode.block_setBlock_same _ (by decide)
          (hFresh'.lt hSane)
      have hSome :
          (file.setBlock 12 indirect).block 12 ≠ 0 := by
        rw [hTwelve]
        exact Nat.ne_of_gt (hSane.pos_of_isData hFresh'.1)
      rw [fileSlot_of_le hFar]
      cases slot with
      | direct index =>
          rw [if_neg (by simp), if_neg (by simp)]
          by_cases hIndex : index < directBlocks
          · rw [Volume.pointer_direct hIndex,
              Volume.pointer_direct hIndex]
            unfold directBlocks at hIndex
            exact Inode.block_setBlock_of_ne _ (by omega)
              (by omega) _
          · rw [Volume.pointer_direct_of_le (by omega),
              Volume.pointer_direct_of_le (by omega)]
      | indirect => simp [Volume.pointer_indirect]
      | entry index =>
          rw [if_neg (by simp : ¬ Slot.entry index = .indirect),
            Volume.pointer_entry_of_none hNone]
          by_cases hIndex : index < G.entries
          · rw [Volume.pointer_entry hIndex hSome, hTwelve,
              Volume.getLE_setEntry hLess,
              Volume.takeBlock_contents_self, getLE_zeros]
            simp only [Slot.entry.injEq]
          · rw [Volume.pointer_entry_of_le (by omega),
              if_neg (by simp; omega)]

end

end Ext2

end Whirliscope

------------------------------------------------------------
-- What Mapping a Block Changes
------------------------------------------------------------

namespace Whirliscope

namespace Ext2

open ByteMemory FaultProgram Ownership

/- Mapping blocks leaves everything about inodes alone. -/
structure SameInodes
    (V V' : Volume) : Prop where
  inodes : V'.inodes = V.inodes
  inodeUsed : V'.inodeUsed = V.inodeUsed
  freeInodes : V'.freeInodes = V.freeInodes
  groupFreeInodes : V'.groupFreeInodes = V.groupFreeInodes
  groupDirs : V'.groupDirs = V.groupDirs
  fixed : V'.fixed = V.fixed

namespace SameInodes

variable {G : Geometry} {V V' V'' : Volume} {block : Nat}

theorem refl
    (V : Volume) :
    SameInodes V V :=
  ⟨rfl, rfl, rfl, rfl, rfl, rfl⟩

theorem trans
    (hFirst : SameInodes V V')
    (hSecond : SameInodes V' V'') :
    SameInodes V V'' where
  inodes := hSecond.inodes.trans hFirst.inodes
  inodeUsed := hSecond.inodeUsed.trans hFirst.inodeUsed
  freeInodes := hSecond.freeInodes.trans hFirst.freeInodes
  groupFreeInodes :=
    hSecond.groupFreeInodes.trans hFirst.groupFreeInodes
  groupDirs := hSecond.groupDirs.trans hFirst.groupDirs
  fixed := hSecond.fixed.trans hFirst.fixed

theorem markBlock
    (V : Volume)
    (used : Bool) :
    SameInodes V (V.markBlock G block used) where
  inodes := Volume.markBlock_inodes
  inodeUsed := Volume.markBlock_inodeUsed
  freeInodes := Volume.markBlock_freeInodes
  groupFreeInodes := Volume.markBlock_groupFreeInodes
  groupDirs := Volume.markBlock_groupDirs
  fixed := Volume.markBlock_fixed

theorem takeBlock
    (V : Volume) :
    SameInodes V (V.takeBlock G block) :=
  (SameInodes.markBlock V true).trans
    ⟨rfl, rfl, rfl, rfl, rfl, rfl⟩

theorem setEntry
    (V : Volume)
    (indirect index : Nat) :
    SameInodes V (V.setEntry indirect index block) :=
  ⟨rfl, rfl, rfl, rfl, rfl, rfl⟩

theorem allocated_iff
    (hSame : SameInodes V V')
    (number : Nat) :
    Allocated G V' number ↔ Allocated G V number := by
  unfold Allocated
  rw [hSame.inodeUsed]

end SameInodes

/- Which inodes are in use, and for what, stays the same. -/
structure SameModes
    (V V' : Volume) : Prop where
  inodeUsed : V'.inodeUsed = V.inodeUsed
  freeInodes : V'.freeInodes = V.freeInodes
  groupFreeInodes : V'.groupFreeInodes = V.groupFreeInodes
  groupDirs : V'.groupDirs = V.groupDirs
  fixed : V'.fixed = V.fixed
  mode :
    ∀ number,
      (V'.inodes number).mode = (V.inodes number).mode

section

variable {V V' V'' : Volume}

theorem SameModes.refl
    (V : Volume) :
    SameModes V V :=
  ⟨rfl, rfl, rfl, rfl, rfl, fun _ => rfl⟩

theorem SameModes.trans
    (hFirst : SameModes V V')
    (hSecond : SameModes V' V'') :
    SameModes V V'' where
  inodeUsed := hSecond.inodeUsed.trans hFirst.inodeUsed
  freeInodes := hSecond.freeInodes.trans hFirst.freeInodes
  groupFreeInodes :=
    hSecond.groupFreeInodes.trans hFirst.groupFreeInodes
  groupDirs := hSecond.groupDirs.trans hFirst.groupDirs
  fixed := hSecond.fixed.trans hFirst.fixed
  mode := fun number =>
    (hSecond.mode number).trans (hFirst.mode number)

theorem SameInodes.sameModes
    (hSame : SameInodes V V') :
    SameModes V V' where
  inodeUsed := hSame.inodeUsed
  freeInodes := hSame.freeInodes
  groupFreeInodes := hSame.groupFreeInodes
  groupDirs := hSame.groupDirs
  fixed := hSame.fixed
  mode := by
    rw [hSame.inodes]
    exact fun _ => rfl

theorem SameModes.allocated_iff
    {G : Geometry}
    {number : Nat}
    (hSame : SameModes V V') :
    Allocated G V' number ↔ Allocated G V number := by
  unfold Allocated
  rw [hSame.inodeUsed]

end

/- Mapping blocks keeps the other fields of the inode. -/
structure SameHeader
    (file copy : Inode) : Prop where
  mode : copy.mode = file.mode
  size : copy.size = file.size
  linksCount : copy.linksCount = file.linksCount
  double : copy.block 13 = file.block 13
  triple : copy.block 14 = file.block 14

namespace SameHeader

variable {file copy last : Inode}

theorem refl
    (file : Inode) :
    SameHeader file file :=
  ⟨rfl, rfl, rfl, rfl, rfl⟩

theorem trans
    (hFirst : SameHeader file copy)
    (hSecond : SameHeader copy last) :
    SameHeader file last where
  mode := hSecond.mode.trans hFirst.mode
  size := hSecond.size.trans hFirst.size
  linksCount := hSecond.linksCount.trans hFirst.linksCount
  double := hSecond.double.trans hFirst.double
  triple := hSecond.triple.trans hFirst.triple

theorem setBlock
    (file : Inode)
    {index : Nat}
    (hIndex : index ≤ 12)
    (block : Nat) :
    SameHeader file (file.setBlock index block) where
  mode := Inode.mode_setBlock file index block
  size := Inode.size_setBlock file index block
  linksCount := Inode.linksCount_setBlock file index block
  double :=
    Inode.block_setBlock_of_ne file (by decide) (by omega)
      block
  triple :=
    Inode.block_setBlock_of_ne file (by decide) (by omega)
      block

theorem setBlocks
    (file : Inode)
    (count : Nat) :
    SameHeader file (file.setBlocks count) where
  mode := Inode.mode_setBlocks file count
  size := Inode.size_setBlocks file count
  linksCount := Inode.linksCount_setBlocks file count
  double := Inode.block_setBlocks file (by decide) count
  triple := Inode.block_setBlocks file (by decide) count

end SameHeader

section

variable {G : Geometry} {V V' : Volume} {number : Nat}
variable {file copy : Inode} {fileBlock block : Nat}

theorem Linked.sameInodes
    {linked : Bool}
    (hLinked :
      Linked G V file fileBlock block (linked, copy) V') :
    SameInodes V V' := by
  cases hLinked with
  | direct => exact .refl V
  | entry => exact .setEntry V _ _
  | indirect =>
      exact (SameInodes.takeBlock V).trans (.setEntry _ _ _)
  | full => exact .refl V
  | tooFar => exact .refl V

theorem Linked.sameHeader
    (hLinked :
      Linked G V file fileBlock block (true, copy) V') :
    SameHeader file copy := by
  cases hLinked with
  | direct hDirect =>
      exact .setBlock file (Nat.le_of_lt hDirect) block
  | entry => exact .refl file
  | indirect => exact .setBlock file (Nat.le_refl 12) _

/- Which blocks a link takes besides the one it links. -/
theorem Linked.taken
    (hSane : Sane G)
    (hLinked :
      Linked G V file fileBlock block (true, copy) V') :
    copy.block 12 = file.block 12 ∧ V'.used = V.used ∧
        V'.freeBlocks = V.freeBlocks ∧
        (file.block 12 = 0 → fileBlock < directBlocks) ∨
      file.block 12 = 0 ∧ directBlocks ≤ fileBlock ∧
        Fresh G V (copy.block 12) ∧
        V'.used = Function.update V.used (copy.block 12) true ∧
        V'.freeBlocks =
          (V.takeBlock G (copy.block 12)).freeBlocks := by
  cases hLinked with
  | direct hDirect =>
      left
      refine ⟨?_, rfl, rfl, fun _ => hDirect⟩
      unfold directBlocks at hDirect
      exact Inode.block_setBlock_of_ne file (by decide)
        (by omega) block
  | entry hFar hEntry hSome =>
      exact .inl ⟨rfl, rfl, rfl, fun hNone => absurd hNone hSome⟩
  | @indirect indirect hFar hEntry hNone hFresh =>
      right
      rw [Inode.block_setBlock_same file (by decide)
        (hFresh.lt hSane)]
      exact ⟨hNone, hFar, hFresh, Volume.takeBlock_used, rfl⟩

/- Only the indirect block and new blocks are stored into. -/
theorem Linked.contents
    (hSane : Sane G)
    (hLinked :
      Linked G (V.takeBlock G block) file fileBlock block
        (true, copy) V')
    {other : Nat}
    (hBlock : other ≠ block)
    (hIndirect : other ≠ copy.block 12) :
    V'.contents other = V.contents other := by
  have hTaken :
      (V.takeBlock G block).contents other =
        V.contents other :=
    Volume.takeBlock_contents_of_ne hBlock
  cases hLinked with
  | direct => exact hTaken
  | entry =>
      exact (Volume.setEntry_contents_of_ne hIndirect).trans
        hTaken
  | indirect hFar hEntry hNone hFresh' =>
      rw [Inode.block_setBlock_same file (by decide)
        (hFresh'.lt hSane)] at hIndirect
      exact ((Volume.setEntry_contents_of_ne hIndirect).trans
        (Volume.takeBlock_contents_of_ne hIndirect)).trans
          hTaken

/- The block that was linked is clear. -/
theorem Linked.cleared
    (hFresh : Fresh G V block)
    (hUsed :
      file.block 12 ≠ 0 → V.used (file.block 12) = true)
    (hLinked :
      Linked G (V.takeBlock G block) file fileBlock block
        (true, copy) V') :
    V'.contents block = zeros := by
  cases hLinked with
  | direct => exact Volume.takeBlock_contents_self
  | entry hFar hEntry hSome =>
      rw [Volume.setEntry_contents_of_ne
        (hFresh.ne_of_used (hUsed hSome)).symm]
      exact Volume.takeBlock_contents_self
  | indirect hFar hEntry hNone hFresh' =>
      have hNe : block ≠ _ :=
        hFresh'.ne_of_used
          (by rw [Volume.takeBlock_used, Function.update_self])
      rw [Volume.setEntry_contents_of_ne hNe,
        Volume.takeBlock_contents_of_ne hNe]
      exact Volume.takeBlock_contents_self

end

end Ext2

end Whirliscope
