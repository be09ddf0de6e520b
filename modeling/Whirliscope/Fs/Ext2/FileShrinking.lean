import Whirliscope.Fs.Ext2.FileExtension

/-
  Freeing the blocks of a file from a file block on.

  A slot is freed when its block is given back and its pointer
  is cleared. The loops of the driver free the slots of the
  direct pointers, then the entries of the indirect block and
  last the indirect block.

  Key definitions include:
    * `Volume.freeSlot`, `Inode.clearSlot`
    * `Shrinks`

  Main theorem:
    * `Holds.ensures_freeInodeBlocks`
-/

------------------------------------------------------------
-- Freeing a Slot
------------------------------------------------------------

namespace Whirliscope

namespace Ext2

open ByteMemory FaultProgram Ownership

/- Clear a pointer that an inode holds itself. -/
def Inode.clearSlot
    (file : Inode) : Slot → Inode
| .direct index => file.setBlock index 0
| .indirect => file.setBlock 12 0
| .entry _ => file

/- Clear a pointer that an indirect block holds. -/
def Volume.clearSlot
    (V : Volume)
    (file : Inode) : Slot → Volume
| .direct _ => V
| .indirect => V
| .entry index => V.setEntry (file.block 12) index 0

/- Give the block of a slot back. -/
def Volume.freeSlot
    (V : Volume)
    (G : Geometry)
    (file : Inode)
    (slot : Slot) : Volume :=
  (V.markBlock G (V.pointer G file slot) false).clearSlot
    file slot

section

variable {G : Geometry} {V V' : Volume} {number : Nat}
variable {file copy : Inode} {slot : Slot}

theorem Volume.clearSlot_contents
    {block : Nat}
    (hBlock : block ≠ file.block 12) :
    (V.clearSlot file slot).contents block =
      V.contents block := by
  cases slot with
  | direct => rfl
  | indirect => rfl
  | entry index => exact setEntry_contents_of_ne hBlock

theorem Volume.clearSlot_used :
    (V.clearSlot file slot).used = V.used := by
  cases slot <;> rfl

theorem SameInodes.clearSlot :
    SameInodes V (V.clearSlot file slot) := by
  cases slot with
  | direct => exact .refl V
  | indirect => exact .refl V
  | entry index => exact .setEntry V _ _

theorem SameHeader.clearSlot
    (hSome : V.pointer G file slot ≠ 0) :
    SameHeader file (file.clearSlot slot) := by
  cases slot with
  | direct index =>
      have hIndex : index < directBlocks := by
        by_contra hFar
        exact hSome
          (Volume.pointer_direct_of_le (by omega))
      exact .setBlock file (Nat.le_of_lt hIndex) 0
  | indirect => exact .setBlock file (Nat.le_refl 12) 0
  | entry => exact .refl file

/- The pointers after a slot was cleared. -/
theorem Volume.pointer_clearSlot
    (hSome : V.pointer G file slot ≠ 0)
    (hEntries :
      slot = .indirect →
        ∀ index, V.pointer G file (.entry index) = 0)
    (other : Slot) :
    (V.clearSlot file slot).pointer G (file.clearSlot slot)
        other =
      if other = slot then 0 else V.pointer G file other := by
  cases slot with
  | direct index =>
      have hIndex : index < directBlocks := by
        by_contra hFar
        exact hSome (pointer_direct_of_le (by omega))
      have hTwelve :
          (file.setBlock index 0).block 12 = file.block 12 :=
        Inode.block_setBlock_of_ne _ (by decide)
          (by unfold directBlocks at hIndex; omega) _
      change V.pointer G (file.setBlock index 0) other = _
      cases other with
      | direct place =>
          by_cases hPlace : place < directBlocks
          · rw [pointer_direct hPlace, pointer_direct hPlace]
            unfold directBlocks at hPlace
            by_cases hSame : place = index
            · rw [if_pos (by rw [hSame]), hSame,
                Inode.block_setBlock_same _ (by omega)
                  (by decide)]
            · rw [if_neg (by simpa using hSame),
                Inode.block_setBlock_of_ne _ (by omega) hSame]
          · rw [pointer_direct_of_le (by omega),
              pointer_direct_of_le (by omega), ite_self]
      | indirect =>
          rw [if_neg (by simp)]
          exact hTwelve
      | entry place =>
          rw [if_neg (by simp)]
          unfold pointer
          rw [hTwelve]
  | indirect =>
      have hTwelve : (file.setBlock 12 0).block 12 = 0 :=
        Inode.block_setBlock_same _ (by decide) (by decide)
      change V.pointer G (file.setBlock 12 0) other = _
      cases other with
      | direct place =>
          rw [if_neg (by simp)]
          by_cases hPlace : place < directBlocks
          · rw [pointer_direct hPlace, pointer_direct hPlace]
            unfold directBlocks at hPlace
            exact Inode.block_setBlock_of_ne _ (by omega)
              (by omega) _
          · rw [pointer_direct_of_le (by omega),
              pointer_direct_of_le (by omega)]
      | indirect =>
          rw [if_pos rfl]
          exact hTwelve
      | entry place =>
          rw [if_neg (by simp), hEntries rfl place]
          exact pointer_entry_of_none hTwelve place
  | entry index =>
      change (V.setEntry (file.block 12) index 0).pointer G file
        other = _
      have hTwelve : file.block 12 ≠ 0 := fun hNone =>
        hSome (pointer_entry_of_none hNone index)
      cases other with
      | direct place => simp [pointer]
      | indirect => simp [pointer]
      | entry place =>
          by_cases hPlace : place < G.entries
          · rw [pointer_entry hPlace hTwelve,
              pointer_entry hPlace hTwelve,
              getLE_setEntry (by decide)]
            simp only [Slot.entry.injEq]
          · rw [pointer_entry_of_le (by omega),
              pointer_entry_of_le (by omega), ite_self]

theorem SameInodes.freeSlot :
    SameInodes V (V.freeSlot G file slot) :=
  (SameInodes.markBlock V false).trans .clearSlot

theorem Volume.pointer_freeSlot
    (hSome : V.pointer G file slot ≠ 0)
    (hEntries :
      slot = .indirect →
        ∀ index, V.pointer G file (.entry index) = 0)
    (other : Slot) :
    (V.freeSlot G file slot).pointer G (file.clearSlot slot)
        other =
      if other = slot then 0 else V.pointer G file other := by
  have hMarked :
      ∀ other,
        (V.markBlock G (V.pointer G file slot) false).pointer G
            file other =
          V.pointer G file other :=
    Volume.pointer_congr (fun _ _ => rfl) fun _ => by
      rw [Volume.markBlock_contents]
  unfold Volume.freeSlot
  rw [Volume.pointer_clearSlot, hMarked]
  · rw [hMarked]
    exact hSome
  · simp only [hMarked]
    exact hEntries

theorem Volume.freeSlot_contents
    {block : Nat}
    (hBlock : block ≠ file.block 12) :
    (V.freeSlot G file slot).contents block =
      V.contents block := by
  unfold Volume.freeSlot
  rw [Volume.clearSlot_contents hBlock,
    Volume.markBlock_contents]

theorem Volume.freeSlot_used :
    (V.freeSlot G file slot).used =
      Function.update V.used (V.pointer G file slot) false := by
  unfold Volume.freeSlot
  rw [Volume.clearSlot_used, Volume.markBlock_used]

theorem Editing.keepsOthers_freeSlot
    (hEditing : Editing G V number file) :
    KeepsOthers G V (V.freeSlot G file slot) number := by
  have hSame := @SameInodes.freeSlot G V file slot
  apply hEditing.keepsOthers hSame.inodeUsed
    fun other _ => congrFun hSame.inodes other
  exact fun block _ _ hSlots =>
    Volume.freeSlot_contents (hSlots .indirect).symm

/- Freeing a slot releases one reference. -/
theorem Editing.refsWith_freeSlot
    (hEditing : Editing G V number file)
    (hSome : V.pointer G file slot ≠ 0)
    (hEntries :
      slot = .indirect →
        ∀ index, V.pointer G file (.entry index) = 0) :
    (V.freeSlot G file slot).refsWith G number
        (file.clearSlot slot) =
      Function.update (V.refsWith G number file)
        (number, slot) 0 := by
  have hKeeps := @Editing.keepsOthers_freeSlot
    G V number file slot hEditing
  funext ref
  rcases ref with ⟨other, place⟩
  by_cases hNumber : other = number
  · rw [hNumber,
      Volume.refsWith_self
        (hKeeps.allocated hEditing.allocated),
      Volume.pointer_freeSlot hSome hEntries]
    by_cases hPlace : place = slot
    · rw [if_pos hPlace, hPlace, Function.update_self]
    · rw [if_neg hPlace, Function.update_of_ne (by
        simpa using hPlace)]
      exact (Volume.refsWith_self hEditing.allocated _).symm
  · rw [Function.update_of_ne (by simp [hNumber])]
    exact hKeeps.refsWith_of_ne hNumber place

theorem Editing.freeSlot
    (hEditing : Editing G V number file)
    (hSome : V.pointer G file slot ≠ 0)
    (hEntries :
      slot = .indirect →
        ∀ index, V.pointer G file (.entry index) = 0) :
    Editing G (V.freeSlot G file slot) number
      (file.clearSlot slot) where
  allocated :=
    (SameInodes.freeSlot.allocated_iff number).mpr
      hEditing.allocated
  metadata := by
    intro block hTracked hMeta
    have hData := hEditing.blocksAreData slot hSome
    have hNe : block ≠ V.pointer G file slot := by
      rintro rfl
      rw [hData.2] at hMeta
      cases hMeta
    rw [Volume.freeSlot_used, Function.update_of_ne hNe]
    exact hEditing.metadata block hTracked hMeta
  separates := by
    rw [hEditing.refsWith_freeSlot hSome hEntries,
      Volume.freeSlot_used,
      ← Volume.refsWith_self hEditing.allocated]
    exact hEditing.separates.release _

theorem Owned.freeSlot
    (hEditing : Editing G V number file)
    (hOwned :
      Owned G V (Function.update V.inodes number file))
    (hSome : V.pointer G file slot ≠ 0)
    (hEntries :
      slot = .indirect →
        ∀ index, V.pointer G file (.entry index) = 0) :
    Owned G (V.freeSlot G file slot)
      (Function.update (V.freeSlot G file slot).inodes number
        (file.clearSlot slot)) := by
  change Owns _ _ _
    ((V.freeSlot G file slot).refsWith G number
      (file.clearSlot slot))
  rw [hEditing.refsWith_freeSlot hSome hEntries,
    Volume.freeSlot_used,
    ← Volume.refsWith_self hEditing.allocated]
  exact Owns.release hOwned _

theorem BlockCounts.freeSlot
    (hSane : Sane G)
    (hCounts : BlockCounts G V)
    (hTracked : G.Tracked (V.pointer G file slot)) :
    BlockCounts G (V.freeSlot G file slot) := by
  have hMarked := hCounts.markBlock hSane hTracked false
  unfold Volume.freeSlot
  cases slot <;> exact ⟨hMarked.total, hMarked.group⟩

end

end Ext2

end Whirliscope

------------------------------------------------------------
-- Freeing Several Slots
------------------------------------------------------------

namespace Whirliscope

namespace Ext2

open ByteMemory FaultProgram Ownership

/-
  A file after the slots in `gone` were freed. The pointers in
  the other slots and the contents of all blocks but the
  indirect block stay.
-/
structure Shrinks
    (G : Geometry)
    (V : Volume)
    (file : Inode)
    (V' : Volume)
    (copy : Inode)
    (gone : Slot → Prop) : Prop where
  same : SameInodes V V'
  header : SameHeader file copy
  contents :
    ∀ block, block ≠ 0 → block ≠ file.block 12 →
      V'.contents block = V.contents block
  cleared : ∀ slot, gone slot → V'.pointer G copy slot = 0
  kept :
    ∀ slot, ¬ gone slot →
      V'.pointer G copy slot = V.pointer G file slot

/-
  What is left of a file while its slots are freed: the copy
  of its inode can still be written back.
-/
structure Shrinking
    (G : Geometry)
    (V : Volume)
    (number : Nat)
    (file : Inode)
    (V' : Volume)
    (copy : Inode)
    (gone : Slot → Prop) : Prop where
  editing : Editing G V' number copy
  shrinks : Shrinks G V file V' copy gone
  owned :
    Owned G V (Function.update V.inodes number file) →
      Owned G V' (Function.update V'.inodes number copy)
  counts : BlockCounts G V → BlockCounts G V'

section

variable {G : Geometry} {V V' V'' : Volume} {number : Nat}
variable {file copy last : Inode} {slot : Slot}
variable {gone more : Slot → Prop}

theorem Shrinks.refl
    (G : Geometry)
    (V : Volume)
    (file : Inode) :
    Shrinks G V file V file fun _ => False where
  same := .refl V
  header := .refl file
  contents := fun _ _ _ => rfl
  cleared := fun _ hFalse => hFalse.elim
  kept := fun _ _ => rfl

theorem Shrinks.trans
    (hFirst : Shrinks G V file V' copy gone)
    (hSecond : Shrinks G V' copy V'' last more) :
    Shrinks G V file V'' last
      fun slot => gone slot ∨ more slot where
  same := hFirst.same.trans hSecond.same
  header := hFirst.header.trans hSecond.header
  contents := by
    intro block hSome hBlock
    have hCopy : block ≠ copy.block 12 := by
      by_cases hGone : gone .indirect
      · have hNone := hFirst.cleared .indirect hGone
        exact fun hSame => hSome (hSame.trans hNone)
      · have hKept := hFirst.kept .indirect hGone
        exact fun hSame => hBlock (hSame.trans hKept)
    exact (hSecond.contents block hSome hCopy).trans
      (hFirst.contents block hSome hBlock)
  cleared := by
    intro slot hGone
    by_cases hMore : more slot
    · exact hSecond.cleared slot hMore
    · rw [hSecond.kept slot hMore]
      exact hFirst.cleared slot (hGone.resolve_right hMore)
  kept := by
    intro slot hKept
    rw [not_or] at hKept
    exact (hSecond.kept slot hKept.2).trans
      (hFirst.kept slot hKept.1)

theorem Shrinks.keepsOthers
    {gone : Slot → Prop}
    (hEditing : Editing G V number file)
    (hShrinks : Shrinks G V file V' copy gone) :
    KeepsOthers G V V' number :=
  hEditing.keepsOthers hShrinks.same.inodeUsed
    (fun other _ => congrFun hShrinks.same.inodes other)
    fun block hSome _ hSlots =>
      hShrinks.contents block hSome (hSlots .indirect).symm

theorem Shrinking.refl
    (hEditing : Editing G V number file) :
    Shrinking G V number file V file fun _ => False :=
  ⟨hEditing, .refl G V file, id, id⟩

/- Slots that are empty count as freed. -/
theorem Shrinking.congr
    (hShrinking : Shrinking G V number file V' copy gone)
    (hGone : ∀ slot, gone slot → more slot)
    (hMore :
      ∀ slot, more slot → ¬ gone slot →
        V.pointer G file slot = 0) :
    Shrinking G V number file V' copy more where
  editing := hShrinking.editing
  shrinks :=
    { same := hShrinking.shrinks.same
      header := hShrinking.shrinks.header
      contents := hShrinking.shrinks.contents
      cleared := by
        intro slot hSlot
        by_cases hBefore : gone slot
        · exact hShrinking.shrinks.cleared slot hBefore
        · exact (hShrinking.shrinks.kept slot hBefore).trans
            (hMore slot hSlot hBefore)
      kept := fun slot hSlot =>
        hShrinking.shrinks.kept slot fun hBefore =>
          hSlot (hGone slot hBefore) }
  owned := hShrinking.owned
  counts := hShrinking.counts

/- One more slot is freed. -/
theorem Shrinking.freeSlot
    (hSane : Sane G)
    (hShrinking : Shrinking G V number file V' copy gone)
    (hSome : V'.pointer G copy slot ≠ 0)
    (hEntries :
      slot = .indirect →
        ∀ index, V'.pointer G copy (.entry index) = 0) :
    Shrinking G V number file (V'.freeSlot G copy slot)
      (copy.clearSlot slot)
      fun other => gone other ∨ other = slot where
  editing := hShrinking.editing.freeSlot hSome hEntries
  shrinks := by
    apply hShrinking.shrinks.trans
    exact
      { same := .freeSlot
        header := .clearSlot hSome
        contents := fun _ _ hBlock =>
          Volume.freeSlot_contents hBlock
        cleared := by
          rintro other rfl
          rw [Volume.pointer_freeSlot hSome hEntries,
            if_pos rfl]
        kept := by
          intro other hOther
          rw [Volume.pointer_freeSlot hSome hEntries,
            if_neg hOther] }
  owned := fun hOwned =>
    (hShrinking.owned hOwned).freeSlot hShrinking.editing
      hSome hEntries
  counts := fun hCounts =>
    (hShrinking.counts hCounts).freeSlot hSane
      (hShrinking.editing.blocksAreData slot hSome).1

/- A slot that is empty already. -/
theorem Shrinking.skipSlot
    (hShrinking : Shrinking G V number file V' copy gone)
    (hNone : V'.pointer G copy slot = 0) :
    Shrinking G V number file V' copy
      fun other => gone other ∨ other = slot := by
  apply hShrinking.congr fun _ hGone => .inl hGone
  rintro other (hGone | rfl) hKept
  · exact absurd hGone hKept
  · rw [← hShrinking.shrinks.kept other hKept]
    exact hNone

/- Counting the blocks changes no pointer. -/
theorem Shrinking.setBlocks
    (hShrinking : Shrinking G V number file V' copy gone)
    (count : Nat) :
    Shrinking G V number file V' (copy.setBlocks count)
      gone where
  editing :=
    hShrinking.editing.congr
      (Volume.pointer_setBlocks copy count)
  shrinks :=
    { same := hShrinking.shrinks.same
      header :=
        hShrinking.shrinks.header.trans (.setBlocks copy count)
      contents := hShrinking.shrinks.contents
      cleared := by
        simp only [Volume.pointer_setBlocks]
        exact hShrinking.shrinks.cleared
      kept := by
        simp only [Volume.pointer_setBlocks]
        exact hShrinking.shrinks.kept }
  owned := fun hOwned =>
    (hShrinking.owned hOwned).congr
      (Volume.pointer_setBlocks copy count)
  counts := hShrinking.counts

/- The slots of a kind with an index in a range. -/
def SlotsIn
    (kind : Nat → Slot)
    (first stop : Nat)
    (slot : Slot) : Prop :=
  ∃ index, slot = kind index ∧ first ≤ index ∧ index < stop

theorem slotsIn_succ_iff
    {kind : Nat → Slot}
    {first index : Nat}
    (hFirst : first ≤ index)
    (slot : Slot) :
    SlotsIn kind first (index + 1) slot ↔
      SlotsIn kind first index slot ∨ slot = kind index := by
  constructor
  · rintro ⟨place, hSlot, hPlace, hLess⟩
    by_cases hSame : place = index
    · exact .inr (hSame ▸ hSlot)
    · exact .inl ⟨place, hSlot, hPlace, by omega⟩
  · rintro (⟨place, hSlot, hPlace, hLess⟩ | hSlot)
    · exact ⟨place, hSlot, hPlace, Nat.lt_succ_of_lt hLess⟩
    · exact ⟨index, hSlot, hFirst, Nat.lt_succ_self index⟩

theorem not_slotsIn_self
    (kind : Nat → Slot)
    (first : Nat)
    (slot : Slot) :
    ¬ SlotsIn kind first first slot := by
  rintro ⟨index, -, hFirst, hLess⟩
  omega

theorem Shrinking.of_iff
    (hShrinking : Shrinking G V number file V' copy gone)
    (hSame : ∀ slot, more slot ↔ gone slot) :
    Shrinking G V number file V' copy more := by
  have hGone : more = gone :=
    funext fun slot => propext (hSame slot)
  rw [hGone]
  exact hShrinking

end

end Ext2

end Whirliscope

------------------------------------------------------------
-- The Freeing Loops
------------------------------------------------------------

namespace Whirliscope

namespace Ext2

open ByteMemory FaultProgram Ownership

/- The slots of a file from a file block on. -/
def GoneFrom
    (keep : Nat) : Slot → Prop
| .direct index => keep ≤ index
| .entry index => keep ≤ directBlocks + index
| .indirect => keep ≤ directBlocks

theorem goneFrom_fileSlot
    (keep fileBlock : Nat) :
    GoneFrom keep (fileSlot fileBlock) ↔ keep ≤ fileBlock := by
  unfold fileSlot
  split
  · exact Iff.rfl
  · change _ ≤ directBlocks + _ ↔ _
    omega

namespace Holds

variable {G : Geometry} {V V' : Volume} {s : State}
variable {stops : Fault → Prop} {number : Nat}
variable {file copy : Inode} {gone : Slot → Prop}

/- The whole indirect block of a file. -/
theorem load_entry
    (hSane : Sane G)
    (hHolds : Holds G V s)
    {indirect index : Nat}
    (hData : G.IsData indirect)
    (hIndex : index < G.entries) :
    s.load
        { address := indirect * G.blockSize + 0
          extent := G.blockSize }
        (4 * index) 4 =
      .ok (getLE (V.contents indirect) (4 * index) 4) := by
  unfold Geometry.entries at hIndex
  have hRange : 4 * index + 4 ≤ G.blockSize := by omega
  have hInside := hHolds.blockInImage hSane hData
  unfold BlockInImage at hInside
  rw [hHolds.blockSize, Nat.add_mul, Nat.one_mul] at hInside
  rw [load_eq _ hRange, Nat.add_zero,
    hHolds.getLE_data hData hRange]
  exact hInside

/- Free one slot, which is not empty. -/
theorem ensures_markSlot
    (hSane : Sane G)
    (hHolds : Holds G V s)
    (hEditing : Editing G V number file)
    {slot : Slot}
    (hSome : V.pointer G file slot ≠ 0) :
    Ensures stops
      (markBlockUsed (V.pointer G file slot) false) s
      fun _ final =>
        Holds G
          (V.markBlock G (V.pointer G file slot) false)
          final :=
  (hHolds.ensures_markBlockUsed hSane
    (hEditing.blocksAreData slot hSome).1 false).mono
      fun _ _ hMarked => hMarked.2

theorem ensures_freeDirectBlocks
    (hSane : Sane G)
    (hHolds : Holds G V s)
    (hEditing : Editing G V number file)
    (keep : Nat) :
    Ensures stops
      (loop (throw .noReturn) freeDirectBlock
        (directBlocks + 1) (keep, file))
      s
      fun copy final =>
        ∃ V', Holds G V' final ∧
          Shrinking G V number file V' copy
            (SlotsIn .direct keep (max keep directBlocks)) := by
  apply ensures_loop_measure
    (fun state : Nat × Inode => directBlocks - state.1)
    fun state final =>
      ∃ V', Holds G V' final ∧
        keep ≤ state.1 ∧ state.1 ≤ max keep directBlocks ∧
        Shrinking G V number file V' state.2
          (SlotsIn .direct keep state.1)
  · rintro ⟨index, copy⟩ state
      ⟨V', hHolds', hKeep, hStop, hShrinking⟩
    dsimp only at hKeep hStop hShrinking ⊢
    unfold freeDirectBlock
    rw [ensures_ite_iff]
    constructor
    · intro hDone
      have hEnd : index = max keep directBlocks := by omega
      rw [ensures_pure_iff, ← hEnd]
      exact ⟨V', hHolds', hShrinking⟩
    intro hMore
    have hIndex : index < directBlocks := by omega
    have hPointer :
        V'.pointer G copy (.direct index) = copy.block index :=
      Volume.pointer_direct hIndex
    rw [ensures_ite_iff, ← hPointer]
    constructor
    · intro hSome
      rw [ensures_bind_iff]
      apply (hHolds'.ensures_markSlot hSane
        hShrinking.editing hSome).mono
      intro _ final hFinal
      rw [ensures_pure_iff]
      exact ⟨by dsimp only; omega, _, hFinal,
        Nat.le_succ_of_le hKeep, by dsimp only; omega,
        (hShrinking.freeSlot hSane hSome
          (by intro hFalse; cases hFalse)).of_iff
            (slotsIn_succ_iff hKeep)⟩
    · intro hNone
      rw [ensures_pure_iff]
      exact ⟨by dsimp only; omega, V', hHolds',
        Nat.le_succ_of_le hKeep, by dsimp only; omega,
        (hShrinking.skipSlot (not_not.mp hNone)).of_iff
          (slotsIn_succ_iff hKeep)⟩
  · dsimp only
    omega
  · exact ⟨V, hHolds, Nat.le_refl keep,
      Nat.le_max_left _ _,
      (Shrinking.refl hEditing).of_iff fun slot =>
        iff_false_intro (not_slotsIn_self _ _ slot)⟩

theorem ensures_freeIndirectEntries
    (hSane : Sane G)
    (hHolds : Holds G V' s)
    (hShrinking : Shrinking G V number file V' copy gone)
    (hTwelve : copy.block 12 ≠ 0)
    {keep : Nat}
    (hKeep : keep ≤ G.entries) :
    Ensures stops
      (loop (throw .noReturn)
        (freeIndirectEntry
          { address := copy.block 12 * G.blockSize + 0
            extent := G.blockSize })
        (G.entries + 1) keep)
      s
      fun _ final =>
        ∃ V'', Holds G V'' final ∧
          Shrinking G V number file V'' copy fun slot =>
            gone slot ∨ SlotsIn .entry keep G.entries slot := by
  apply ensures_loop_measure
    (fun index : Nat => G.entries - index)
    fun index final =>
      ∃ V'', Holds G V'' final ∧
        keep ≤ index ∧ index ≤ G.entries ∧
        Shrinking G V number file V'' copy fun slot =>
          gone slot ∨ SlotsIn .entry keep index slot
  · rintro index state ⟨V'', hHolds'', hFirst, hStop, hRest⟩
    have hData : G.IsData (copy.block 12) :=
      hRest.editing.blocksAreData.indirect hTwelve
    unfold freeIndirectEntry
    simp only [ensures_bind_iff, ensures_get_iff,
      hHolds''.entriesPerBlock_eq]
    rw [ensures_ite_iff]
    constructor
    · intro hDone
      have hEnd : index = G.entries := by omega
      rw [ensures_pure_iff, ← hEnd]
      exact ⟨V'', hHolds'', hRest⟩
    intro hMore
    have hIndex : index < G.entries := by omega
    have hPointer :
        V''.pointer G copy (.entry index) =
          getLE (V''.contents (copy.block 12)) (4 * index) 4 :=
      Volume.pointer_entry hIndex hTwelve
    have hGrow :
        ∀ slot,
          (gone slot ∨ SlotsIn .entry keep (index + 1) slot) ↔
            (gone slot ∨ SlotsIn .entry keep index slot) ∨
              slot = .entry index := by
      intro slot
      rw [slotsIn_succ_iff hFirst, or_assoc]
    simp only [ensures_bind_iff,
      hHolds''.load_entry hSane hData hIndex, ensures_lift_iff,
      yields_ok_iff, ← hPointer]
    rw [ensures_ite_iff]
    constructor
    · intro hSome
      simp only [ensures_bind_iff, ensures_pure_iff]
      apply (hHolds''.ensures_markSlot hSane hRest.editing
        hSome).mono
      intro _ middle hMiddle
      apply (hMiddle.ensures_setEntry hSane hData hIndex
        0).mono
      intro _ final hFinal
      exact ⟨by omega, _, hFinal,
        Nat.le_succ_of_le hFirst, hIndex,
        (hRest.freeSlot hSane hSome
          (by intro hFalse; cases hFalse)).of_iff hGrow⟩
    · intro hNone
      rw [ensures_pure_iff]
      exact ⟨by omega, V'', hHolds'',
        Nat.le_succ_of_le hFirst, hIndex,
        (hRest.skipSlot (not_not.mp hNone)).of_iff hGrow⟩
  · omega
  · refine ⟨V', hHolds, Nat.le_refl keep, hKeep, ?_⟩
    apply hShrinking.of_iff
    intro slot
    rw [or_iff_left (not_slotsIn_self _ _ slot)]

/-
  `free_inode_blocks` frees the slots from a file block on.
  The file has no more pointers there afterwards.
-/
theorem ensures_freeInodeBlocks
    (hSane : Sane G)
    (hHolds : Holds G V s)
    (hEditing : Editing G V number file)
    {keep : Nat}
    (hKeep : keep ≤ directBlocks + G.entries) :
    Ensures stops (freeInodeBlocks file keep) s
      fun result final =>
        result.1 = true ∧
          ∃ V', Holds G V' final ∧
            Shrinking G V number file V' result.2
              (GoneFrom keep) := by
  unfold freeInodeBlocks
  simp only [ensures_bind_iff, ensures_get_iff,
    hHolds.entriesPerBlock_eq,
    if_neg (Nat.not_lt_of_le hKeep)]
  apply (hHolds.ensures_freeDirectBlocks hSane hEditing
    keep).mono
  rintro copy s₁ ⟨V₁, hHolds₁, hDirect⟩
  have hFar :
      ∀ slot, SlotsIn .direct keep (max keep directBlocks) slot →
        GoneFrom keep slot := by
    rintro slot ⟨index, rfl, hIndex, -⟩
    exact hIndex
  have hTooFar :
      ∀ index, keep ≤ index →
        ¬ SlotsIn .direct keep (max keep directBlocks)
            (.direct index) →
          V.pointer G file (.direct index) = 0 := by
    intro index hIndex hOut
    apply Volume.pointer_direct_of_le
    by_contra hNear
    exact hOut ⟨index, rfl, hIndex, by omega⟩
  have hOther :
      ∀ slot, slot = .indirect ∨ (∃ index, slot = .entry index) →
        ¬ SlotsIn .direct keep (max keep directBlocks) slot := by
    rintro slot (rfl | ⟨index, rfl⟩) ⟨place, hSlot, -⟩ <;>
      cases hSlot
  rw [ensures_ite_iff]
  constructor
  · intro hNone
    rcases updateInodeBlockCount_eq s₁ copy with ⟨count, hCount⟩
    simp only [ensures_bind_iff, ensures_get_iff, hCount,
      ensures_lift_iff, yields_ok_iff, ensures_pure_iff]
    refine ⟨trivial, V₁, hHolds₁, ?_⟩
    apply (hDirect.setBlocks count).congr hFar
    -- Without an indirect block there are no entries.
    have hOld :
        V.pointer G file .indirect = 0 := by
      rw [← hDirect.shrinks.kept _ (hOther _ (.inl rfl))]
      exact hNone
    intro slot hGone hKept
    cases slot with
    | direct index => exact hTooFar index hGone hKept
    | indirect => exact hOld
    | entry index =>
        exact Volume.pointer_entry_of_none hOld index
  intro hTwelve
  have hData : G.IsData (copy.block 12) :=
    hDirect.editing.blocksAreData.indirect hTwelve
  simp only [ensures_bind_iff, ensures_get_iff,
    hHolds₁.blockSize,
    hHolds₁.blockPtr_data hSane hData
      (Nat.le_of_eq (Nat.zero_add G.blockSize))]
  apply (hHolds₁.ensures_freeIndirectEntries hSane hDirect
    hTwelve (by omega : keep - directBlocks ≤ G.entries)).mono
  rintro _ s₂ ⟨V₂, hHolds₂, hEntries⟩
  have hEntriesGone :
      ∀ index, keep ≤ directBlocks + index →
        V₂.pointer G copy (.entry index) = 0 := by
    intro index hIndex
    by_cases hIn : index < G.entries
    · exact hEntries.shrinks.cleared _
        (.inr ⟨index, rfl, by omega, hIn⟩)
    · exact Volume.pointer_entry_of_le (by omega)
  -- Slots that were neither freed nor kept hold no pointer.
  have hEmpty :
      ∀ index, keep ≤ directBlocks + index →
        ¬ SlotsIn .entry (keep - directBlocks) G.entries
            (.entry index) →
          V.pointer G file (.entry index) = 0 := by
    intro index hIndex hOut
    apply Volume.pointer_entry_of_le
    by_contra hIn
    exact hOut ⟨index, rfl, by omega, by omega⟩
  have hEntryFar :
      ∀ slot,
        SlotsIn .entry (keep - directBlocks) G.entries slot →
          GoneFrom keep slot := by
    rintro slot ⟨index, rfl, hIndex, -⟩
    change keep ≤ directBlocks + index
    omega
  have hTwelve₂ : V₂.pointer G copy .indirect ≠ 0 := hTwelve
  rw [ensures_ite_iff]
  constructor
  · intro hAll
    rw [ensures_bind_iff]
    apply (hHolds₂.ensures_markSlot hSane hEntries.editing
      hTwelve₂).mono
    intro _ s₃ hMarked
    rcases updateInodeBlockCount_eq s₃ (copy.setBlock 12 0) with
      ⟨count, hCount⟩
    simp only [ensures_bind_iff, ensures_get_iff, hCount,
      ensures_lift_iff, yields_ok_iff, ensures_pure_iff]
    refine ⟨trivial, _, hMarked, ?_⟩
    apply ((hEntries.freeSlot hSane hTwelve₂ fun _ index =>
      hEntriesGone index (by omega)).setBlocks count).congr
    · rintro slot ((hSlot | hSlot) | rfl)
      · exact hFar slot hSlot
      · exact hEntryFar slot hSlot
      · exact hAll
    · intro slot hGone hKept
      rw [not_or, not_or] at hKept
      cases slot with
      | direct index => exact hTooFar index hGone hKept.1.1
      | indirect => exact absurd rfl hKept.2
      | entry index => exact hEmpty index hGone hKept.1.2
  · intro hSome
    rcases updateInodeBlockCount_eq s₂ copy with ⟨count, hCount⟩
    simp only [ensures_bind_iff, ensures_get_iff, hCount,
      ensures_lift_iff, yields_ok_iff, ensures_pure_iff]
    refine ⟨trivial, V₂, hHolds₂, ?_⟩
    apply (hEntries.setBlocks count).congr
    · rintro slot (hSlot | hSlot)
      · exact hFar slot hSlot
      · exact hEntryFar slot hSlot
    · intro slot hGone hKept
      rw [not_or] at hKept
      cases slot with
      | direct index => exact hTooFar index hGone hKept.1
      | indirect => exact absurd hGone hSome
      | entry index => exact hEmpty index hGone hKept.2

end Holds

end Ext2

end Whirliscope
