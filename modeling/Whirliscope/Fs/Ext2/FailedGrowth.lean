import Whirliscope.Fs.Ext2.FileContent

/-
  What a resize leaves behind when a block cannot be mapped.

  The blocks that were mapped before the failure stay in use,
  and some of them are linked from an indirect block that the
  file had. The inode on the volume is the old one. The file
  still has its bytes, and it can be edited again.

  Key definitions include:
    * `StaysUsed`
    * `Abandoned`

  Main theorems:
    * `Resized.abandoned`
    * `Abandoned.editing`, `Abandoned.intact`
    * `Abandoned.fileByte_eq`
-/

------------------------------------------------------------
-- The Volume at the Failure
------------------------------------------------------------

namespace Whirliscope

namespace Ext2

open ByteMemory FaultProgram Ownership

/- Only blocks that are not in use have new contents. -/
structure StaysUsed
    (V V' : Volume) : Prop where
  same : SameInodes V V'
  used : V'.used = V.used
  contents :
    ∀ block, V.used block = true →
      V'.contents block = V.contents block

/-
  The file was extended in a copy of its inode, and the copy
  was not written back.
-/
def Abandoned
    (G : Geometry)
    (V : Volume)
    (number : Nat)
    (file : Inode)
    (V' : Volume) : Prop :=
  ∃ reached copy,
    Editing G reached number copy ∧
      Extends G V file reached copy ∧
      StaysUsed reached V'

section

variable {G : Geometry} {V V' : Volume}
variable {number fileBlock first last newSize : Nat}
variable {file copy : Inode}

theorem StaysUsed.refl
    (V : Volume) :
    StaysUsed V V :=
  ⟨.refl V, rfl, fun _ _ => rfl⟩

/- A block that cannot be linked is free again. -/
theorem Ensured.failed
    (hEnsured :
      Ensured G V file fileBlock (none, copy) V') :
    StaysUsed V V' := by
  cases hEnsured with
  | full => exact .refl V
  | @unlinked block _ V₁ hHole hFresh hLinked =>
      have hVolume : V₁ = V.takeBlock G block := by
        cases hLinked <;> rfl
      have hSame := hLinked.sameInodes
      subst hVolume
      refine ⟨((SameInodes.takeBlock V).trans hSame).trans
        (.markBlock _ false), ?_, ?_⟩
      · rw [Volume.markBlock_used]
        change
          Function.update (V.markBlock G block true).used block
            false = V.used
        rw [Volume.markBlock_used, Function.update_idem]
        exact Function.update_eq_self_iff.mpr hFresh.2.symm
      · intro other hUsed
        have hNe : other ≠ block := by
          rintro rfl
          rw [hFresh.2] at hUsed
          cases hUsed
        rw [Volume.markBlock_contents]
        exact Volume.takeBlock_contents_of_ne hNe

/- The blocks before the failure were mapped. -/
theorem Grown.abandoned
    (hSane : Sane G)
    {result : Bool × Inode}
    (hGrown : Grown G last V file first result V')
    (hEditing : Editing G V number file)
    (hResult : result.1 = false) :
    Abandoned G V number file V' := by
  induction hGrown with
  | done => cases hResult
  | failed hMore hEnsured =>
      exact ⟨_, _, hEditing, .refl G _ _, hEnsured.failed⟩
  | step hMore hEnsured hRest ih =>
      have hNext := hEnsured.editing hSane hEditing
      rcases ih hNext hResult with
        ⟨reached, copy, hReached, hExtends, hStays⟩
      exact ⟨reached, copy, hReached,
        (hEnsured.extends hSane hEditing).trans hNext hExtends,
        hStays⟩

theorem Resized.abandoned
    (hSane : Sane G)
    (hEditing : Editing G V number file)
    (hResized :
      Resized G V number file newSize (false, copy) V') :
    Abandoned G V number file V' := by
  cases hResized with
  | tooBig =>
      exact ⟨V, file, hEditing, .refl G V file, .refl V⟩
  | full hFits hMore hGrown =>
      exact hGrown.abandoned hSane hEditing rfl

end

end Ext2

end Whirliscope

------------------------------------------------------------
-- The Old File After the Failure
------------------------------------------------------------

namespace Whirliscope

namespace Ext2

open ByteMemory FaultProgram Ownership

section

variable {G : Geometry} {V V' reached : Volume}
variable {number : Nat} {file copy : Inode}

/-
  The old inode has its own pointers and those that went into
  its indirect block.
-/
theorem StaysUsed.pointer_cases
    (hStays : StaysUsed reached V')
    (hEditing : Editing G reached number copy)
    (hExtends : Extends G V file reached copy)
    (slot : Slot) :
    V'.pointer G file slot = reached.pointer G copy slot ∨
      V'.pointer G file slot = 0 ∧
        V.pointer G file slot = 0 := by
  have hInode :
      V'.pointer G file slot = V.pointer G file slot →
        V'.pointer G file slot = reached.pointer G copy slot ∨
          V'.pointer G file slot = 0 ∧
            V.pointer G file slot = 0 := by
    intro hSame
    rw [hSame]
    by_cases hNone : V.pointer G file slot = 0
    · exact .inr ⟨hNone, hNone⟩
    · exact .inl (hExtends.pointers slot hNone).symm
  cases slot with
  | direct index => exact hInode rfl
  | indirect => exact hInode rfl
  | entry index =>
      by_cases hNone : file.block 12 = 0
      · exact .inr
          ⟨Volume.pointer_entry_of_none hNone index,
            Volume.pointer_entry_of_none hNone index⟩
      have hCopy : copy.block 12 = file.block 12 :=
        hExtends.pointers .indirect hNone
      have hSome : copy.block 12 ≠ 0 := by rwa [hCopy]
      by_cases hIndex : index < G.entries
      · left
        rw [Volume.pointer_entry hIndex hNone,
          Volume.pointer_entry hIndex hSome, hCopy,
          hStays.contents _ (hCopy ▸ hEditing.indirectUsed hSome)]
      · exact .inr
          ⟨Volume.pointer_entry_of_le (Nat.le_of_not_lt hIndex),
            Volume.pointer_entry_of_le
              (Nat.le_of_not_lt hIndex)⟩

namespace Abandoned

/- The pointers of the file stay. -/
theorem pointer_eq
    (hAbandoned : Abandoned G V number file V')
    {slot : Slot}
    (hSome : V.pointer G file slot ≠ 0) :
    V'.pointer G file slot = V.pointer G file slot := by
  rcases hAbandoned with
    ⟨reached, copy, hEditing, hExtends, hStays⟩
  rcases hStays.pointer_cases hEditing hExtends slot with
    hSame | hNone
  · exact hSame.trans (hExtends.pointers slot hSome)
  · exact absurd hNone.2 hSome

theorem inodes_eq
    (hAbandoned : Abandoned G V number file V') :
    V'.inodes = V.inodes := by
  rcases hAbandoned with ⟨reached, copy, -, hExtends, hStays⟩
  exact hStays.same.inodes.trans hExtends.same.inodes

theorem sameModes
    (hAbandoned : Abandoned G V number file V') :
    SameModes V V' := by
  rcases hAbandoned with ⟨reached, copy, -, hExtends, hStays⟩
  exact (hExtends.same.trans hStays.same).sameModes

/- The other files are not touched. -/
theorem keepsOthers
    (hEditing : Editing G V number file)
    (hAbandoned : Abandoned G V number file V') :
    KeepsOthers G V V' number := by
  rcases hAbandoned with
    ⟨reached, copy, hReached, hExtends, hStays⟩
  apply hEditing.keepsOthers
    (hStays.same.inodeUsed.trans hExtends.same.inodeUsed)
    (fun other _ =>
      congrFun (hStays.same.inodes.trans hExtends.same.inodes)
        other)
  intro block _ hUsed hSlots
  have hStill := hExtends.used block hUsed
  exact (hStays.contents block hStill).trans
    (hExtends.contents block (hStill.trans hUsed.symm)
      (hSlots .indirect).symm)

/- The file can be edited again. -/
theorem editing
    (hEditing : Editing G V number file)
    (hAbandoned : Abandoned G V number file V') :
    Editing G V' number file := by
  have hKeeps := hAbandoned.keepsOthers hEditing
  rcases hAbandoned with
    ⟨reached, copy, hReached, hExtends, hStays⟩
  have hOthers := hExtends.keepsOthers hEditing
  have hAllocated := hKeeps.allocated hEditing.allocated
  refine ⟨hAllocated, ?_, ?_⟩
  · unfold MetadataUsed
    rw [hStays.used]
    exact hReached.metadata
  · rw [hStays.used]
    apply hReached.separates.restrict
    rintro ⟨other, slot⟩ hSome
    by_cases hOther : other = number
    · subst hOther
      rw [Volume.refsWith_self hAllocated] at hSome ⊢
      rw [Volume.refsWith_self hReached.allocated]
      rcases hStays.pointer_cases hReached hExtends slot with
        hSame | hNone
      · exact hSame
      · exact absurd hNone.1 hSome
    · have hBefore :
          V'.refsWith G number file (other, slot) =
            V.refsWith G number file (other, slot) :=
        hKeeps.refsWith_of_ne hOther slot
      rw [hBefore]
      exact (hOthers.refsWith_of_ne hOther slot).symm

/- The contents of the blocks of the file stay. -/
theorem contents_fileBlock
    (hEditing : Editing G V number file)
    (hAbandoned : Abandoned G V number file V')
    {fileBlock : Nat}
    (hSome : V.fileBlock G file fileBlock ≠ 0) :
    V'.contents (V.fileBlock G file fileBlock) =
      V.contents (V.fileBlock G file fileBlock) := by
  rcases hAbandoned with
    ⟨reached, copy, hReached, hExtends, hStays⟩
  have hUsed :=
    hExtends.used (V.fileBlock G file fileBlock)
      (hEditing.used hSome)
  exact (hStays.contents _ hUsed).trans
    (hExtends.contents_fileBlock hEditing hSome).2

/- The blocks of the failed growth are clear. -/
theorem intact
    (hEditing : Editing G V number file)
    (hIntact : Intact G V file)
    (hAbandoned : Abandoned G V number file V') :
    Intact G V' file := by
  refine ⟨?_, ?_, hIntact.indirect⟩
  · intro fileBlock hNear
    have hSome := hIntact.mapped fileBlock hNear
    unfold Volume.fileBlock at hSome ⊢
    rwa [hAbandoned.pointer_eq hSome]
  · intro fileBlock hFar hNew
    by_cases hSome : V.fileBlock G file fileBlock = 0
    · rcases hAbandoned with
        ⟨reached, copy, hReached, hExtends, hStays⟩
      rcases hStays.pointer_cases hReached hExtends
          (fileSlot fileBlock) with hSame | hNone
      · unfold Volume.fileBlock at hNew hSome ⊢
        rw [hSame] at hNew ⊢
        rw [hStays.contents _ (hReached.used hNew)]
        exact hExtends.cleared _ (fileSlot_ne_indirect _) hSome
          hNew
      · exact absurd hNone.1 hNew
    · have hSame : V'.fileBlock G file fileBlock =
          V.fileBlock G file fileBlock :=
        hAbandoned.pointer_eq hSome
      rw [hSame, hAbandoned.contents_fileBlock hEditing hSome]
      exact hIntact.clear fileBlock hFar hSome

/- No byte of the file changes. -/
theorem fileByte_eq
    (hEditing : Editing G V number file)
    (hIntact : Intact G V file)
    (hAbandoned : Abandoned G V number file V')
    {offset : Nat}
    (hOffset : offset < file.size) :
    V'.fileByte G file offset = V.fileByte G file offset := by
  have hSome :
      V.fileBlock G file (offset / G.blockSize) ≠ 0 :=
    hIntact.mapped _
      (Nat.lt_of_le_of_lt (Nat.div_mul_le_self _ _) hOffset)
  apply Volume.fileByte_congr
  · exact hAbandoned.pointer_eq hSome
  · intro _
    rw [hAbandoned.contents_fileBlock hEditing hSome]

end Abandoned

end

end Ext2

end Whirliscope
