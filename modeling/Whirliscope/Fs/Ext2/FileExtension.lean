import Whirliscope.Fs.Ext2.FileGrowth

/-
  Growing a file by mapping its blocks one after the other:
  what the calls keep, what they change, and when there is
  room for them.

  Key definitions include:
    * `Extends`
    * `spaceNeeded`

  Main theorems:
    * `Ensured.editing`, `Ensured.owned`
    * `Holds.ensures_growBlocks`
-/

------------------------------------------------------------
-- The Other Files
------------------------------------------------------------

namespace Whirliscope

namespace Ext2

open ByteMemory FaultProgram Ownership

/- The other allocated inodes keep their blocks and bytes. -/
structure KeepsOthers
    (G : Geometry)
    (V V' : Volume)
    (number : Nat) : Prop where
  inodeUsed : V'.inodeUsed = V.inodeUsed
  inodes :
    ∀ other, other ≠ number →
      V'.inodes other = V.inodes other
  contents :
    ∀ other, other ≠ number → Allocated G V other →
      ∀ slot, V.pointer G (V.inodes other) slot ≠ 0 →
        V'.contents (V.pointer G (V.inodes other) slot) =
          V.contents (V.pointer G (V.inodes other) slot)

section

variable {G : Geometry} {V V' V'' : Volume}
variable {number other : Nat} {file copy : Inode}

theorem KeepsOthers.refl
    (G : Geometry)
    (V : Volume)
    (number : Nat) :
    KeepsOthers G V V number :=
  ⟨rfl, fun _ _ => rfl, fun _ _ _ _ _ => rfl⟩

theorem KeepsOthers.pointer
    (hKeeps : KeepsOthers G V V' number)
    (hOther : other ≠ number)
    (hAllocated : Allocated G V other)
    (slot : Slot) :
    V'.pointer G (V'.inodes other) slot =
      V.pointer G (V.inodes other) slot := by
  rw [hKeeps.inodes other hOther]
  apply Volume.pointer_congr fun _ _ => rfl
  exact fun hSome =>
    hKeeps.contents other hOther hAllocated .indirect hSome

/- The bytes of the other files stay. -/
theorem KeepsOthers.fileByte
    (hKeeps : KeepsOthers G V V' number)
    (hOther : other ≠ number)
    (hAllocated : Allocated G V other)
    (offset : Nat) :
    V'.fileByte G (V'.inodes other) offset =
      V.fileByte G (V.inodes other) offset := by
  unfold Volume.fileByte Volume.fileBlock
  rw [hKeeps.pointer hOther hAllocated]
  dsimp only
  split
  · rfl
  · next hSome =>
      rw [hKeeps.contents other hOther hAllocated _ hSome]

theorem KeepsOthers.trans
    (hFirst : KeepsOthers G V V' number)
    (hSecond : KeepsOthers G V' V'' number) :
    KeepsOthers G V V'' number where
  inodeUsed := hSecond.inodeUsed.trans hFirst.inodeUsed
  inodes := fun other hOther =>
    (hSecond.inodes other hOther).trans
      (hFirst.inodes other hOther)
  contents := by
    intro other hOther hAllocated slot hSome
    have hPointer := hFirst.pointer hOther hAllocated slot
    have hAllocated' : Allocated G V' other := by
      unfold Allocated
      rw [hFirst.inodeUsed]
      exact hAllocated
    have hSecond' :=
      hSecond.contents other hOther hAllocated' slot
        (by rw [hPointer]; exact hSome)
    rw [hPointer] at hSecond'
    exact hSecond'.trans
      (hFirst.contents other hOther hAllocated slot hSome)

/- Only blocks of the file or free blocks may change. -/
theorem Editing.keepsOthers
    (hEditing : Editing G V number file)
    (hUsed : V'.inodeUsed = V.inodeUsed)
    (hInodes :
      ∀ other, other ≠ number →
        V'.inodes other = V.inodes other)
    (hContents :
      ∀ block, block ≠ 0 → V.used block = true →
        (∀ slot, V.pointer G file slot ≠ block) →
          V'.contents block = V.contents block) :
    KeepsOthers G V V' number where
  inodeUsed := hUsed
  inodes := hInodes
  contents := by
    intro other hOther hAllocated slot hSome
    have hRef :
        V.refsWith G number file (other, slot) =
          V.pointer G (V.inodes other) slot := by
      rw [Volume.refsWith_of_ne hOther]
      exact if_pos hAllocated
    have hRefSome := hSome
    rw [← hRef] at hRefSome
    apply hContents _ hSome
    · rw [← hRef]
      exact hEditing.separates.inUse _ hRefSome
    · intro place hPlace
      rw [← hRef,
        ← Volume.refsWith_self hEditing.allocated] at hPlace
      exact hOther
        (congrArg Prod.fst
          (hEditing.separates.unique _ _ hRefSome
            hPlace.symm))

/- The pointers of the other files stay as they are. -/
theorem KeepsOthers.refsWith_of_ne
    (hKeeps : KeepsOthers G V V' number)
    (hOther : other ≠ number)
    (slot : Slot) :
    V'.refsWith G number copy (other, slot) =
      V.refsWith G number file (other, slot) := by
  have hIff : Allocated G V' other ↔ Allocated G V other := by
    unfold Allocated
    rw [hKeeps.inodeUsed]
  rw [Volume.refsWith_of_ne hOther,
    Volume.refsWith_of_ne hOther]
  unfold Volume.refs
  dsimp only
  by_cases hAllocated : Allocated G V other
  · rw [if_pos (hIff.mpr hAllocated), if_pos hAllocated]
    exact hKeeps.pointer hOther hAllocated slot
  · rw [if_neg fun h => hAllocated (hIff.mp h),
      if_neg hAllocated]

theorem KeepsOthers.allocated
    (hKeeps : KeepsOthers G V V' number)
    (hAllocated : Allocated G V other) :
    Allocated G V' other := by
  unfold Allocated
  rw [hKeeps.inodeUsed]
  exact hAllocated

/- The pointers of the file stay as well. -/
theorem KeepsOthers.refsWith_eq
    (hKeeps : KeepsOthers G V V' number)
    (hAllocated : Allocated G V number)
    (hPointers :
      ∀ slot,
        V'.pointer G copy slot = V.pointer G file slot) :
    V'.refsWith G number copy = V.refsWith G number file := by
  funext ref
  rcases ref with ⟨other, slot⟩
  by_cases hOther : other = number
  · rw [hOther,
      Volume.refsWith_self (hKeeps.allocated hAllocated),
      Volume.refsWith_self hAllocated]
    exact hPointers slot
  · exact hKeeps.refsWith_of_ne hOther slot

theorem Editing.transport
    (hEditing : Editing G V number file)
    (hKeeps : KeepsOthers G V V' number)
    (hUsed : V'.used = V.used)
    (hPointers :
      ∀ slot,
        V'.pointer G copy slot = V.pointer G file slot) :
    Editing G V' number copy where
  allocated := hKeeps.allocated hEditing.allocated
  metadata := by
    unfold MetadataUsed
    rw [hUsed]
    exact hEditing.metadata
  separates := by
    rw [hKeeps.refsWith_eq hEditing.allocated hPointers, hUsed]
    exact hEditing.separates

theorem Owned.transport
    (hOwned :
      Owned G V (Function.update V.inodes number file))
    (hAllocated : Allocated G V number)
    (hKeeps : KeepsOthers G V V' number)
    (hUsed : V'.used = V.used)
    (hPointers :
      ∀ slot,
        V'.pointer G copy slot = V.pointer G file slot) :
    Owned G V' (Function.update V'.inodes number copy) := by
  change Owns _ _ _ (V'.refsWith G number copy)
  rw [hKeeps.refsWith_eq hAllocated hPointers, hUsed]
  exact hOwned

end

end Ext2

end Whirliscope

------------------------------------------------------------
-- Owners After a Link
------------------------------------------------------------

namespace Whirliscope

namespace Ext2

open ByteMemory FaultProgram Ownership

section

variable {G : Geometry} {V V' : Volume} {number : Nat}
variable {file copy : Inode} {fileBlock block : Nat}

theorem Editing.refsWith_indirect
    (hEditing : Editing G V number file) :
    V.refsWith G number file (number, .indirect) =
      file.block 12 :=
  Volume.refsWith_self hEditing.allocated .indirect

theorem Editing.indirectUsed
    (hEditing : Editing G V number file)
    (hSome : file.block 12 ≠ 0) :
    V.used (file.block 12) = true := by
  rw [← hEditing.refsWith_indirect] at hSome ⊢
  exact hEditing.separates.inUse _ hSome

theorem Linked.keepsOthers
    (hSane : Sane G)
    (hEditing : Editing G V number file)
    (hFresh : Fresh G V block)
    (hLinked :
      Linked G (V.takeBlock G block) file fileBlock block
        (true, copy) V') :
    KeepsOthers G V V' number := by
  have hSame :=
    (SameInodes.takeBlock V).trans hLinked.sameInodes
  apply hEditing.keepsOthers hSame.inodeUsed
    fun other _ => congrFun hSame.inodes other
  intro other _ hInUse hSlots
  have hBlock := hFresh.ne_of_used hInUse
  apply hLinked.contents hSane hBlock
  rcases hLinked.taken hSane with
    ⟨hTwelve, -⟩ | ⟨-, -, hIndirect, -⟩
  · rw [hTwelve]
    exact (hSlots .indirect).symm
  · apply hIndirect.ne_of_used
    rw [Volume.takeBlock_used, Function.update_of_ne hBlock]
    exact hInUse

/-
  A link assigns the slot of the file block, and the slot of
  the indirect block when there was none.
-/
theorem Linked.refsWith_eq
    (hSane : Sane G)
    (hEditing : Editing G V number file)
    (hFresh : Fresh G V block)
    (hLinked :
      Linked G (V.takeBlock G block) file fileBlock block
        (true, copy) V') :
    V'.refsWith G number copy =
      Function.update
        (Function.update (V.refsWith G number file)
          (number, .indirect) (copy.block 12))
        (number, fileSlot fileBlock) block := by
  have hKeeps := hLinked.keepsOthers hSane hEditing hFresh
  funext ref
  rcases ref with ⟨other, slot⟩
  by_cases hNumber : other = number
  · rw [hNumber,
      Volume.refsWith_self
        (hKeeps.allocated hEditing.allocated),
      hLinked.pointer hSane hFresh hEditing.indirectUsed]
    by_cases hSlot : slot = fileSlot fileBlock
    · rw [if_pos hSlot, hSlot, Function.update_self]
    · rw [if_neg hSlot, Function.update_of_ne (by
        simpa using hSlot)]
      by_cases hIndirect : slot = .indirect
      · rw [if_pos hIndirect, hIndirect, Function.update_self]
      · rw [if_neg hIndirect, Function.update_of_ne (by
          simpa using hIndirect)]
        exact (Volume.refsWith_self hEditing.allocated _).symm
  · rw [Function.update_of_ne (by simp [hNumber]),
      Function.update_of_ne (by simp [hNumber])]
    exact hKeeps.refsWith_of_ne hNumber slot

/-
  The units that a link assigns: the block, and a new indirect
  block when it is needed.
-/
theorem Linked.assigns
    (hSane : Sane G)
    (hEditing : Editing G V number file)
    (hFresh : Fresh G V block)
    (hLinked :
      Linked G (V.takeBlock G block) file fileBlock block
        (true, copy) V') :
    V'.used = Function.update V.used block true ∧
        V'.refsWith G number copy =
          Function.update (V.refsWith G number file)
            (number, fileSlot fileBlock) block ∨
      ∃ indirect,
        Fresh G V indirect ∧ block ≠ indirect ∧
          V.refsWith G number file (number, .indirect) = 0 ∧
          V'.used =
            Function.update
              (Function.update V.used indirect true)
              block true ∧
          V'.refsWith G number copy =
            Function.update
              (Function.update (V.refsWith G number file)
                (number, .indirect) indirect)
              (number, fileSlot fileBlock) block := by
  have hRefs :=
    hLinked.refsWith_eq hSane hEditing hFresh
  have hUsed :
      (V.takeBlock G block).used =
        Function.update V.used block true :=
    Volume.takeBlock_used
  rcases hLinked.taken hSane with
    ⟨hTwelve, hTaken, -, -⟩ |
      ⟨hNone, -, hIndirect, hTaken, -⟩
  · left
    refine ⟨hTaken.trans hUsed, ?_⟩
    rw [hRefs, hTwelve, ← hEditing.refsWith_indirect,
      Function.update_eq_self]
  · right
    have hNe : block ≠ copy.block 12 :=
      hIndirect.ne_of_used (by rw [hUsed, Function.update_self])
    have hFree : V.used (copy.block 12) = false := by
      have hAfter := hIndirect.2
      rw [hUsed, Function.update_of_ne hNe.symm] at hAfter
      exact hAfter
    refine
      ⟨copy.block 12, ⟨hIndirect.1, hFree⟩, hNe,
        hEditing.refsWith_indirect.trans hNone, ?_, hRefs⟩
    rw [hTaken, hUsed, Function.update_comm hNe]

/- No block gets a second owner. -/
theorem Linked.editing
    (hSane : Sane G)
    (hEditing : Editing G V number file)
    (hFresh : Fresh G V block)
    (hLinked :
      Linked G (V.takeBlock G block) file fileBlock block
        (true, copy) V') :
    Editing G V' number copy where
  allocated :=
    (((SameInodes.takeBlock V).trans
      hLinked.sameInodes).allocated_iff number).mpr
        hEditing.allocated
  metadata := by
    intro other hTracked hMeta
    have hUsed := hEditing.metadata other hTracked hMeta
    have hUpdate :
        ∀ (used : Nat → Bool) (unit : Nat),
          used other = true →
            Function.update used unit true other = true := by
      intro used unit hBefore
      by_cases hSame : other = unit
      · rw [hSame, Function.update_self]
      · rw [Function.update_of_ne hSame]
        exact hBefore
    rcases hLinked.assigns hSane hEditing hFresh with
      ⟨hTaken, -⟩ | ⟨indirect, -, -, -, hTaken, -⟩
    · rw [hTaken]
      exact hUpdate _ _ hUsed
    · rw [hTaken]
      exact hUpdate _ _ (hUpdate _ _ hUsed)
  separates := by
    rcases hLinked.assigns hSane hEditing hFresh with
      ⟨hTaken, hRefs⟩ |
        ⟨indirect, hIndirect, hNe, -, hTaken, hRefs⟩
    · rw [hRefs, hTaken]
      exact hEditing.separates.assign hFresh.1 hFresh.2 _
    · rw [hRefs, hTaken]
      apply (hEditing.separates.assign hIndirect.1 hIndirect.2
        _).assign hFresh.1
      rw [Function.update_of_ne hNe]
      exact hFresh.2

/- No block is left without an owner. -/
theorem Linked.owned
    (hSane : Sane G)
    (hEditing : Editing G V number file)
    (hFresh : Fresh G V block)
    (hLinked :
      Linked G (V.takeBlock G block) file fileBlock block
        (true, copy) V')
    (hHole : V.fileBlock G file fileBlock = 0)
    (hOwned :
      Owned G V (Function.update V.inodes number file)) :
    Owned G V' (Function.update V'.inodes number copy) := by
  have hSlot :
      V.refsWith G number file (number, fileSlot fileBlock) =
        0 :=
    (Volume.refsWith_self hEditing.allocated _).trans hHole
  rcases hLinked.assigns hSane hEditing hFresh with
    ⟨hTaken, hRefs⟩ |
      ⟨indirect, hIndirect, hNe, hNone, hTaken, hRefs⟩
  · change Owns _ _ _ (V'.refsWith G number copy)
    rw [hRefs, hTaken]
    exact Owns.assign hOwned hFresh.1 hFresh.2 hSlot
  · change Owns _ _ _ (V'.refsWith G number copy)
    rw [hRefs, hTaken]
    apply (Owns.assign hOwned hIndirect.1 hIndirect.2
      hNone).assign hFresh.1
    · rw [Function.update_of_ne hNe]
      exact hFresh.2
    · rw [Function.update_of_ne (by
        simpa using fileSlot_ne_indirect fileBlock)]
      exact hSlot

end

end Ext2

end Whirliscope

------------------------------------------------------------
-- What Growing Keeps
------------------------------------------------------------

namespace Whirliscope

namespace Ext2

open ByteMemory FaultProgram Ownership

/-
  A file after some of its blocks were mapped. The old
  pointers stay, and the new blocks were free. Only the
  indirect block and the new blocks have new contents.
-/
structure Extends
    (G : Geometry)
    (V : Volume)
    (file : Inode)
    (V' : Volume)
    (copy : Inode) : Prop where
  same : SameInodes V V'
  header : SameHeader file copy
  used :
    ∀ block, V.used block = true → V'.used block = true
  new :
    ∀ block, V'.used block = true →
      V.used block = true ∨
        block ≠ 0 ∧ ∃ slot, V'.pointer G copy slot = block
  contents :
    ∀ block, V'.used block = V.used block →
      block ≠ file.block 12 →
        V'.contents block = V.contents block
  pointers :
    ∀ slot, V.pointer G file slot ≠ 0 →
      V'.pointer G copy slot = V.pointer G file slot
  fresh :
    ∀ slot, V.pointer G file slot = 0 →
      V'.pointer G copy slot ≠ 0 →
        V.used (V'.pointer G copy slot) = false
  cleared :
    ∀ slot, slot ≠ .indirect →
      V.pointer G file slot = 0 →
        V'.pointer G copy slot ≠ 0 →
          V'.contents (V'.pointer G copy slot) = zeros

section

variable {G : Geometry} {V V' V'' : Volume} {number : Nat}
variable {file copy last : Inode} {fileBlock block : Nat}

theorem Extends.refl
    (G : Geometry)
    (V : Volume)
    (file : Inode) :
    Extends G V file V file where
  same := .refl V
  header := .refl file
  used := fun _ hUsed => hUsed
  new := fun _ hUsed => .inl hUsed
  contents := fun _ _ _ => rfl
  pointers := fun _ _ => rfl
  fresh := fun _ hNone hSome => absurd hNone hSome
  cleared := fun _ _ hNone hSome => absurd hNone hSome

theorem Extends.trans
    (hMiddle : Editing G V' number copy)
    (hFirst : Extends G V file V' copy)
    (hSecond : Extends G V' copy V'' last) :
    Extends G V file V'' last where
  same := hFirst.same.trans hSecond.same
  header := hFirst.header.trans hSecond.header
  used := fun block hUsed =>
    hSecond.used block (hFirst.used block hUsed)
  new := by
    intro block hUsed
    rcases hSecond.new block hUsed with hOld | hNew
    · rcases hFirst.new block hOld with
        hOlder | ⟨hSome, slot, hSlot⟩
      · exact .inl hOlder
      · rw [← hSlot] at hSome ⊢
        exact .inr ⟨hSome, slot, hSecond.pointers slot hSome⟩
    · exact .inr hNew
  contents := by
    intro block hUsed hBlock
    have hMid : V'.used block = V.used block := by
      cases hOld : V.used block with
      | true => exact hFirst.used block hOld
      | false =>
          rw [hOld] at hUsed
          by_contra hTaken
          rw [Bool.not_eq_false] at hTaken
          rw [hSecond.used block hTaken] at hUsed
          cases hUsed
    -- A new indirect block was free, so it is not this block.
    have hCopy : block ≠ copy.block 12 := by
      intro hSame
      by_cases hNone : file.block 12 = 0
      · have hSome : copy.block 12 ≠ 0 := by
          rw [← hSame, ← hNone]
          exact hBlock
        have hFree := hFirst.fresh .indirect hNone hSome
        have hTaken := hMiddle.indirectUsed hSome
        rw [Volume.pointer_indirect, ← hSame, ← hMid] at hFree
        rw [← hSame, hFree] at hTaken
        cases hTaken
      · exact hBlock
          (hSame.trans (hFirst.pointers .indirect hNone))
    exact (hSecond.contents block (hUsed.trans hMid.symm)
      hCopy).trans (hFirst.contents block hMid hBlock)
  pointers := by
    intro slot hSome
    have hFirst' := hFirst.pointers slot hSome
    rw [← hFirst'] at hSome ⊢
    exact hSecond.pointers slot hSome
  fresh := by
    intro slot hNone hSome
    by_cases hMid : V'.pointer G copy slot = 0
    · by_contra hTaken
      rw [Bool.not_eq_false] at hTaken
      have hFree := hSecond.fresh slot hMid hSome
      rw [hFirst.used _ hTaken] at hFree
      cases hFree
    · rw [hSecond.pointers slot hMid]
      exact hFirst.fresh slot hNone hMid
  cleared := by
    intro slot hSlot hNone hSome
    by_cases hMid : V'.pointer G copy slot = 0
    · exact hSecond.cleared slot hSlot hMid hSome
    · have hUsed := hMiddle.used hMid
      have hOther :
          V'.pointer G copy slot ≠ copy.block 12 := fun hSame =>
        hSlot
          (@Editing.pointer_injective _ _ _ _ hMiddle slot
            .indirect hMid hSame)
      rw [hSecond.pointers slot hMid,
        hSecond.contents _
          ((hSecond.used _ hUsed).trans hUsed.symm) hOther]
      exact hFirst.cleared slot hSlot hNone hMid

/- The blocks in use after a link. -/
theorem Linked.used_iff
    (hSane : Sane G)
    (hLinked :
      Linked G (V.takeBlock G block) file fileBlock block
        (true, copy) V')
    (other : Nat) :
    V'.used other = true ↔
      V.used other = true ∨ other = block ∨
        file.block 12 = 0 ∧ copy.block 12 ≠ 0 ∧
          other = copy.block 12 := by
  have hUpdate :
      ∀ (used : Nat → Bool) (unit : Nat),
        Function.update used unit true other = true ↔
          used other = true ∨ other = unit := by
    intro used unit
    by_cases hSame : other = unit
    · simp [hSame]
    · simp [hSame]
  rcases hLinked.taken hSane with
    ⟨hTwelve, hTaken, -, -⟩ |
      ⟨hNone, -, hIndirect, hTaken, -⟩
  · rw [hTaken, Volume.takeBlock_used, hUpdate, hTwelve]
    constructor
    · rintro (hOld | hBlock)
      · exact .inl hOld
      · exact .inr (.inl hBlock)
    · rintro (hOld | hBlock | ⟨hNone, hSome, -⟩)
      · exact .inl hOld
      · exact .inr hBlock
      · exact absurd hNone hSome
  · have hSome : copy.block 12 ≠ 0 :=
      Nat.ne_of_gt (hSane.pos_of_isData hIndirect.1)
    rw [hTaken, hUpdate, Volume.takeBlock_used, hUpdate,
      or_assoc]
    simp only [hNone, hSome, ne_eq, not_false_eq_true,
      true_and]

/- A new indirect block was free. -/
theorem Linked.indirect_free
    (hSane : Sane G)
    (hLinked :
      Linked G (V.takeBlock G block) file fileBlock block
        (true, copy) V')
    (hNone : file.block 12 = 0)
    (hSome : copy.block 12 ≠ 0) :
    V.used (copy.block 12) = false := by
  rcases hLinked.taken hSane with
    ⟨hTwelve, -⟩ | ⟨-, -, hIndirect, -⟩
  · exact absurd (hTwelve.trans hNone) hSome
  · have hFree := hIndirect.2
    rw [Volume.takeBlock_used] at hFree
    by_contra hUsed
    rw [Bool.not_eq_false] at hUsed
    by_cases hSame : copy.block 12 = block
    · rw [hSame, Function.update_self] at hFree
      cases hFree
    · rw [Function.update_of_ne hSame, hUsed] at hFree
      cases hFree

/- A link extends the file by a clear block. -/
theorem Linked.extends
    (hSane : Sane G)
    (hEditing : Editing G V number file)
    (hFresh : Fresh G V block)
    (hLinked :
      Linked G (V.takeBlock G block) file fileBlock block
        (true, copy) V')
    (hHole : V.fileBlock G file fileBlock = 0) :
    Extends G V file V' copy := by
  have hPointer :=
    hLinked.pointer hSane hFresh hEditing.indirectUsed
  have hUsed := hLinked.used_iff hSane
  have hSome : block ≠ 0 :=
    Nat.ne_of_gt (hSane.pos_of_isData hFresh.1)
  -- The indirect block stays, or there was none.
  have hTwelve :
      file.block 12 ≠ 0 →
        copy.block 12 = file.block 12 := by
    intro hOld
    rcases hLinked.taken hSane with
      ⟨hSame, -⟩ | ⟨hNone, -⟩
    · exact hSame
    · exact absurd hNone hOld
  have hTaken :
      ∀ other, V.used other = false →
        V'.used other = true →
          V'.used other ≠ V.used other := by
    intro other hFree hInUse hSame
    rw [hFree, hInUse] at hSame
    cases hSame
  constructor
  · exact (SameInodes.takeBlock V).trans hLinked.sameInodes
  · exact hLinked.sameHeader
  · exact fun other hInUse => (hUsed other).mpr (.inl hInUse)
  · intro other hInUse
    rcases (hUsed other).mp hInUse with
      hOld | rfl | ⟨-, hNew, rfl⟩
    · exact .inl hOld
    · refine .inr ⟨hSome, fileSlot fileBlock, ?_⟩
      rw [hPointer, if_pos rfl]
    · exact .inr ⟨hNew, .indirect, rfl⟩
  · intro other hSame hOther
    apply hLinked.contents hSane
    · rintro rfl
      exact hTaken _ hFresh.2
        ((hUsed _).mpr (.inr (.inl rfl))) hSame
    · rintro rfl
      by_cases hNone : file.block 12 = 0
      · rw [hNone] at hOther
        exact hTaken _
          (hLinked.indirect_free hSane hNone hOther)
          ((hUsed _).mpr (.inr (.inr ⟨hNone, hOther, rfl⟩)))
          hSame
      · exact hOther (hTwelve hNone)
  · intro slot hOld
    have hSlot : slot ≠ fileSlot fileBlock := by
      rintro rfl
      exact hOld hHole
    rw [hPointer, if_neg hSlot]
    by_cases hIndirect : slot = .indirect
    · rw [if_pos hIndirect]
      rw [hIndirect] at hOld ⊢
      exact hTwelve hOld
    · rw [if_neg hIndirect]
  · intro slot hNone hNew
    rw [hPointer] at hNew ⊢
    by_cases hSlot : slot = fileSlot fileBlock
    · rw [if_pos hSlot]
      exact hFresh.2
    · rw [if_neg hSlot] at hNew ⊢
      by_cases hIndirect : slot = .indirect
      · rw [if_pos hIndirect] at hNew ⊢
        rw [hIndirect] at hNone
        exact hLinked.indirect_free hSane hNone hNew
      · rw [if_neg hIndirect] at hNew
        exact absurd hNone hNew
  · intro slot hIndirect hNone hNew
    rw [hPointer] at hNew ⊢
    by_cases hSlot : slot = fileSlot fileBlock
    · rw [if_pos hSlot]
      exact hLinked.cleared hFresh hEditing.indirectUsed
    · rw [if_neg hSlot, if_neg hIndirect] at hNew
      exact absurd hNone hNew

theorem Extends.keepsOthers
    (hEditing : Editing G V number file)
    (hExtends : Extends G V file V' copy) :
    KeepsOthers G V V' number :=
  hEditing.keepsOthers hExtends.same.inodeUsed
    (fun other _ => congrFun hExtends.same.inodes other)
    fun block _ hUsed hSlots =>
      hExtends.contents block
        ((hExtends.used block hUsed).trans hUsed.symm)
        (hSlots .indirect).symm

end

end Ext2

end Whirliscope

------------------------------------------------------------
-- One Block of a File
------------------------------------------------------------

namespace Whirliscope

namespace Ext2

open ByteMemory FaultProgram Ownership Vacancy

section

variable {G : Geometry} {V V' : Volume} {number : Nat}
variable {file copy other : Inode} {fileBlock block : Nat}

/- Only the block numbers of an inode matter for pointers. -/
theorem Volume.pointer_of_blocks
    (hBlocks : ∀ i, i ≤ 12 → other.block i = copy.block i)
    (slot : Slot) :
    V.pointer G other slot = V.pointer G copy slot :=
  Volume.pointer_congr hBlocks (fun _ => rfl) slot

theorem Volume.refsWith_of_pointers
    (hPointers :
      ∀ slot, V.pointer G other slot = V.pointer G copy slot) :
    V.refsWith G number other = V.refsWith G number copy := by
  funext ref
  rcases ref with ⟨owner, slot⟩
  by_cases hOwner : owner = number
  · rw [hOwner]
    unfold Volume.refsWith Volume.refs
    rw [Function.update_self, Function.update_self,
      hPointers]
  · rw [Volume.refsWith_of_ne hOwner,
      Volume.refsWith_of_ne hOwner]

theorem Editing.congr
    (hEditing : Editing G V number copy)
    (hPointers :
      ∀ slot, V.pointer G other slot = V.pointer G copy slot) :
    Editing G V number other where
  allocated := hEditing.allocated
  metadata := hEditing.metadata
  separates := by
    rw [Volume.refsWith_of_pointers hPointers]
    exact hEditing.separates

theorem Owned.congr
    (hOwned :
      Owned G V (Function.update V.inodes number copy))
    (hPointers :
      ∀ slot, V.pointer G other slot = V.pointer G copy slot) :
    Owned G V (Function.update V.inodes number other) := by
  change Owns _ _ _ (V.refsWith G number other)
  rw [Volume.refsWith_of_pointers hPointers]
  exact hOwned

theorem Extends.congr
    (hExtends : Extends G V file V' copy)
    (hHeader : SameHeader copy other)
    (hPointers :
      ∀ slot,
        V'.pointer G other slot = V'.pointer G copy slot) :
    Extends G V file V' other where
  same := hExtends.same
  header := hExtends.header.trans hHeader
  used := hExtends.used
  new := by
    simp only [hPointers]
    exact hExtends.new
  contents := hExtends.contents
  pointers := by
    simp only [hPointers]
    exact hExtends.pointers
  fresh := by
    simp only [hPointers]
    exact hExtends.fresh
  cleared := by
    simp only [hPointers]
    exact hExtends.cleared

theorem Volume.pointer_setBlocks
    (copy : Inode)
    (count : Nat)
    (slot : Slot) :
    V.pointer G (copy.setBlocks count) slot =
      V.pointer G copy slot :=
  Volume.pointer_of_blocks
    (fun _ hIndex => Inode.block_setBlocks copy (by omega) count)
    slot

/- A file block that is mapped when the call returns. -/
theorem Ensured.editing
    (hSane : Sane G)
    (hEditing : Editing G V number file)
    (hEnsured :
      Ensured G V file fileBlock (some block, copy) V') :
    Editing G V' number copy := by
  cases hEnsured with
  | mapped => exact hEditing
  | linked count hHole hFresh hLinked =>
      exact (hLinked.editing hSane hEditing hFresh).congr
        (Volume.pointer_setBlocks _ count)

theorem Ensured.owned
    (hSane : Sane G)
    (hEditing : Editing G V number file)
    (hEnsured :
      Ensured G V file fileBlock (some block, copy) V')
    (hOwned :
      Owned G V (Function.update V.inodes number file)) :
    Owned G V' (Function.update V'.inodes number copy) := by
  cases hEnsured with
  | mapped => exact hOwned
  | linked count hHole hFresh hLinked =>
      exact (hLinked.owned hSane hEditing hFresh hHole
        hOwned).congr (Volume.pointer_setBlocks _ count)

theorem Ensured.extends
    (hSane : Sane G)
    (hEditing : Editing G V number file)
    (hEnsured :
      Ensured G V file fileBlock (some block, copy) V') :
    Extends G V file V' copy := by
  cases hEnsured with
  | mapped => exact .refl G V file
  | linked count hHole hFresh hLinked =>
      exact (hLinked.extends hSane hEditing hFresh
        hHole).congr (.setBlocks _ count)
          (Volume.pointer_setBlocks _ count)

theorem Ensured.fileBlock_eq
    (hSane : Sane G)
    (hEditing : Editing G V number file)
    (hEnsured :
      Ensured G V file fileBlock (some block, copy) V') :
    V'.fileBlock G copy fileBlock = block ∧ block ≠ 0 := by
  cases hEnsured with
  | mapped hMapped => exact ⟨rfl, hMapped⟩
  | linked count hHole hFresh hLinked =>
      refine ⟨?_,
        Nat.ne_of_gt (hSane.pos_of_isData hFresh.1)⟩
      unfold Volume.fileBlock
      rw [Volume.pointer_setBlocks,
        hLinked.pointer hSane hFresh hEditing.indirectUsed,
        if_pos rfl]

theorem Ensured.sameInodes
    {result : Option Nat}
    (hEnsured :
      Ensured G V file fileBlock (result, copy) V') :
    SameInodes V V' := by
  cases hEnsured with
  | mapped => exact .refl V
  | linked count hHole hFresh hLinked =>
      exact (SameInodes.takeBlock V).trans hLinked.sameInodes
  | full => exact .refl V
  | unlinked hHole hFresh hLinked =>
      exact ((SameInodes.takeBlock V).trans
        hLinked.sameInodes).trans (.markBlock _ false)

theorem BlockCounts.takeBlock
    (hSane : Sane G)
    (hCounts : BlockCounts G V)
    (hFresh : Fresh G V block) :
    BlockCounts G (V.takeBlock G block) := by
  have hMarked := hCounts.markBlock hSane hFresh.1.1 true
  exact ⟨hMarked.total, hMarked.group⟩

/- Taking a block leaves one free block less. -/
theorem BlockCounts.freeBlocks_takeBlock
    (hCounts : BlockCounts G V)
    (hFresh : Fresh G V block) :
    (V.takeBlock G block).freeBlocks + 1 = V.freeBlocks := by
  have hPos : 0 < V.freeBlocks := by
    rw [hCounts.total]
    exact card_vacant_pos
      (Geometry.mem_blocks.mpr hFresh.1.1) hFresh.2
  have hFree : ¬ V.used block = true := by
    rw [hFresh.2]
    exact Bool.false_ne_true
  have hTaken :
      (V.takeBlock G block).freeBlocks = V.freeBlocks - 1 := by
    unfold Volume.takeBlock Volume.markBlock
    rw [if_neg hFree]
    rfl
  omega

/- The free counts stay true, whatever the result. -/
theorem Linked.counts
    (hSane : Sane G)
    {linked : Bool}
    (hLinked :
      Linked G V file fileBlock block (linked, copy) V')
    (hCounts : BlockCounts G V) :
    BlockCounts G V' := by
  cases hLinked with
  | direct => exact hCounts
  | entry => exact ⟨hCounts.total, hCounts.group⟩
  | indirect hFar hEntry hNone hFresh =>
      have hTaken := hCounts.takeBlock hSane hFresh
      exact ⟨hTaken.total, hTaken.group⟩
  | full => exact hCounts
  | tooFar => exact hCounts

theorem Ensured.counts
    (hSane : Sane G)
    {result : Option Nat}
    (hEnsured :
      Ensured G V file fileBlock (result, copy) V')
    (hCounts : BlockCounts G V) :
    BlockCounts G V' := by
  cases hEnsured with
  | mapped => exact hCounts
  | linked count hHole hFresh hLinked =>
      exact hLinked.counts hSane
        (hCounts.takeBlock hSane hFresh)
  | full => exact hCounts
  | unlinked hHole hFresh hLinked =>
      exact (hLinked.counts hSane
        (hCounts.takeBlock hSane hFresh)).markBlock hSane
          hFresh.1.1 false

/- The blocks that mapping a block of a file takes. -/
def mapCost
    (file : Inode)
    (fileBlock : Nat) : Nat :=
  if directBlocks ≤ fileBlock ∧ file.block 12 = 0 then 2
  else 1

/- A hole is filled exactly when there is room for it. -/
theorem Ensured.account
    (hSane : Sane G)
    (hCounts : BlockCounts G V)
    (hHole : V.fileBlock G file fileBlock = 0)
    (hNear : fileBlock < directBlocks + G.entries)
    {result : Option Nat}
    (hEnsured :
      Ensured G V file fileBlock (result, copy) V') :
    match result with
    | some _ =>
        V'.freeBlocks + mapCost file fileBlock =
          V.freeBlocks
    | none => V.freeBlocks < mapCost file fileBlock := by
  have hPos : 0 < mapCost file fileBlock := by
    unfold mapCost
    split <;> omega
  cases hEnsured with
  | mapped hMapped => exact absurd hHole hMapped
  | full hHole hFull =>
      have hNone := (hCounts.exhausted_iff hSane).mp hFull
      rw [hNone]
      exact hPos
  | linked count hHole hFresh hLinked =>
      have hOne := hCounts.freeBlocks_takeBlock hFresh
      have hTaken := hCounts.takeBlock hSane hFresh
      dsimp only
      unfold mapCost
      rcases hLinked.taken hSane with
        ⟨-, -, hFree, hSome⟩ | ⟨hNone, hFar, hFresh', -, hFree⟩
      · rw [if_neg fun hBoth =>
          absurd (hSome hBoth.2) (Nat.not_lt_of_le hBoth.1)]
        omega
      · have hTwo := hTaken.freeBlocks_takeBlock hFresh'
        rw [if_pos ⟨hFar, hNone⟩]
        omega
  | unlinked hHole hFresh hLinked =>
      have hOne := hCounts.freeBlocks_takeBlock hFresh
      have hTaken := hCounts.takeBlock hSane hFresh
      cases hLinked with
      | full hFar hEntry hNone hFull =>
          have hEmpty := (hTaken.exhausted_iff hSane).mp hFull
          unfold mapCost
          rw [if_pos ⟨hFar, hNone⟩]
          omega
      | tooFar hFar hEntry => omega

end

end Ext2

end Whirliscope

------------------------------------------------------------
-- The Growing Loop
------------------------------------------------------------

namespace Whirliscope

namespace Ext2

open ByteMemory FaultProgram Ownership Vacancy

/-
  All that the growing loop can do from a file block on: it
  reaches the last block, or a block cannot be mapped.
-/
inductive Grown
    (G : Geometry)
    (last : Nat) :
    Volume → Inode → Nat → Bool × Inode → Volume → Prop
| done
    {V : Volume}
    {file : Inode}
    {index : Nat}
    (hDone : last ≤ index) :
    Grown G last V file index (true, file) V
| failed
    {V V' : Volume}
    {file copy : Inode}
    {index : Nat}
    (hMore : index < last)
    (hEnsured : Ensured G V file index (none, copy) V') :
    Grown G last V file index (false, copy) V'
| step
    {V V₁ V' : Volume}
    {file copy : Inode}
    {index block : Nat}
    {result : Bool × Inode}
    (hMore : index < last)
    (hEnsured :
      Ensured G V file index (some block, copy) V₁)
    (hRest : Grown G last V₁ copy (index + 1) result V') :
    Grown G last V file index result V'

section

variable {G : Geometry} {V V' : Volume} {number : Nat}
variable {file copy : Inode} {first last : Nat}

theorem Holds.ensures_growBlocks
    {stops : Fault → Prop}
    {s : State}
    (hSane : Sane G)
    (hHolds : Holds G V s)
    (hEditing : Editing G V number file)
    {fuel : Nat}
    (hFuel : last < fuel) :
    Ensures stops
      (loop (throw .noReturn) (growBlock last) fuel
        (first, file))
      s
      fun result final =>
        ∃ V', Holds G V' final ∧
          Grown G last V file first result V' := by
  apply ensures_loop_measure
    (fun state : Nat × Inode => last - state.1)
    fun state final =>
      ∃ V₁, Holds G V₁ final ∧
        Editing G V₁ number state.2 ∧
        ∀ result V',
          Grown G last V₁ state.2 state.1 result V' →
            Grown G last V file first result V'
  · rintro ⟨index, copy⟩ state ⟨V₁, hHolds₁, hEditing₁, hRest⟩
    dsimp only at hRest hEditing₁ ⊢
    unfold growBlock
    rw [ensures_ite_iff]
    constructor
    · intro hDone
      rw [ensures_pure_iff]
      exact ⟨V₁, hHolds₁, hRest _ _ (.done hDone)⟩
    intro hMore'
    have hMore : index < last := by omega
    rw [ensures_bind_iff]
    apply (hHolds₁.ensures_ensureFileBlock hSane
      hEditing₁.metadata hEditing₁.blocksAreData.indirect
      index).mono
    rintro ⟨mapped, next⟩ final ⟨V₂, hHolds₂, hEnsured⟩
    cases mapped with
    | none =>
        simp only [Option.isNone_none, if_true,
          ensures_pure_iff]
        exact ⟨V₂, hHolds₂, hRest _ _ (.failed hMore hEnsured)⟩
    | some block =>
        simp only [Option.isNone_some, Bool.false_eq_true,
          if_false, ensures_pure_iff]
        refine ⟨by omega, V₂, hHolds₂,
          hEnsured.editing hSane hEditing₁, ?_⟩
        intro result V' hGrown
        exact hRest _ _ (.step hMore hEnsured hGrown)
  · dsimp only
    omega
  · exact ⟨V, hHolds, hEditing, fun _ _ hGrown => hGrown⟩

theorem Grown.sameInodes
    {result : Bool × Inode}
    (hGrown : Grown G last V file first result V') :
    SameInodes V V' := by
  induction hGrown with
  | done => exact .refl _
  | failed hMore hEnsured => exact hEnsured.sameInodes
  | step hMore hEnsured hRest ih =>
      exact hEnsured.sameInodes.trans ih

theorem Grown.counts
    (hSane : Sane G)
    {result : Bool × Inode}
    (hGrown : Grown G last V file first result V')
    (hCounts : BlockCounts G V) :
    BlockCounts G V' := by
  induction hGrown with
  | done => exact hCounts
  | failed hMore hEnsured => exact hEnsured.counts hSane hCounts
  | step hMore hEnsured hRest ih =>
      exact ih (hEnsured.counts hSane hCounts)

/- What a growth that reaches the last block gives. -/
theorem Grown.extends
    (hSane : Sane G)
    {result : Bool × Inode}
    (hGrown : Grown G last V file first result V')
    (hEditing : Editing G V number file)
    (hResult : result.1 = true) :
    Editing G V' number result.2 ∧
      Extends G V file V' result.2 := by
  induction hGrown with
  | done => exact ⟨hEditing, .refl _ _ _⟩
  | failed => cases hResult
  | step hMore hEnsured hRest ih =>
      have hNext := hEnsured.editing hSane hEditing
      rcases ih hNext hResult with ⟨hLast, hExtends⟩
      exact ⟨hLast,
        (hEnsured.extends hSane hEditing).trans hNext
          hExtends⟩

theorem Grown.owned
    (hSane : Sane G)
    {result : Bool × Inode}
    (hGrown : Grown G last V file first result V')
    (hEditing : Editing G V number file)
    (hOwned :
      Owned G V (Function.update V.inodes number file))
    (hResult : result.1 = true) :
    Owned G V' (Function.update V'.inodes number result.2) := by
  induction hGrown with
  | done => exact hOwned
  | failed => cases hResult
  | step hMore hEnsured hRest ih =>
      exact ih (hEnsured.editing hSane hEditing)
        (hEnsured.owned hSane hEditing hOwned) hResult

theorem Grown.mapped
    (hSane : Sane G)
    {result : Bool × Inode}
    (hGrown : Grown G last V file first result V')
    (hEditing : Editing G V number file)
    (hResult : result.1 = true)
    {index : Nat}
    (hFirst : first ≤ index)
    (hLast : index < last) :
    V'.fileBlock G result.2 index ≠ 0 := by
  induction hGrown with
  | done hDone => omega
  | failed => cases hResult
  | @step _ _ _ _ _ start _ _ hMore hEnsured hRest ih =>
      have hNext := hEnsured.editing hSane hEditing
      by_cases hThis : index = start
      · rcases hEnsured.fileBlock_eq hSane hEditing with
          ⟨hBlock, hSome⟩
        have hMapped := hSome
        rw [← hBlock] at hMapped
        rw [hThis]
        exact
          ((hRest.extends hSane hNext hResult).2.pointers _
            hMapped).trans_ne hMapped
      · exact ih hNext hResult (by omega)

/- The other blocks of the file stay mapped or holes. -/
theorem Ensured.fileBlock_of_ne
    (hSane : Sane G)
    (hEditing : Editing G V number file)
    {fileBlock index block : Nat}
    (hEnsured :
      Ensured G V file fileBlock (some block, copy) V')
    (hNe : index ≠ fileBlock) :
    V'.fileBlock G copy index = V.fileBlock G file index := by
  cases hEnsured with
  | mapped => rfl
  | linked count hHole hFresh hLinked =>
      unfold Volume.fileBlock
      rw [Volume.pointer_setBlocks,
        hLinked.pointer hSane hFresh hEditing.indirectUsed,
        if_neg fun hSlot => hNe (fileSlot_injective hSlot),
        if_neg (fileSlot_ne_indirect index)]

/- When a file has an indirect block after a block is mapped. -/
theorem Ensured.indirect_eq_zero_iff
    (hSane : Sane G)
    {fileBlock block : Nat}
    (hHole : V.fileBlock G file fileBlock = 0)
    (hEnsured :
      Ensured G V file fileBlock (some block, copy) V') :
    copy.block 12 = 0 ↔
      file.block 12 = 0 ∧ fileBlock < directBlocks := by
  cases hEnsured with
  | mapped hMapped => exact absurd hHole hMapped
  | linked count hHole hFresh hLinked =>
      rw [Inode.block_setBlocks _ (by decide)]
      rcases hLinked.taken hSane with
        ⟨hTwelve, -, -, hSome⟩ | ⟨-, hFar, hIndirect, -⟩
      · rw [hTwelve]
        exact ⟨fun hNone => ⟨hNone, hSome hNone⟩, fun h => h.1⟩
      · have hPos := hSane.pos_of_isData hIndirect.1
        omega

/-
  The blocks that growing takes: those of the file, and an
  indirect block when the file gets its first entry.
-/
def spaceNeeded
    (file : Inode)
    (first last : Nat) : Nat :=
  last - first +
    if file.block 12 = 0 ∧ first < last ∧ directBlocks < last then
      1
    else
      0

theorem spaceNeeded_succ
    (hSane : Sane G)
    (hMore : first < last)
    {block : Nat}
    (hHole : V.fileBlock G file first = 0)
    (hEnsured :
      Ensured G V file first (some block, copy) V') :
    spaceNeeded file first last =
      mapCost file first + spaceNeeded copy (first + 1) last := by
  have hIndirect :=
    hEnsured.indirect_eq_zero_iff hSane hHole
  unfold spaceNeeded mapCost
  by_cases hNone : file.block 12 = 0
  · by_cases hNear : first < directBlocks
    · have hCopy := hIndirect.mpr ⟨hNone, hNear⟩
      simp only [hNone, hCopy, true_and, and_true]
      split_ifs <;> omega
    · have hCopy : copy.block 12 ≠ 0 := fun hZero =>
        hNear (hIndirect.mp hZero).2
      simp only [hNone, hCopy, true_and, and_true, false_and,
        if_false]
      split_ifs <;> omega
  · have hCopy : copy.block 12 ≠ 0 := fun hZero =>
      hNone (hIndirect.mp hZero).1
    simp only [hNone, hCopy, false_and, and_false, if_false]
    omega

/- Growing succeeds exactly when there is room for it. -/
theorem Grown.succeeds_iff
    (hSane : Sane G)
    {result : Bool × Inode}
    (hGrown : Grown G last V file first result V')
    (hEditing : Editing G V number file)
    (hCounts : BlockCounts G V)
    (hHoles :
      ∀ index, first ≤ index → index < last →
        V.fileBlock G file index = 0)
    (hLast : last ≤ directBlocks + G.entries) :
    result.1 = true ↔
      spaceNeeded file first last ≤ V.freeBlocks := by
  induction hGrown with
  | @done _ file first hDone =>
      have hNone : spaceNeeded file first last = 0 := by
        unfold spaceNeeded
        split_ifs <;> omega
      rw [hNone]
      exact ⟨fun _ => Nat.zero_le _, fun _ => rfl⟩
  | @failed V _ file _ first hMore hEnsured =>
      have hHole := hHoles first (Nat.le_refl first) hMore
      have hShort :=
        hEnsured.account hSane hCounts hHole (by omega)
      have hCost :
          mapCost file first ≤ spaceNeeded file first last := by
        unfold mapCost spaceNeeded
        split_ifs <;> omega
      dsimp only at hShort ⊢
      constructor
      · intro hFalse
        cases hFalse
      · omega
  | @step V _ _ file _ first _ _ hMore hEnsured hRest ih =>
      have hHole := hHoles first (Nat.le_refl first) hMore
      have hSpent :=
        hEnsured.account hSane hCounts hHole (by omega)
      have hNeeded :=
        spaceNeeded_succ hSane hMore hHole hEnsured
      rw [ih (hEnsured.editing hSane hEditing)
        (hEnsured.counts hSane hCounts), hNeeded]
      · dsimp only at hSpent
        omega
      · intro index hFirst hIndex
        rw [hEnsured.fileBlock_of_ne hSane hEditing (by omega)]
        exact hHoles index (by omega) hIndex

/- A new indirect block comes with its first entry. -/
theorem Grown.indirect
    (hSane : Sane G)
    {result : Bool × Inode}
    (hGrown : Grown G last V file first result V')
    (hResult : result.1 = true)
    (hNone : file.block 12 = 0)
    (hSome : result.2.block 12 ≠ 0) :
    directBlocks < last := by
  induction hGrown with
  | done => exact absurd hNone hSome
  | failed => cases hResult
  | @step _ _ _ _ copy index _ _ hMore hEnsured hRest ih =>
      by_cases hCopy : copy.block 12 = 0
      · exact ih hResult hCopy hSome
      · cases hEnsured with
        | mapped => exact absurd hNone hCopy
        | linked count hHole hFresh hLinked =>
            rw [Inode.block_setBlocks _ (by decide)] at hCopy
            rcases hLinked.taken hSane with
              ⟨hTwelve, -⟩ | ⟨-, hFar, -⟩
            · exact absurd (hTwelve.trans hNone) hCopy
            · exact Nat.lt_of_le_of_lt hFar hMore

end

end Ext2

end Whirliscope
