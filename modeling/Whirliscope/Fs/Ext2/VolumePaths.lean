import Whirliscope.Fs.Ext2.FileContent
import Whirliscope.Fs.Ext2.Listing

/-
  Paths in terms of the volume: where a path leads does not
  change when a file is resized or stored into.

  Key definition:
    * `NamesAllocated`

  Main theorems:
    * `Holds.pathLookup_allocated`
    * `KeepsOthers.pathLookup_eq`
-/

------------------------------------------------------------
-- Inodes on a Path
------------------------------------------------------------

namespace Whirliscope

namespace Ext2

open ByteMemory FaultProgram Components

/-
  The root is allocated, and so is what an entry of an
  allocated directory names.
-/
structure NamesAllocated
    (G : Geometry)
    (V : Volume)
    (s : State) : Prop where
  root : Allocated G V rootInode
  entry :
    ∀ dir name number, Allocated G V dir →
      findInDir s (V.inodes dir) name = .ok (some number) →
        Allocated G V number

/- An inode of the volume that files and directories use. -/
def Volume.Knows
    (V : Volume)
    (G : Geometry)
    (found : Inode × Nat) : Prop :=
  found.1 = V.inodes found.2 ∧ Allocated G V found.2

theorem lookupNames_nil
    (s : State)
    (start : Inode × Nat) :
    lookupNames s [] start = .ok (some start) :=
  rfl

theorem lookupNames_cons
    (s : State)
    (name : List UInt8)
    (names : List (List UInt8))
    (start : Inode × Nat) :
    lookupNames s (name :: names) start =
      lookupVisit s start name >>=
        Sum.elim (lookupNames s names) pure := by
  unfold lookupNames
  rw [walk, bind_assoc]
  congr 1
  funext step
  cases step with
  | inl next => rfl
  | inr result => rfl

section

variable {G : Geometry} {V : Volume} {s : State}

theorem Holds.mounted
    (hHolds : Holds G V s) :
    ext2Mounted s = true := by
  unfold ext2Mounted
  rw [hHolds.fsImage, hHolds.superblock]
  rfl

theorem Holds.readInode_eq_some
    (hSane : Sane G)
    (hHolds : Holds G V s)
    {number : Nat}
    {inode : Inode}
    (hRead : readInode s number = .ok (some inode)) :
    G.HasInode number ∧ inode = V.inodes number := by
  rw [hHolds.readInode_eq hSane] at hRead
  by_cases hInode : G.HasInode number
  · rw [if_pos hInode] at hRead
    cases hRead
    exact ⟨hInode, rfl⟩
  · rw [if_neg hInode] at hRead
    cases hRead

theorem Holds.readInode_allocated
    (hSane : Sane G)
    (hHolds : Holds G V s)
    {number : Nat}
    (hAllocated : Allocated G V number) :
    readInode s number = .ok (some (V.inodes number)) := by
  rw [hHolds.readInode_eq hSane, if_pos hAllocated.1]

/- Each name leads to an inode of the volume. -/
theorem Holds.lookupNames_allocated
    (hSane : Sane G)
    (hHolds : Holds G V s)
    (hNames : NamesAllocated G V s)
    {names : List (List UInt8)}
    {start last : Inode × Nat}
    (hStart : V.Knows G start)
    (hFound : lookupNames s names start = .ok (some last)) :
    V.Knows G last := by
  induction names using List.reverseRecOn generalizing last with
  | nil =>
      rw [lookupNames_nil] at hFound
      cases hFound
      exact hStart
  | append_singleton names name ih =>
      rcases lookupNames_concat_iff.mp hFound with
        ⟨dir, hDir, hEntry, hRead⟩
      have hKnown := ih hDir
      rw [hKnown.1] at hEntry
      exact ⟨(hHolds.readInode_eq_some hSane hRead).2,
        hNames.entry dir.2 name last.2 hKnown.2 hEntry⟩

/- A path leads to an inode of the volume. -/
theorem Holds.pathLookup_inode
    (hSane : Sane G)
    (hHolds : Holds G V s)
    {path : Option (List UInt8)}
    {found : Inode × Nat}
    (hFound : pathLookup s path = .ok (some found)) :
    found.1 = V.inodes found.2 := by
  cases path with
  | none =>
      unfold pathLookup at hFound
      rw [hHolds.mounted] at hFound
      cases hFound
  | some chars =>
      rcases absolute_of_pathLookup hFound with
        ⟨hMounted, hAbsolute⟩
      rcases (pathLookup_eq_some_iff hMounted
        hAbsolute).mp hFound with ⟨root, hRoot, hNamed⟩
      have hStart : root = V.inodes rootInode :=
        (hHolds.readInode_eq_some hSane hRoot).2
      rcases List.eq_nil_or_concat
          (components slash chars) with
        hNil | ⟨names, name, hConcat⟩
      · rw [hNil, lookupNames_nil] at hNamed
        cases hNamed
        exact hStart
      · rw [hConcat, List.concat_eq_append,
          lookupNames_concat_iff] at hNamed
        rcases hNamed with ⟨dir, -, -, hRead⟩
        exact (hHolds.readInode_eq_some hSane hRead).2

theorem Holds.pathLookup_allocated
    (hSane : Sane G)
    (hHolds : Holds G V s)
    (hNames : NamesAllocated G V s)
    {path : Option (List UInt8)}
    {found : Inode × Nat}
    (hFound : pathLookup s path = .ok (some found)) :
    V.Knows G found := by
  cases path with
  | none =>
      unfold pathLookup at hFound
      rw [hHolds.mounted] at hFound
      cases hFound
  | some chars =>
      rcases absolute_of_pathLookup hFound with
        ⟨hMounted, hAbsolute⟩
      rcases (pathLookup_eq_some_iff hMounted
        hAbsolute).mp hFound with ⟨root, hRoot, hNamed⟩
      exact hHolds.lookupNames_allocated hSane hNames
        ⟨(hHolds.readInode_eq_some hSane hRoot).2,
          hNames.root⟩
        hNamed

end

end Ext2

end Whirliscope

------------------------------------------------------------
-- Directories That Stay
------------------------------------------------------------

namespace Whirliscope

namespace Ext2

open ByteMemory FaultProgram Components

/- A scan of a directory depends on the bytes it reads. -/
theorem scanDirectory_congr
    {β γ : Type}
    {s s' : State}
    {dir : Inode}
    (hBlockSize : s'.blockSize = s.blockSize)
    (hStack : s'.stackBytes = s.stackBytes)
    (hRead :
      ∀ offset len buffer, offset + len ≤ dir.size →
        readInodeBytes s' dir offset buffer len =
          readInodeBytes s dir offset buffer len)
    (unreadable broken finished : β → γ)
    (visit : View → β → Nat → Except Fault (β ⊕ γ))
    (start : β) :
    scanDirectory s' dir unreadable broken finished visit
        start =
      scanDirectory s dir unreadable broken finished visit
        start := by
  have hBlocks :
      scanBlocks s' dir unreadable broken finished visit =
        scanBlocks s dir unreadable broken finished visit := by
    funext ⟨offset, buffer, accumulator⟩
    unfold scanBlocks
    rw [hBlockSize]
    dsimp only
    by_cases hEnd : offset ≥ dir.size
    · rw [if_pos hEnd, if_pos hEnd]
    · rw [if_neg hEnd, if_neg hEnd]
      rw [hRead _ _ _ (by omega)]
  unfold scanDirectory
  rw [hBlocks, hStack]

section

variable {G : Geometry} {V V' : Volume} {s s' : State}
variable {number : Nat}

/- A directory whose bytes stay is searched the same way. -/
theorem Holds.findInDir_congr
    (hSane : Sane G)
    (hHolds : Holds G V s)
    (hHolds' : Holds G V' s')
    (hStack : s'.stackBytes = s.stackBytes)
    {dir : Inode}
    (hBlocks : BlocksAreData G V dir)
    (hBlocks' : BlocksAreData G V' dir)
    (hBytes :
      ∀ offset,
        V'.fileByte G dir offset = V.fileByte G dir offset)
    (name : List UInt8) :
    findInDir s' dir name = findInDir s dir name := by
  have hBlockSize : s'.blockSize = s.blockSize :=
    hHolds'.blockSize.trans hHolds.blockSize.symm
  unfold findInDir
  rw [hBlockSize,
    scanDirectory_congr hBlockSize hStack
      (fun offset len buffer hLen => ?_)]
  rw [hHolds'.readInodeBytes_eq hSane hBlocks' hLen,
    hHolds.readInodeBytes_eq hSane hBlocks hLen]
  simp only [hBytes]

/- The same inode as it is in another volume. -/
def Volume.refresh
    (V : Volume)
    (found : Inode × Nat) : Inode × Nat :=
  (V.inodes found.2, found.2)

/-
  A change to one file that keeps the others: what it takes
  for every path to lead where it led before.
-/
structure SamePaths
    (G : Geometry)
    (V V' : Volume)
    (number : Nat) : Prop where
  keeps : KeepsOthers G V V' number
  blocks :
    ∀ other, Allocated G V other →
      BlocksAreData G V (V.inodes other)
  file : (V.inodes number).isDir = false
  file' : (V'.inodes number).isDir = false

theorem SamePaths.findInDir_eq
    (hSane : Sane G)
    (hHolds : Holds G V s)
    (hHolds' : Holds G V' s')
    (hStack : s'.stackBytes = s.stackBytes)
    (hSame : SamePaths G V V' number)
    {dir : Nat}
    (hAllocated : Allocated G V dir)
    (name : List UInt8) :
    findInDir s' (V'.inodes dir) name =
      findInDir s (V.inodes dir) name := by
  by_cases hFile : dir = number
  · -- A file has no entries.
    rw [hFile]
    unfold findInDir
    rw [if_pos (.inl (by rw [hSame.file']; rfl)),
      if_pos (.inl (by rw [hSame.file]; rfl))]
  · have hBlocks := hSame.blocks dir hAllocated
    have hInode := hSame.keeps.inodes dir hFile
    have hPointer := hSame.keeps.pointer hFile hAllocated
    have hBytes := hSame.keeps.fileByte hFile hAllocated
    rw [hInode] at hPointer hBytes ⊢
    apply hHolds.findInDir_congr hSane hHolds' hStack hBlocks
      _ hBytes
    intro slot hSome
    rw [hPointer] at hSome ⊢
    exact hBlocks slot hSome

/- One level of the walk, once the name is found. -/
theorem lookupVisit_of_found
    {s : State}
    {start : Inode × Nat}
    {name : List UInt8}
    {next : Nat}
    (hFound : findInDir s start.1 name = .ok (some next)) :
    lookupVisit s start name =
      (do
        let some inode ← readInode s next
          | return .inr none
        return .inl (inode, next)) := by
  unfold lookupVisit
  rw [hFound]
  rfl

theorem SamePaths.lookupVisit_eq
    (hSane : Sane G)
    (hHolds : Holds G V s)
    (hHolds' : Holds G V' s')
    (hStack : s'.stackBytes = s.stackBytes)
    (hSame : SamePaths G V V' number)
    {start : Inode × Nat}
    (hStart : V.Knows G start)
    (name : List UInt8) :
    lookupVisit s' (V'.refresh start) name =
      Sum.map V'.refresh (Option.map V'.refresh) <$>
        lookupVisit s start name := by
  have hEq :=
    hSame.findInDir_eq hSane hHolds hHolds' hStack hStart.2
      name
  cases hFound : findInDir s (V.inodes start.2) name with
  | error fault =>
      unfold lookupVisit
      rw [hStart.1]
      dsimp only [Volume.refresh]
      rw [hEq, hFound]
      rfl
  | ok found =>
      cases found with
      | none =>
          unfold lookupVisit
          rw [hStart.1]
          dsimp only [Volume.refresh]
          rw [hEq, hFound]
          rfl
      | some next =>
          rw [lookupVisit_of_found (hEq.trans hFound),
            lookupVisit_of_found (by rw [hStart.1, hFound]),
            hHolds'.readInode_eq hSane,
            hHolds.readInode_eq hSane]
          by_cases hInode : G.HasInode next
          · rw [if_pos hInode, if_pos hInode]
            rfl
          · rw [if_neg hInode, if_neg hInode]
            rfl

theorem SamePaths.lookupNames_eq
    (hSane : Sane G)
    (hHolds : Holds G V s)
    (hHolds' : Holds G V' s')
    (hStack : s'.stackBytes = s.stackBytes)
    (hSame : SamePaths G V V' number)
    (hNames : NamesAllocated G V s)
    (names : List (List UInt8))
    {start : Inode × Nat}
    (hStart : V.Knows G start) :
    lookupNames s' names (V'.refresh start) =
      Option.map V'.refresh <$> lookupNames s names start := by
  induction names generalizing start with
  | nil => rfl
  | cons name names ih =>
      rw [lookupNames_cons, lookupNames_cons,
        hSame.lookupVisit_eq hSane hHolds hHolds' hStack
          hStart]
      cases hStep : lookupVisit s start name with
      | error fault => rfl
      | ok step =>
          cases step with
          | inr result => rfl
          | inl next =>
              rcases lookupVisit_eq_inl_iff.mp hStep with
                ⟨hEntry, hRead⟩
              rw [hStart.1] at hEntry
              exact ih
                ⟨(hHolds.readInode_eq_some hSane hRead).2,
                  hNames.entry _ _ _ hStart.2 hEntry⟩

/- Every path leads to the inode that it led to. -/
theorem SamePaths.pathLookup_eq
    (hSane : Sane G)
    (hHolds : Holds G V s)
    (hHolds' : Holds G V' s')
    (hStack : s'.stackBytes = s.stackBytes)
    (hSame : SamePaths G V V' number)
    (hNames : NamesAllocated G V s)
    (path : Option (List UInt8)) :
    pathLookup s' path =
      Option.map V'.refresh <$> pathLookup s path := by
  cases path with
  | none =>
      unfold pathLookup
      rw [hHolds'.mounted, hHolds.mounted]
      rfl
  | some chars =>
      by_cases hAbsolute : chars.head? = some slash
      · rw [Ext2.pathLookup_eq hHolds'.mounted hAbsolute,
          Ext2.pathLookup_eq hHolds.mounted hAbsolute,
          hHolds'.readInode_eq hSane,
          hHolds.readInode_eq hSane,
          if_pos hNames.root.1, if_pos hNames.root.1]
        have hStart :
            V.Knows G (V.inodes rootInode, rootInode) :=
          ⟨rfl, hNames.root⟩
        exact hSame.lookupNames_eq hSane hHolds hHolds'
          hStack hNames (components slash chars) hStart
      · unfold pathLookup
        rw [hHolds'.mounted, hHolds.mounted]
        simp only [Bool.not_true, Bool.false_eq_true,
          if_false, ne_eq, hAbsolute, not_false_iff, if_true]
        rfl

/- The names still lead to allocated inodes. -/
theorem SamePaths.namesAllocated
    (hSane : Sane G)
    (hHolds : Holds G V s)
    (hHolds' : Holds G V' s')
    (hStack : s'.stackBytes = s.stackBytes)
    (hSame : SamePaths G V V' number)
    (hNames : NamesAllocated G V s) :
    NamesAllocated G V' s' where
  root := hSame.keeps.allocated hNames.root
  entry := by
    intro dir name child hDir hEntry
    have hAllocated : Allocated G V dir := by
      unfold Allocated at hDir ⊢
      rw [← hSame.keeps.inodeUsed]
      exact hDir
    rw [hSame.findInDir_eq hSane hHolds hHolds' hStack
      hAllocated] at hEntry
    exact hSame.keeps.allocated
      (hNames.entry dir name child hAllocated hEntry)

end

end Ext2

end Whirliscope
