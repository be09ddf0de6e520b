import Whirliscope.Fs.Ext2.DirectoryBuffers
import Whirliscope.Fs.Ext2.FileStore

/-
  A volume in two images. What an image holds behind the end
  of the file system, and in the bytes of a cell that stand
  for nothing, changes neither the files nor the paths.

  Key definitions include:
    * `AgreeBelow`
    * `Volume.withFixed`, `Volume.withTail`

  Main theorems:
    * `Holds.withTail`
    * `SoundFiles.withFixed`
-/

------------------------------------------------------------
-- The Same Volume in Another Image
------------------------------------------------------------

namespace Whirliscope

namespace Ext2

open ByteMemory FaultProgram Components

/- Images that agree below a limit. -/
def AgreeBelow
    (limit : Nat)
    (bytes bytes' : Bytes) : Prop :=
  ∀ i < limit, bytes' i = bytes i

/- The volume with other bytes where it says nothing. -/
def Volume.withFixed
    (V : Volume)
    (fixed : Bytes) : Volume :=
  { V with fixed := fixed }

/- The volume with other bytes behind its end. -/
def Volume.withTail
    (V : Volume)
    (limit : Nat)
    (bytes : Bytes) : Volume :=
  V.withFixed fun i => if i < limit then V.fixed i else bytes i

section

variable {G : Geometry} {V : Volume} {s s' : State}
variable {limit base width : Nat} {bytes bytes' : Bytes}

theorem Volume.withTail_fixed
    (V : Volume)
    (limit : Nat)
    (bytes : Bytes) :
    AgreeBelow limit V.fixed (V.withTail limit bytes).fixed :=
  fun _ hi => if_pos hi

theorem AgreeBelow.getLE_eq
    (hAgree : AgreeBelow limit bytes bytes')
    (hInside : base + width ≤ limit) :
    getLE bytes' base width = getLE bytes base width :=
  getLE_congr fun i _ => hAgree (base + i) (by omega)

/- The superblock lies in the image. -/
theorem Sane.superblock_inside
    (hSane : Sane G) :
    superblockOffset + superblockSize ≤ G.fsSize :=
  hSane.inside .superblock trivial

/- The geometry is in the first bytes of the superblock. -/
theorem HeaderMatches.congr
    (hAgree : AgreeBelow limit bytes bytes')
    (hInside : superblockOffset + 90 ≤ limit)
    (hHeader : HeaderMatches G bytes) :
    HeaderMatches G bytes' := by
  have hSame :
      ∀ offset width, offset + width ≤ 90 →
        headerField bytes' offset width =
          headerField bytes offset width :=
    fun offset width hOffset => hAgree.getLE_eq (by omega)
  constructor
  · rw [hSame 0 4 (by decide)]
    exact hHeader.inodesCount
  · rw [hSame 4 4 (by decide)]
    exact hHeader.blocksCount
  · rw [hSame 20 4 (by decide)]
    exact hHeader.firstDataBlock
  · rw [hSame 32 4 (by decide)]
    exact hHeader.blocksPerGroup
  · rw [hSame 40 4 (by decide)]
    exact hHeader.inodesPerGroup
  · rw [hSame 84 4 (by decide)]
    exact hHeader.firstIno
  · rw [hSame 88 2 (by decide)]
    exact hHeader.inodeSize

theorem DescMatches.congr
    {group : Nat}
    (hSame :
      ∀ address, G.InCell (.groupDesc group) address →
        bytes' address = bytes address)
    (hDesc : DescMatches G bytes group) :
    DescMatches G bytes' group := by
  have hField :
      ∀ offset width, offset + width ≤ groupDescSize →
        descField G bytes' group offset width =
          descField G bytes group offset width := by
    intro offset width hOffset
    apply getLE_congr
    intro i hi
    refine hSame _ ⟨?_, ?_⟩
    · change G.descAddress group ≤ _
      omega
    · change _ < G.descAddress group + groupDescSize
      omega
  constructor
  · rw [hField 0 4 (by decide)]
    exact hDesc.blockBitmap
  · rw [hField 4 4 (by decide)]
    exact hDesc.inodeBitmap
  · rw [hField 8 4 (by decide)]
    exact hDesc.inodeTable

/- A cell says nothing about bytes outside it. -/
theorem CellHolds.withFixed
    {cell : Cell}
    {fixed : Bytes}
    (hSame :
      ∀ address, G.InCell cell address →
        fixed address = V.fixed address)
    (hHolds : CellHolds G V bytes cell) :
    CellHolds G (V.withFixed fixed) bytes cell := by
  have hByte :
      ∀ i, i < G.cellExtent cell →
        fixed (G.cellBase cell + i) =
          V.fixed (G.cellBase cell + i) :=
    fun i hi => hSame _
      ⟨Nat.le_add_right _ _, Nat.add_lt_add_left hi _⟩
  cases cell with
  | superblock =>
      rcases hHolds with ⟨hBlocks, hInodes, hRest⟩
      refine ⟨hBlocks, hInodes, fun i hi hOther => ?_⟩
      rw [hRest i hi hOther]
      exact (hByte i hi).symm
  | groupDesc group =>
      rcases hHolds with ⟨hBlocks, hInodes, hDirs, hRest⟩
      refine ⟨hBlocks, hInodes, hDirs, fun i hi hOther => ?_⟩
      rw [hRest i hi hOther]
      exact (hByte i hi).symm
  | blockBitmap group =>
      intro i hi
      have hSameByte := hByte (i / 8) (Nat.div_lt_of_lt_mul hi)
      rw [hHolds i hi]
      unfold bitAt
      exact congrArg
        (fun byte : UInt8 =>
          if G.HasBlockBit group i then
            V.used (G.blockAt group i)
          else
            byte.toNat.testBit (i % 8))
        hSameByte.symm
  | inodeBitmap group =>
      intro i hi
      have hSameByte := hByte (i / 8) (Nat.div_lt_of_lt_mul hi)
      rw [hHolds i hi]
      unfold bitAt
      exact congrArg
        (fun byte : UInt8 =>
          if G.HasInodeBit group i then
            V.inodeUsed (G.inodeAt group i)
          else
            byte.toNat.testBit (i % 8))
        hSameByte.symm
  | inode number => exact hHolds
  | data block => exact hHolds

/- Every byte of a cell lies in the image. -/
theorem Sane.inCell_lt
    (hSane : Sane G)
    {cell : Cell}
    (hCell : G.HasCell cell)
    {address : Nat}
    (hAddress : G.InCell cell address) :
    address < G.fsSize :=
  Nat.lt_of_lt_of_le hAddress.2 (hSane.cell_inside hCell)

/- A cell shows the same in an image that agrees. -/
theorem CellHolds.withTail
    (hSane : Sane G)
    (hAgree : AgreeBelow G.fsSize bytes bytes')
    {cell : Cell}
    (hCell : G.HasCell cell)
    (hHolds : CellHolds G V bytes cell) :
    CellHolds G (V.withTail G.fsSize bytes') bytes' cell := by
  have hShown : CellHolds G V bytes' cell :=
    CellHolds.congr hSane
      (fun address hAddress => hAgree address
        (hSane.inCell_lt hCell hAddress))
      hHolds
  exact hShown.withFixed fun address hAddress =>
    V.withTail_fixed G.fsSize bytes' address
      (hSane.inCell_lt hCell hAddress)

/- Another image of the volume, mounted with its geometry. -/
theorem Holds.withTail
    (hSane : Sane G)
    (hHolds : Holds G V s)
    (hAgree : AgreeBelow G.fsSize s.image s'.image)
    (hImage : s'.fsImage = true)
    (hSuperblock : s'.superblock = some superblockPointer)
    (hFsSize : s'.fsSize = G.fsSize)
    (hBlockSize : s'.blockSize = G.blockSize)
    (hGroupCount : s'.groupCount = G.groupCount) :
    Holds G (V.withTail G.fsSize s'.image) s' where
  fsImage := hImage
  superblock := hSuperblock
  fsSize := hFsSize
  blockSize := hBlockSize
  groupCount := hGroupCount
  header :=
    hHolds.header.congr (V.withTail_fixed _ _)
      (Nat.le_trans (by decide) hSane.superblock_inside)
  descriptors := by
    intro group hGroup
    have hCell : G.HasCell (.groupDesc group) := hGroup
    exact (hHolds.descriptors group hGroup).congr
      fun address hAddress =>
        V.withTail_fixed _ _ address
          (hSane.inCell_lt hCell hAddress)
  cells := fun cell hCell =>
    (hHolds.cells cell hCell).withTail hSane hAgree hCell
  outside := by
    intro address hOutside
    unfold Volume.withTail Volume.withFixed
    dsimp only
    by_cases hBelow : address < G.fsSize
    · rw [if_pos hBelow, hAgree address hBelow]
      exact hHolds.outside address hOutside
    · rw [if_neg hBelow]

end

end Ext2

end Whirliscope

------------------------------------------------------------
-- The Same Names
------------------------------------------------------------

namespace Whirliscope

namespace Ext2

open ByteMemory ByteStrings FaultProgram Components

section

variable {G : Geometry} {V : Volume} {s s' : State}
variable {fixed : Bytes}

/- Where the names of an allocated directory lead. -/
def NamesAgree
    (G : Geometry)
    (V : Volume)
    (s s' : State) : Prop :=
  ∀ dir, Allocated G V dir →
    ∀ name,
      findInDir s' (V.inodes dir) name =
        findInDir s (V.inodes dir) name

/- The same walk, once each name leads to the same inode. -/
theorem lookupNames_agree
    (hSane : Sane G)
    (hHolds : Holds G V s)
    (hHolds' : Holds G (V.withFixed fixed) s')
    (hNames : NamesAllocated G V s)
    (hAgree : NamesAgree G V s s')
    (names : List (List UInt8))
    {start : Inode × Nat}
    (hStart : V.Knows G start) :
    lookupNames s' names start = lookupNames s names start := by
  induction names generalizing start with
  | nil => rfl
  | cons name names ih =>
      have hFind := hAgree start.2 hStart.2 name
      rw [← hStart.1] at hFind
      have hVisit :
          lookupVisit s' start name =
            lookupVisit s start name := by
        unfold lookupVisit
        rw [hFind]
        refine bind_congr fun found => ?_
        cases found with
        | none => rfl
        | some next =>
            dsimp only
            rw [hHolds'.readInode_eq hSane,
              hHolds.readInode_eq hSane]
            rfl
      rw [lookupNames_cons, lookupNames_cons, hVisit]
      cases hStep : lookupVisit s start name with
      | error fault => rfl
      | ok step =>
          cases step with
          | inr result => rfl
          | inl next =>
              rcases lookupVisit_eq_inl_iff.mp hStep with
                ⟨hEntry, hRead⟩
              rw [hStart.1] at hEntry
              exact ih
                ⟨(hHolds.readInode_eq_some hSane hRead).2,
                  hNames.entry _ _ _ hStart.2 hEntry⟩

theorem pathLookup_agree
    (hSane : Sane G)
    (hHolds : Holds G V s)
    (hHolds' : Holds G (V.withFixed fixed) s')
    (hNames : NamesAllocated G V s)
    (hAgree : NamesAgree G V s s')
    (path : Option (List UInt8)) :
    pathLookup s' path = pathLookup s path := by
  cases path with
  | none =>
      unfold pathLookup
      rw [hHolds'.mounted, hHolds.mounted]
  | some chars =>
      by_cases hAbsolute : chars.head? = some slash
      · rw [pathLookup_eq hHolds'.mounted hAbsolute,
          pathLookup_eq hHolds.mounted hAbsolute,
          hHolds'.readInode_eq hSane,
          hHolds.readInode_eq hSane,
          if_pos hNames.root.1, if_pos hNames.root.1]
        exact lookupNames_agree hSane hHolds hHolds' hNames
          hAgree _ ⟨rfl, hNames.root⟩
      · unfold pathLookup
        rw [hHolds'.mounted, hHolds.mounted]
        simp only [Bool.not_true, Bool.false_eq_true,
          if_false, ne_eq, hAbsolute, not_false_iff, if_true]

/- Both states read the same bytes of a directory. -/
theorem readsAlike
    (hSane : Sane G)
    (hHolds : Holds G V s)
    (hHolds' : Holds G (V.withFixed fixed) s')
    {dir : Inode}
    (hBlocks : BlocksAreData G V dir) :
    ReadsAlike s s' dir := by
  intro offset len hLen
  refine ⟨fun i => V.fileByte G dir (offset + i), ?_⟩
  intro buffer
  constructor
  · exact hHolds.readInodeBytes_eq hSane hBlocks hLen buffer
  · exact hHolds'.readInodeBytes_eq hSane hBlocks hLen buffer

/- The records of each directory, read in another state. -/
theorem DirsReadable.withFixed
    (hSane : Sane G)
    (hSound : SoundFiles G V s)
    (hHolds' : Holds G (V.withFixed fixed) s')
    (hDirs : DirsReadable G V s) :
    DirsReadable G (V.withFixed fixed) s' ∧
      NamesAgree G V s s' := by
  have hBlockSize : s'.blockSize = s.blockSize :=
    hHolds'.blockSize.trans hSound.holds.blockSize.symm
  have hSize :=
    (hSound.holds.blockSizeAccepted hSane).le_directoryBuffer
  have hReads :
      ∀ dir, Allocated G V dir →
        ReadsAlike s s' (V.inodes dir) :=
    fun dir hAllocated =>
      readsAlike hSane hSound.holds hHolds'
        (hSound.editing hAllocated).blocksAreData
  constructor
  · refine ⟨hDirs.root, fun dir hAllocated hDir => ?_⟩
    rcases hDirs.readable dir hAllocated hDir with
      ⟨records, hScanned, hRecords⟩
    rcases directoryRecords_similar hBlockSize hSize
        (hReads dir hAllocated) hScanned with
      ⟨others, hScanned', hSimilar⟩
    refine ⟨others, hScanned', fun other hMem => ⟨?_, ?_⟩⟩
    · exact hSimilar.hasRoom
        (fun record hRecord => (hRecords record hRecord).1)
        other hMem
    · exact hSimilar.live
        (fun record hRecord => (hRecords record hRecord).2)
        other hMem
  · intro dir hAllocated name
    apply findInDir_similar hBlockSize hSize
      (hReads dir hAllocated)
    intro hDir
    rcases hDirs.readable dir hAllocated hDir with
      ⟨records, hScanned, hRecords⟩
    exact ⟨records, hScanned,
      fun record hMem => (hRecords record hMem).1⟩

/- The files of the volume, seen through another image. -/
theorem SoundFiles.withFixed
    (hSane : Sane G)
    (hSound : SoundFiles G V s)
    (hDirs : DirsReadable G V s)
    (hHolds' : Holds G (V.withFixed fixed) s')
    {target : Option CString → Target}
    {content : Nat → List UInt8}
    (hShows : Shows G V s target content) :
    SoundFiles G (V.withFixed fixed) s' ∧
      Shows G (V.withFixed fixed) s' target content ∧
      DirsReadable G (V.withFixed fixed) s' := by
  rcases hDirs.withFixed hSane hSound hHolds' with
    ⟨hDirs', hAgree⟩
  refine ⟨?_, ?_, hDirs'⟩
  · exact
      { holds := hHolds'
        metadata := hSound.metadata
        separates := hSound.separates
        kind := hSound.kind
        intact := fun number hAllocated hRegular =>
          let hIntact :=
            hSound.intact number hAllocated hRegular
          ⟨hIntact.mapped, hIntact.clear, hIntact.indirect⟩
        names := hDirs'.namesAllocated hSane hHolds' }
  · refine ⟨fun path => ?_, hShows.content⟩
    rcases hShows.target path with ⟨found, hFound, hTarget⟩
    refine ⟨found, ?_, hTarget⟩
    rw [pathLookup_agree hSane hSound.holds hHolds'
      hSound.names hAgree]
    exact hFound

end

end Ext2

end Whirliscope
