import Whirliscope.Fs.Ext2.FailedGrowth
import Whirliscope.Fs.Ext2.FileCalls
import Whirliscope.Fs.Ext2.Listing
import Whirliscope.Library.ByteStrings

/-
  The files of a mounted image as a store of byte strings.

  Each path leads to a file, to a directory or nowhere, and
  each file has a string of bytes. Calls that read, write,
  truncate and stat files act on these strings, in runs of
  any length and whatever calls fail on the way.

  Key definitions include:
    * `Target`, `Serves`, `ServesAll`
    * `SoundFiles`, `Shows`

  Main theorems:
    * `runCalls_refines`
    * `read_not_stale`
-/

------------------------------------------------------------
-- The Store
------------------------------------------------------------

namespace Whirliscope

namespace Ext2

open ByteMemory ByteStrings FaultProgram

/- Where a path leads. -/
inductive Target where
| nowhere
| directory (entry : UserFsDirent)
| file (number : Nat)

/- What `ext2_stat` reports for a file. -/
def fileEntry
    (number size : Nat) : UserFsDirent where
  inode := number
  type := userFsTypeFile
  size := size
  name := []

/-
  The result of a call that changed the store. The call does
  not succeed when the medium fails.
-/
def Answered
    (works : Prop)
    (value code : Int) : Prop :=
  code = value ∨ code = userErrFault ∧ ¬ works

/-
  The calls on files: what each one replies and how it leaves
  the strings. `works` says that the medium never fails.
-/
inductive Serves
    (works : Prop)
    (target : Option CString → Target)
    (content : Nat → List UInt8) :
    Call → Reply → (Nat → List UInt8) → Prop
| synced
    {ok : Bool}
    (hOk : works → ok = true) :
    Serves works target content .sync (.flag ok) content
| statNowhere
    {path : Option CString}
    (hTarget : target path = .nowhere) :
    Serves works target content (.stat path)
      (.stat userErrInval none) content
| statDirectory
    {path : Option CString}
    {entry : UserFsDirent}
    (hTarget : target path = .directory entry) :
    Serves works target content (.stat path)
      (.stat 0 (some entry)) content
| statFile
    {path : Option CString}
    {number : Nat}
    (hTarget : target path = .file number) :
    Serves works target content (.stat path)
      (.stat 0
        (some (fileEntry number (content number).length)))
      content
| readRefused
    {path : Option CString}
    {buffer : Bytes}
    {len offset : Nat}
    (hTarget : ∀ number, target path ≠ .file number) :
    Serves works target content
      (.readFile path buffer len offset)
      (.read userErrInval buffer) content
| read
    {path : Option CString}
    {number : Nat}
    {buffer : Bytes}
    {len offset : Nat}
    {source : Bytes}
    {count : Nat}
    (hTarget : target path = .file number)
    (hSource :
      excerpt (content number) offset len =
        tabulate count source) :
    Serves works target content
      (.readFile path buffer len offset)
      (.read count (write buffer 0 count source)) content
| writeRefused
    {path : Option CString}
    {buffer : Option Bytes}
    {len offset : Nat}
    {code : Int}
    (hCode : code < 0)
    (hReason :
      (∀ number, target path ≠ .file number) ∨
        buffer = none ∧ len ≠ 0 ∨
        ∃ number, target path = .file number ∧
          ((content number).length < offset + len ∨
            2 ^ 64 ≤ offset + len)) :
    Serves works target content
      (.writeFile path buffer len offset) (.code code) content
| truncateRefused
    {path : Option CString}
    {size : Nat}
    {code : Int}
    (hCode : code < 0)
    (hReason :
      (∀ number, target path ≠ .file number) ∨
        ∃ number, target path = .file number ∧
          (content number).length < size) :
    Serves works target content (.truncateFile path size)
      (.code code) content
| written
    {path : Option CString}
    {number : Nat}
    {buffer : Option Bytes}
    {len offset : Nat}
    {code : Int}
    (hTarget : target path = .file number)
    (hStart : offset ≤ (content number).length)
    (hCode : Answered works len code) :
    Serves works target content
      (.writeFile path buffer len offset) (.code code)
      (Function.update content number
        (overwrite (content number) offset
          (tabulate len (buffer.getD zeros))))
| truncated
    {path : Option CString}
    {number size : Nat}
    {code : Int}
    (hTarget : target path = .file number)
    (hCode : Answered works 0 code) :
    Serves works target content
      (.truncateFile path size) (.code code)
      (Function.update content number
        (resize 0 (content number) size))

/- The calls one after the other. -/
inductive ServesAll
    (works : Prop)
    (target : Option CString → Target) :
    (Nat → List UInt8) → List Call → List Reply →
      (Nat → List UInt8) → Prop
| nil
    (content : Nat → List UInt8) :
    ServesAll works target content [] [] content
| cons
    {content middle final : Nat → List UInt8}
    {call : Call}
    {calls : List Call}
    {reply : Reply}
    {replies : List Reply}
    (hCall : Serves works target content call reply middle)
    (hRest :
      ServesAll works target middle calls replies final) :
    ServesAll works target content (call :: calls)
      (reply :: replies) final

/- The calls that read or change files only. -/
def Call.OnFiles : Call → Prop
| .sync => True
| .stat _ => True
| .readFile _ _ _ _ => True
| .writeFile _ _ len _ => len < 2 ^ 64
| .truncateFile _ _ => True
| _ => False

end Ext2

end Whirliscope

------------------------------------------------------------
-- Sound Volumes
------------------------------------------------------------

namespace Whirliscope

namespace Ext2

open ByteMemory ByteStrings FaultProgram Ownership

/-
  What the calls on files need of a volume and keep. A block
  may be in use and belong to no file: a growth that fails
  leaves such blocks.
-/
structure SoundFiles
    (G : Geometry)
    (V : Volume)
    (s : State) : Prop where
  holds : Holds G V s
  metadata : MetadataUsed G V
  separates : Separates G.IsData 0 V.used (V.refs G V.inodes)
  kind :
    ∀ number, Allocated G V number →
      (V.inodes number).IsRegular ∨
        (V.inodes number).IsDirectory
  intact :
    ∀ number, Allocated G V number →
      (V.inodes number).IsRegular →
        Intact G V (V.inodes number)
  names : NamesAllocated G V s

/- The bytes of a file. -/
def Volume.content
    (V : Volume)
    (G : Geometry)
    (number : Nat) : List UInt8 :=
  tabulate (V.inodes number).size
    (V.fileByte G (V.inodes number))

/- The result of a lookup as a target. -/
def targetOf : Option (Inode × Nat) → Target
| none => .nowhere
| some (inode, number) =>
    if inode.isFile then
      .file number
    else
      .directory
        { inode := number
          type := userFsTypeDir
          size := inode.size
          name := [] }

theorem targetOf_of_file
    {last : Inode × Nat}
    (hFile : last.1.isFile = true) :
    targetOf (some last) = .file last.2 :=
  if_pos hFile

theorem targetOf_of_not_file
    {last : Inode × Nat}
    (hFile : last.1.isFile = false) :
    targetOf (some last) =
      .directory
        { inode := last.2
          type := userFsTypeDir
          size := last.1.size
          name := [] } :=
  if_neg (Bool.eq_false_iff.mp hFile)

/- The image shows these targets and strings. -/
structure Shows
    (G : Geometry)
    (V : Volume)
    (s : State)
    (target : Option CString → Target)
    (content : Nat → List UInt8) : Prop where
  target :
    ∀ path, ∃ found,
      pathLookup s (path.map (·.1)) = .ok found ∧
        target path = targetOf found
  content :
    ∀ number, Allocated G V number →
      (V.inodes number).IsRegular →
        content number = V.content G number

section

variable {G : Geometry} {V V' : Volume} {s s' : State}
variable {number other : Nat} {file : Inode}

theorem Inode.IsRegular.not_isDir
    (hRegular : file.IsRegular) :
    file.isDir = false := by
  unfold Inode.IsRegular at hRegular
  unfold Inode.isDir
  rw [mode_and file.mode (by decide : _ &&& sIfdir = _),
    hRegular]
  decide

theorem Inode.IsDirectory.not_isFile
    (hDirectory : file.IsDirectory) :
    file.isFile = false := by
  unfold Inode.IsDirectory at hDirectory
  unfold Inode.isFile
  rw [mode_and file.mode (by decide : _ &&& sIfreg = _),
    hDirectory]
  decide

theorem Inode.IsDirectory.isDir
    (hDirectory : file.IsDirectory) :
    file.isDir = true := by
  unfold Inode.IsDirectory at hDirectory
  unfold Inode.isDir
  rw [mode_and file.mode (by decide : _ &&& sIfdir = _),
    hDirectory]
  decide

/- The files of a well-owned volume are sound. -/
theorem WellOwned.soundFiles
    (hHolds : Holds G V s)
    (hWell : WellOwned G V)
    (hNames : NamesAllocated G V s) :
    SoundFiles G V s where
  holds := hHolds
  metadata := hWell.metadata
  separates := hWell.owned.toSeparates
  kind := fun number hAllocated =>
    (hWell.shaped number hAllocated).kind
  intact := fun number hAllocated _ =>
    (hWell.shaped number hAllocated).intact
  names := hNames

namespace SoundFiles

theorem editing
    (hSound : SoundFiles G V s)
    (hAllocated : Allocated G V number) :
    Editing G V number (V.inodes number) where
  allocated := hAllocated
  metadata := hSound.metadata
  separates := by
    rw [Volume.refsWith_inodes]
    exact hSound.separates

/- A file is an allocated inode that is regular. -/
theorem of_lookup
    (hSane : Sane G)
    (hSound : SoundFiles G V s)
    {path : Option (List UInt8)}
    {found : Inode × Nat}
    (hFound : pathLookup s path = .ok (some found)) :
    found.1 = V.inodes found.2 ∧ Allocated G V found.2 ∧
      (found.1.isFile = true → found.1.IsRegular) ∧
      (found.1.isFile = false → found.1.isDir = true) := by
  rcases hSound.holds.pathLookup_allocated hSane hSound.names
      hFound with ⟨hInode, hAllocated⟩
  refine ⟨hInode, hAllocated, ?_, ?_⟩
  · intro hFile
    rcases hSound.kind found.2 hAllocated with
      hRegular | hDirectory
    · rwa [hInode]
    · rw [hInode, hDirectory.not_isFile] at hFile
      cases hFile
  · intro hNot
    rcases hSound.kind found.2 hAllocated with
      hRegular | hDirectory
    · rw [hInode, hRegular.isFile] at hNot
      cases hNot
    · rw [hInode]
      exact hDirectory.isDir

end SoundFiles

/- The other files of the volume keep their shape. -/
theorem KeepsOthers.intact
    (hKeeps : KeepsOthers G V V' number)
    (hOther : other ≠ number)
    (hAllocated : Allocated G V other)
    (hIntact : Intact G V (V.inodes other)) :
    Intact G V' (V'.inodes other) := by
  have hInode := hKeeps.inodes other hOther
  have hPointer := hKeeps.pointer hOther hAllocated
  rw [hInode] at hPointer ⊢
  have hBlock :
      ∀ fileBlock,
        V'.fileBlock G (V.inodes other) fileBlock =
          V.fileBlock G (V.inodes other) fileBlock :=
    fun fileBlock => hPointer (fileSlot fileBlock)
  refine ⟨?_, ?_, hIntact.indirect⟩
  · intro fileBlock hNear
    rw [hBlock]
    exact hIntact.mapped fileBlock hNear
  · intro fileBlock hFar hSome
    rw [hBlock] at hSome ⊢
    rw [← hIntact.clear fileBlock hFar hSome]
    exact hKeeps.contents other hOther hAllocated _ hSome

/- The other files keep their bytes. -/
theorem KeepsOthers.content
    (hKeeps : KeepsOthers G V V' number)
    (hOther : other ≠ number)
    (hAllocated : Allocated G V other) :
    V'.content G other = V.content G other := by
  have hByte := hKeeps.fileByte hOther hAllocated
  unfold Volume.content
  rw [hKeeps.inodes other hOther] at hByte ⊢
  exact tabulate_congr fun offset _ => hByte offset

/-
  A change to one file: what it takes for the files to stay
  sound.
-/
structure Edited
    (G : Geometry)
    (V : Volume)
    (number : Nat)
    (V' : Volume) : Prop where
  keeps : KeepsOthers G V V' number
  modes : SameModes V V'
  editing : Editing G V' number (V'.inodes number)
  intact : Intact G V' (V'.inodes number)

namespace Edited

theorem trans
    {V'' : Volume}
    (hFirst : Edited G V number V')
    (hSecond : Edited G V' number V'') :
    Edited G V number V'' where
  keeps := hFirst.keeps.trans hSecond.keeps
  modes := hFirst.modes.trans hSecond.modes
  editing := hSecond.editing
  intact := hSecond.intact

variable (hEdited : Edited G V number V')
include hEdited

theorem allocated_iff :
    Allocated G V' other ↔ Allocated G V other :=
  hEdited.modes.allocated_iff

theorem isRegular_iff :
    (V'.inodes other).IsRegular ↔
      (V.inodes other).IsRegular := by
  unfold Inode.IsRegular
  rw [hEdited.modes.mode]

/- Every path leads where it led before. -/
theorem samePaths
    (hSound : SoundFiles G V s)
    (hRegular : (V.inodes number).IsRegular) :
    SamePaths G V V' number where
  keeps := hEdited.keeps
  blocks := fun _ hAllocated =>
    (hSound.editing hAllocated).blocksAreData
  file := hRegular.not_isDir
  file' := (hEdited.isRegular_iff.mpr hRegular).not_isDir

theorem soundFiles
    (hSane : Sane G)
    (hSound : SoundFiles G V s)
    (hRegular : (V.inodes number).IsRegular)
    (hHolds : Holds G V' s')
    (hDriver : SameDriver s s') :
    SoundFiles G V' s' where
  holds := hHolds
  metadata := hEdited.editing.metadata
  separates := by
    rw [← Volume.refsWith_inodes V' G number]
    exact hEdited.editing.separates
  kind := by
    intro other hAllocated
    have hKind :=
      hSound.kind other (hEdited.allocated_iff.mp hAllocated)
    unfold Inode.IsRegular Inode.IsDirectory at hKind ⊢
    rwa [hEdited.modes.mode]
  intact := by
    intro other hAllocated hOtherRegular
    have hAllocated' := hEdited.allocated_iff.mp hAllocated
    by_cases hOther : other = number
    · rw [hOther]
      exact hEdited.intact
    · exact hEdited.keeps.intact hOther hAllocated'
        (hSound.intact other hAllocated'
          (hEdited.isRegular_iff.mp hOtherRegular))
  names :=
    (hEdited.samePaths hSound hRegular).namesAllocated hSane
      hSound.holds hHolds hDriver.stackBytes hSound.names

/- Targets stay, and the file has its new bytes. -/
theorem shows
    (hSane : Sane G)
    (hSound : SoundFiles G V s)
    (hRegular : (V.inodes number).IsRegular)
    (hHolds : Holds G V' s')
    (hDriver : SameDriver s s')
    {target : Option CString → Target}
    {content : Nat → List UInt8}
    (hShows : Shows G V s target content) :
    Shows G V' s' target
      (Function.update content number
        (V'.content G number)) where
  target := by
    intro path
    rcases hShows.target path with ⟨found, hFound, hTarget⟩
    have hPaths :=
      (hEdited.samePaths hSound hRegular).pathLookup_eq hSane
        hSound.holds hHolds hDriver.stackBytes hSound.names
        (path.map (·.1))
    rw [hFound] at hPaths
    refine ⟨_, hPaths, ?_⟩
    rw [hTarget]
    cases found with
    | none => rfl
    | some last =>
        have hInode := (hSound.of_lookup hSane hFound).1
        have hMode :
            (V'.inodes last.2).isFile = last.1.isFile := by
          apply Inode.isFile_congr
          rw [hInode]
          exact hEdited.modes.mode _
        change targetOf (some last) =
          targetOf (some (V'.refresh last))
        cases hFile : last.1.isFile with
        | true =>
            rw [targetOf_of_file hFile,
              targetOf_of_file (hMode.trans hFile)]
            rfl
        | false =>
            have hOther : last.2 ≠ number := by
              rintro hSame
              rw [hInode, hSame, hRegular.isFile] at hFile
              cases hFile
            unfold Volume.refresh
            rw [hEdited.keeps.inodes _ hOther, ← hInode]
  content := by
    intro other hAllocated hOtherRegular
    by_cases hOther : other = number
    · rw [hOther, Function.update_self]
    · have hAllocated' := hEdited.allocated_iff.mp hAllocated
      rw [Function.update_of_ne hOther,
        hEdited.keeps.content hOther hAllocated']
      exact hShows.content other hAllocated'
        (hEdited.isRegular_iff.mp hOtherRegular)

end Edited

end

end Ext2

end Whirliscope

------------------------------------------------------------
-- Readable Directories
------------------------------------------------------------

namespace Whirliscope

namespace Ext2

open ByteMemory ByteStrings FaultProgram Components

/-
  The records of each directory can be walked to the end, and
  live records name allocated inodes.
-/
structure DirsReadable
    (G : Geometry)
    (V : Volume)
    (s : State) : Prop where
  root : Allocated G V rootInode
  readable :
    ∀ dir, Allocated G V dir →
      (V.inodes dir).isDir = true →
        ∃ records,
          directoryRecords s (V.inodes dir) =
              .ok (records, .finished) ∧
            ∀ record ∈ records, record.HasRoom ∧
              (record.inode ≠ 0 →
                Allocated G V record.inode)

section

variable {G : Geometry} {V : Volume} {s : State}

namespace DirsReadable

/- A search ends, at an allocated inode if anywhere. -/
theorem exists_findInDir
    (hSane : Sane G)
    (hHolds : Holds G V s)
    (hDirs : DirsReadable G V s)
    {dir : Nat}
    (hAllocated : Allocated G V dir)
    (name : List UInt8) :
    ∃ found,
      findInDir s (V.inodes dir) name = .ok found ∧
        ∀ number, found = some number →
          Allocated G V number := by
  have hSize :=
    (hHolds.blockSizeAccepted hSane).le_directoryBuffer
  by_cases hSearch :
      (V.inodes dir).isDir = true ∧ name ≠ [] ∧
        name.length ≤ nameLen
  · rcases hSearch with ⟨hDir, hName, hShort⟩
    rcases hDirs.readable dir hAllocated hDir with
      ⟨records, hScanned, hRecords⟩
    refine ⟨_, findInDir_eq hDir hName hShort hSize hScanned
      fun record hMem => (hRecords record hMem).1, ?_⟩
    intro number hNumber
    rw [Option.map_eq_some_iff] at hNumber
    rcases hNumber with ⟨record, hFind, rfl⟩
    have hNamed : record.Named name := by
      simpa using List.find?_some hFind
    exact (hRecords record
      (List.mem_of_find?_eq_some hFind)).2 hNamed.1
  · refine ⟨none, ?_, nofun⟩
    have hRefused :
        (!(V.inodes dir).isDir) = true ∨ name.length = 0 ∨
          name.length > nameLen := by
      by_contra hOther
      push Not at hOther
      apply hSearch
      refine ⟨by simpa using hOther.1, ?_, hOther.2.2⟩
      exact fun hNil => hOther.2.1 (by rw [hNil]; rfl)
    unfold findInDir
    rw [if_pos hRefused]
    rfl

theorem namesAllocated
    (hSane : Sane G)
    (hHolds : Holds G V s)
    (hDirs : DirsReadable G V s) :
    NamesAllocated G V s where
  root := hDirs.root
  entry := by
    intro dir name number hAllocated hFound
    rcases hDirs.exists_findInDir hSane hHolds hAllocated
        name with ⟨found, hSearch, hNumber⟩
    rw [hFound] at hSearch
    exact hNumber number (Except.ok.inj hSearch).symm

theorem exists_lookupNames
    (hSane : Sane G)
    (hHolds : Holds G V s)
    (hDirs : DirsReadable G V s)
    (names : List (List UInt8))
    {start : Inode × Nat}
    (hStart : V.Knows G start) :
    ∃ found, lookupNames s names start = .ok found := by
  induction names generalizing start with
  | nil => exact ⟨some start, rfl⟩
  | cons name names ih =>
      rcases hDirs.exists_findInDir hSane hHolds hStart.2
          name with ⟨found, hSearch, hNumber⟩
      rw [← hStart.1] at hSearch
      rw [lookupNames_cons]
      cases found with
      | none =>
          refine ⟨none, ?_⟩
          unfold lookupVisit
          rw [hSearch]
          rfl
      | some next =>
          have hNext := hNumber next rfl
          have hRead := hHolds.readInode_allocated hSane hNext
          have hKnows : V.Knows G (V.inodes next, next) :=
            ⟨rfl, hNext⟩
          rcases ih hKnows with ⟨last, hLast⟩
          refine ⟨last, ?_⟩
          rw [lookupVisit_of_found hSearch, hRead]
          exact hLast

/- Every lookup ends. -/
theorem exists_pathLookup
    (hSane : Sane G)
    (hHolds : Holds G V s)
    (hDirs : DirsReadable G V s)
    (path : Option (List UInt8)) :
    ∃ found, pathLookup s path = .ok found := by
  cases path with
  | none =>
      refine ⟨none, ?_⟩
      unfold pathLookup
      rw [hHolds.mounted]
      rfl
  | some chars =>
      by_cases hAbsolute : chars.head? = some slash
      · rw [pathLookup_eq hHolds.mounted hAbsolute,
          hHolds.readInode_allocated hSane hDirs.root]
        exact hDirs.exists_lookupNames hSane hHolds _
          ⟨rfl, hDirs.root⟩
      · refine ⟨none, ?_⟩
        unfold pathLookup
        simp only [hHolds.mounted, Bool.not_true,
          Bool.false_eq_true, if_false, ne_eq, hAbsolute,
          not_false_iff, if_true]
        rfl

end DirsReadable

/- The store that an image shows. -/
theorem exists_shows
    (hSane : Sane G)
    (hHolds : Holds G V s)
    (hDirs : DirsReadable G V s) :
    ∃ target, Shows G V s target (V.content G) := by
  have hTarget :
      ∀ path : Option CString, ∃ place : Target, ∃ found,
        pathLookup s (path.map (·.1)) = .ok found ∧
          place = targetOf found := by
    intro path
    rcases hDirs.exists_pathLookup hSane hHolds
        (path.map (·.1)) with ⟨found, hFound⟩
    exact ⟨_, found, hFound, rfl⟩
  choose target hShows using hTarget
  exact ⟨target, hShows, fun _ _ _ => rfl⟩

/- A change to one file keeps the directories. -/
theorem Edited.dirsReadable
    {V' : Volume}
    {s' : State}
    {number : Nat}
    (hEdited : Edited G V number V')
    (hSane : Sane G)
    (hSound : SoundFiles G V s)
    (hRegular : (V.inodes number).IsRegular)
    (hHolds : Holds G V' s')
    (hDriver : SameDriver s s')
    (hDirs : DirsReadable G V s) :
    DirsReadable G V' s' where
  root := hEdited.allocated_iff.mpr hDirs.root
  readable := by
    intro dir hAllocated hDir
    rw [hEdited.allocated_iff] at hAllocated
    have hOther : dir ≠ number := by
      rintro rfl
      rw [(hEdited.isRegular_iff.mpr hRegular).not_isDir]
        at hDir
      cases hDir
    have hSame := hEdited.samePaths hSound hRegular
    have hBlocks := hSame.blocks dir hAllocated
    have hPointer := hEdited.keeps.pointer hOther hAllocated
    have hBytes := hEdited.keeps.fileByte hOther hAllocated
    rw [hEdited.keeps.inodes dir hOther] at *
    rcases hDirs.readable dir hAllocated hDir with
      ⟨records, hScanned, hRecords⟩
    have hBlocks' : BlocksAreData G V' (V.inodes dir) := by
      intro slot hSome
      rw [hPointer] at hSome ⊢
      exact hBlocks slot hSome
    have hBlockSize : s'.blockSize = s.blockSize :=
      hHolds.blockSize.trans hSound.holds.blockSize.symm
    refine ⟨records, ?_, fun record hMem => ?_⟩
    · rw [← hScanned]
      apply scanDirectory_congr hBlockSize hDriver.stackBytes
      intro offset len buffer hLen
      rw [hHolds.readInodeBytes_eq hSane hBlocks' hLen,
        hSound.holds.readInodeBytes_eq hSane hBlocks hLen]
      simp only [hBytes]
    · refine ⟨(hRecords record hMem).1, fun hLive => ?_⟩
      exact hEdited.allocated_iff.mpr
        ((hRecords record hMem).2 hLive)

end

end Ext2

end Whirliscope

------------------------------------------------------------
-- Changes to One File
------------------------------------------------------------

namespace Whirliscope

namespace Ext2

open ByteMemory ByteStrings FaultProgram Ownership

section

variable {G : Geometry} {V V' : Volume} {s s' : State}
variable {number newSize : Nat} {file copy : Inode}

/- A growth that failed changes no byte. -/
theorem Abandoned.edited
    (hFile : V.inodes number = file)
    (hEditing : Editing G V number file)
    (hIntact : Intact G V file)
    (hAbandoned : Abandoned G V number file V') :
    Edited G V number V' ∧
      V'.content G number = V.content G number := by
  have hInode : V'.inodes number = file := by
    rw [hAbandoned.inodes_eq, hFile]
  constructor
  · refine ⟨hAbandoned.keepsOthers hEditing,
      hAbandoned.sameModes, ?_, ?_⟩
    · rw [hInode]
      exact hAbandoned.editing hEditing
    · rw [hInode]
      exact hAbandoned.intact hEditing hIntact
  · unfold Volume.content
    rw [hInode, hFile]
    exact tabulate_congr fun offset hOffset =>
      hAbandoned.fileByte_eq hEditing hIntact hOffset

/- A file has no more blocks than it can have pointers. -/
theorem Intact.size_le
    (hIntact : Intact G V file) :
    file.size ≤ G.maxSize := by
  by_contra hBig
  have hLess :
      (directBlocks + G.entries) * G.blockSize < file.size :=
    Nat.lt_of_not_le hBig
  apply hIntact.mapped _ hLess
  unfold Volume.fileBlock
  rw [fileSlot_of_le (Nat.le_add_right _ _)]
  exact Volume.pointer_entry_of_le (by omega)

/- Only a growth fails. -/
theorem Resized.lt_of_failed
    (hIntact : Intact G V file)
    (hResized :
      Resized G V number file newSize (false, copy) V') :
    file.size < newSize := by
  cases hResized with
  | tooBig hBig =>
      exact Nat.lt_of_le_of_lt hIntact.size_le hBig
  | full hFits hMore hGrown =>
      by_contra hLess
      have hMono :=
        @sizeBlocks_mono G _ _ (Nat.le_of_not_lt hLess)
      omega

/- A resize cuts the bytes off or appends zeros. -/
theorem Resized.edited
    (hSane : Sane G)
    (hFile : V.inodes number = file)
    (hEditing : Editing G V number file)
    (hIntact : Intact G V file)
    (hResized :
      Resized G V number file newSize (true, copy) V') :
    Edited G V number V' ∧
      V'.content G number =
        resize 0 (V.content G number) newSize := by
  rcases hResized.editing hSane hEditing hIntact with
    ⟨hEditing', hInode⟩
  constructor
  · refine ⟨hResized.keepsOthers hSane hEditing hIntact,
      hResized.sameModes hSane hEditing hFile.symm, ?_, ?_⟩
    · rw [hInode]
      exact hEditing'
    · rw [hInode]
      exact hResized.intact hSane hEditing hIntact
  · unfold Volume.content
    rw [hInode, hFile, resize_tabulate,
      (hResized.size_eq hSane).2]
    exact tabulate_congr fun offset hOffset =>
      hResized.fileByte_eq hSane hEditing hIntact hOffset

theorem Volume.withContents_sameModes
    (V : Volume)
    (contents : Nat → Bytes) :
    SameModes V (V.withContents contents) :=
  ⟨rfl, rfl, rfl, rfl, rfl, fun _ => rfl⟩

/- Bytes that are stored replace those in their place. -/
theorem Stored.edited
    (hFile : V.inodes number = file)
    (hEditing : Editing G V number file)
    (hIntact : Intact G V file)
    {source : Bytes}
    {offset count : Nat}
    {contents : Nat → Bytes}
    (hStop : offset + count ≤ file.size)
    (hStored : Stored G V file source offset count contents) :
    Edited G V number (V.withContents contents) ∧
      (V.withContents contents).content G number =
        overwrite (V.content G number) offset
          (tabulate count source) := by
  have hInode : (V.withContents contents).inodes number = file :=
    hFile
  constructor
  · refine ⟨hStored.keepsOthers hEditing,
      V.withContents_sameModes contents, ?_, ?_⟩
    · rw [hInode]
      exact hStored.editing hEditing fun _ hLow _ =>
        hIntact.mapped_range hStop hLow
    · rw [hInode]
      exact hStored.intact hEditing hIntact hStop
  · unfold Volume.content
    rw [hInode, hFile, overwrite_tabulate (by omega),
      Nat.max_eq_left hStop]
    exact tabulate_congr fun offset _ => hStored.bytes offset

/- All that a write can do to the file. -/
theorem Written.edited
    (hSane : Sane G)
    (hFile : V.inodes number = file)
    (hEditing : Editing G V number file)
    (hIntact : Intact G V file)
    {source : Bytes}
    {len offset : Nat}
    {done : Bool}
    (hWritten :
      Written G V number file source len offset done V') :
    Edited G V number V' ∧
      if done = true then
        offset ≤ (V.content G number).length ∧
          V'.content G number =
            overwrite (V.content G number) offset
              (tabulate len source)
      else
        V'.content G number = V.content G number ∧
          ((V.content G number).length < offset + len ∨
            2 ^ 64 ≤ offset + len) := by
  have hLength : (V.content G number).length = file.size := by
    rw [Volume.content, length_tabulate, hFile]
  have hSmall := file.size_lt
  rw [hLength]
  cases hWritten with
  | refused hRange =>
      rw [if_neg Bool.false_ne_true]
      have hEditing' : Editing G V number (V.inodes number) := by
        rwa [hFile]
      have hIntact' : Intact G V (V.inodes number) := by
        rwa [hFile]
      exact ⟨⟨.refl G V number, .refl V, hEditing', hIntact'⟩,
        rfl, by omega⟩
  | full hStart hRange hMore hResized =>
      rw [if_neg Bool.false_ne_true]
      have hEdited :=
        (hResized.abandoned hSane hEditing).edited hFile
          hEditing hIntact
      exact ⟨hEdited.1, hEdited.2, .inl hMore⟩
  | inside hStop hStored =>
      rw [if_pos rfl]
      have hEdited :=
        hStored.edited hFile hEditing hIntact hStop
      exact ⟨hEdited.1, by omega, hEdited.2⟩
  | @beyond copy V₁ contents hStart hRange hMore hResized
      hStored =>
      rw [if_pos rfl]
      have hGrown :=
        hResized.edited hSane hFile hEditing hIntact
      rcases hResized.editing hSane hEditing hIntact with
        ⟨hEditing₁, hFile₁⟩
      have hStop : offset + len ≤ copy.size := by
        rw [(hResized.size_eq hSane).2]
      have hEdited :=
        hStored.edited hFile₁ hEditing₁
          (hResized.intact hSane hEditing hIntact) hStop
      refine ⟨hGrown.1.trans hEdited.1, hStart, ?_⟩
      rw [hEdited.2, hGrown.2]
      unfold Volume.content
      rw [hFile, resize_tabulate,
        overwrite_tabulate (by omega),
        overwrite_tabulate hStart,
        Nat.max_eq_left (Nat.le_refl _),
        Nat.max_eq_right (Nat.le_of_lt hMore)]
      apply tabulate_congr
      intro i hi
      by_cases hInside : offset ≤ i ∧ i < offset + len
      · rw [if_pos hInside, if_pos hInside]
      · rw [if_neg hInside, if_neg hInside, if_pos (by omega)]

end

end Ext2

end Whirliscope

------------------------------------------------------------
-- The Calls
------------------------------------------------------------

namespace Whirliscope

namespace Ext2

open ByteMemory ByteStrings FaultProgram Ownership

/- A lookup that leads to no file. -/
def NoFile : Option (Inode × Nat) → Prop
| none => True
| some (inode, _) => inode.isFile = false

section

variable {G : Geometry} {V : Volume} {s : State}
variable {stops : Fault → Prop}
variable {path : Option CString} {found : Option (Inode × Nat)}
variable {target : Option CString → Target}
variable {content : Nat → List UInt8}

theorem targetOf_ne_file
    (hNone : NoFile found)
    (number : Nat) :
    targetOf found ≠ .file number := by
  cases found with
  | none => exact Target.noConfusion
  | some last =>
      rw [targetOf_of_not_file hNone]
      exact Target.noConfusion

theorem ensures_writeFile_refused
    (hFound : pathLookup s (path.map (·.1)) = .ok found)
    (hNone : NoFile found)
    (buffer : Option Bytes)
    (len offset : Nat) :
    Ensures stops (ext2WriteFile path buffer len offset) s
      fun code final => code < 0 ∧ final = s := by
  unfold ext2WriteFile
  rw [ensures_ite_iff]
  refine ⟨fun _ => ?_, fun _ => ?_⟩
  · rw [ensures_pure_iff]
    exact ⟨by decide, rfl⟩
  simp only [ensures_bind_iff, ensures_get_iff, hFound,
    ensures_lift_iff, yields_ok_iff]
  cases found with
  | none =>
      rw [ensures_pure_iff]
      exact ⟨by decide, rfl⟩
  | some last =>
      have hFile : last.1.isFile = false := hNone
      simp only [hFile, Bool.not_false, if_true,
        ensures_pure_iff]
      exact ⟨by decide, trivial⟩

theorem ensures_truncateFile_refused
    (hFound : pathLookup s (path.map (·.1)) = .ok found)
    (hNone : NoFile found)
    (size : Nat) :
    Ensures stops (ext2TruncateFile path size) s
      fun code final => code < 0 ∧ final = s := by
  unfold ext2TruncateFile
  simp only [ensures_bind_iff, ensures_get_iff, hFound,
    ensures_lift_iff, yields_ok_iff]
  cases found with
  | none =>
      rw [ensures_pure_iff]
      exact ⟨by decide, rfl⟩
  | some last =>
      have hFile : last.1.isFile = false := hNone
      simp only [hFile, Bool.not_false, if_true,
        ensures_pure_iff]
      exact ⟨by decide, trivial⟩

/- A null buffer with a length is refused at once. -/
theorem ensures_writeFile_null
    {len : Nat}
    (hLen : len ≠ 0)
    (offset : Nat) :
    Ensures stops (ext2WriteFile path none len offset) s
      fun code final => code < 0 ∧ final = s := by
  unfold ext2WriteFile
  rw [if_pos ⟨rfl, hLen⟩, ensures_pure_iff]
  exact ⟨by decide, rfl⟩

theorem ext2ReadFile_refused
    (hFound : pathLookup s (path.map (·.1)) = .ok found)
    (hNone : NoFile found)
    (buffer : Bytes)
    (len offset : Nat) :
    ext2ReadFile s path buffer len offset =
      .ok (userErrInval, buffer) := by
  unfold ext2ReadFile
  rw [hFound]
  cases found with
  | none => rfl
  | some last =>
      have hFile : last.1.isFile = false := hNone
      change
        (if (!last.1.isFile) = true then
          (.ok (userErrInval, buffer) :
            Except Fault (Int × Bytes))
        else _) = _
      rw [hFile]
      rfl

theorem ext2Stat_of_none
    (hFound : pathLookup s (path.map (·.1)) = .ok none) :
    ext2Stat s path = .ok (userErrInval, none) := by
  unfold ext2Stat
  rw [hFound]
  rfl

theorem ext2Stat_of_some
    {last : Inode × Nat}
    (hFound :
      pathLookup s (path.map (·.1)) = .ok (some last)) :
    ext2Stat s path =
      .ok (0, some
        { inode := last.2
          type := last.1.statType
          size := last.1.size
          name := [] }) := by
  unfold ext2Stat
  rw [hFound]
  rfl

/- A file is read from its string. -/
theorem SoundFiles.ext2ReadFile_eq
    (hSane : Sane G)
    (hSound : SoundFiles G V s)
    {file : Inode × Nat}
    (hFound :
      pathLookup s (path.map (·.1)) = .ok (some file))
    (hFile : file.1.isFile = true)
    (buffer : Bytes)
    (len offset : Nat) :
    ∃ count source,
      excerpt (V.content G file.2) offset len =
          tabulate count source ∧
        ext2ReadFile s path buffer len offset =
          .ok ((count : Int), write buffer 0 count source) := by
  rcases hSound.of_lookup hSane hFound with
    ⟨hInode, hAllocated, -, -⟩
  rcases file with ⟨file, number⟩
  dsimp only at hInode hAllocated hFile ⊢
  refine ⟨min len (file.size - offset),
    fun i => V.fileByte G file (offset + i), ?_, ?_⟩
  · unfold Volume.content
    rw [← hInode, excerpt_tabulate]
  unfold ext2ReadFile
  rw [hFound]
  simp only [bind, Except.bind, hFile, Bool.not_true,
    Bool.false_eq_true, if_false]
  by_cases hPast : offset ≥ file.size
  · have hNone : min len (file.size - offset) = 0 := by omega
    rw [if_pos hPast, hNone, write_zero]
    rfl
  · rw [if_neg hPast]
    have hBlocks : BlocksAreData G V file := by
      rw [hInode]
      exact (hSound.editing hAllocated).blocksAreData
    rw [hSound.holds.readInodeBytes_eq hSane hBlocks
      (by omega) buffer]
    rfl

end

end Ext2

end Whirliscope

------------------------------------------------------------
-- Runs
------------------------------------------------------------

namespace Whirliscope

namespace Ext2

open ByteMemory ByteStrings FaultProgram Ownership

/- The call is served, and the files stay sound. -/
def Follows
    (G : Geometry)
    (V : Volume)
    (s : State)
    (target : Option CString → Target)
    (content : Nat → List UInt8)
    (call : Call)
    (reply : Reply)
    (final : State) : Prop :=
  ∃ V' content',
    SoundFiles G V' final ∧ SameDriver s final ∧
      Shows G V' final target content' ∧
      Serves (WritebackSucceeds s) target content call reply
        content' ∧
      V'.fixed = V.fixed ∧
      (DirsReadable G V s → DirsReadable G V' final)

section

variable {G : Geometry} {V : Volume} {s : State}
variable {target : Option CString → Target}
variable {content : Nat → List UInt8}

theorem Reports.answered
    {value code : Int}
    (hReports : Reports s true value code) :
    Answered (WritebackSucceeds s) value code := by
  rcases hReports with ⟨-, hDone, hWorks⟩
  by_cases hValue : code = value
  · exact .inl hValue
  · exact .inr ⟨(hDone rfl).resolve_left hValue,
      fun hSucceeds => hValue (hWorks rfl hSucceeds)⟩

/- A file of the store as the calls find it. -/
structure FileAt
    (G : Geometry)
    (V : Volume)
    (content : Nat → List UInt8)
    (file : Inode)
    (number : Nat) : Prop where
  inode : V.inodes number = file
  isFile : file.isFile = true
  regular : (V.inodes number).IsRegular
  editing : Editing G V number file
  intact : Intact G V file
  content : content number = V.content G number

theorem FileAt.length_content
    {file : Inode}
    {number : Nat}
    (hAt : FileAt G V content file number) :
    (content number).length = file.size := by
  rw [hAt.content, Volume.content, length_tabulate, hAt.inode]

/- A sync changes the medium only. -/
theorem ensures_ext2Sync_medium
    {stops : Fault → Prop}
    (hHolds : Holds G V s) :
    Ensures stops ext2Sync s fun ok final =>
      (WritebackSucceeds s → ok = true) ∧
        ∃ medium, final = { s with medium := medium } := by
  unfold ext2Sync
  rw [ensures_bind_iff, ensures_get_iff, hHolds.mounted]
  simp only [Bool.not_true, Bool.false_eq_true, if_false]
  split
  · rw [ensures_pure_iff]
    exact ⟨fun _ => rfl, s.medium, rfl⟩
  · next writeback hWriteback =>
      rw [ensures_bind_iff, ensures_set_iff, ensures_pure_iff]
      exact ⟨fun hSucceeds =>
        hSucceeds writeback hWriteback _ _ _, _, rfl⟩

theorem ensures_readFile
    {path : Option CString}
    {buffer after : Bytes}
    {len offset : Nat}
    {code : Int}
    {post : Reply → State → Prop}
    (hRead :
      ext2ReadFile s path buffer len offset = .ok (code, after))
    (hPost : post (.read code after) s) :
    Ensures (fun _ => False)
      (Call.run (.readFile path buffer len offset)) s post := by
  unfold Call.run
  simp only [ensures_bind_iff, ensures_get_iff, hRead,
    ensures_lift_iff, yields_ok_iff, ensures_pure_iff]
  exact hPost

theorem ensures_statFile
    {path : Option CString}
    {code : Int}
    {entry : Option UserFsDirent}
    {post : Reply → State → Prop}
    (hStat : ext2Stat s path = .ok (code, entry))
    (hPost : post (.stat code entry) s) :
    Ensures (fun _ => False) (Call.run (.stat path)) s post := by
  unfold Call.run
  simp only [ensures_bind_iff, ensures_get_iff, hStat,
    ensures_lift_iff, yields_ok_iff, ensures_pure_iff]
  exact hPost

namespace SoundFiles

/- A call that changes nothing. -/
theorem follows_same
    (hSound : SoundFiles G V s)
    (hShows : Shows G V s target content)
    {call : Call}
    {reply : Reply}
    (hServes :
      Serves (WritebackSucceeds s) target content call reply
        content) :
    Follows G V s target content call reply s :=
  ⟨V, content, hSound, .refl s, hShows, hServes, rfl, id⟩

/- A call that changes one file. -/
theorem follows_edited
    (hSane : Sane G)
    (hSound : SoundFiles G V s)
    (hShows : Shows G V s target content)
    {number : Nat}
    (hRegular : (V.inodes number).IsRegular)
    {V' : Volume}
    {final : State}
    (hEdited : Edited G V number V')
    (hHolds : Holds G V' final)
    (hDriver : SameDriver s final)
    {call : Call}
    {reply : Reply}
    (hServes :
      Serves (WritebackSucceeds s) target content call reply
        (Function.update content number
          (V'.content G number))) :
    Follows G V s target content call reply final :=
  ⟨V', _,
    hEdited.soundFiles hSane hSound hRegular hHolds hDriver,
    hDriver,
    hEdited.shows hSane hSound hRegular hHolds hDriver hShows,
    hServes, hEdited.modes.fixed,
    hEdited.dirsReadable hSane hSound hRegular hHolds
      hDriver⟩

/- A path leads to a file of the store, or to no file. -/
theorem target_cases
    (hSane : Sane G)
    (hSound : SoundFiles G V s)
    (hShows : Shows G V s target content)
    (path : Option CString) :
    (∃ found,
        pathLookup s (path.map (·.1)) = .ok found ∧
          NoFile found ∧ target path = targetOf found) ∨
      ∃ file number,
        pathLookup s (path.map (·.1)) =
            .ok (some (file, number)) ∧
          target path = .file number ∧
          FileAt G V content file number := by
  rcases hShows.target path with ⟨found, hFound, hTarget⟩
  by_cases hNone : NoFile found
  · exact .inl ⟨found, hFound, hNone, hTarget⟩
  cases found with
  | none => exact absurd trivial hNone
  | some last =>
      rcases last with ⟨file, number⟩
      have hFile : file.isFile = true :=
        Bool.eq_true_of_not_eq_false hNone
      rcases hSound.of_lookup hSane hFound with
        ⟨hInode, hAllocated, hKind, -⟩
      dsimp only at hInode hAllocated hKind
      have hRegular : (V.inodes number).IsRegular :=
        hInode ▸ hKind hFile
      exact .inr ⟨file, number, hFound,
        hTarget.trans (targetOf_of_file hFile),
        { inode := hInode.symm
          isFile := hFile
          regular := hRegular
          editing := hInode ▸ hSound.editing hAllocated
          intact :=
            hInode ▸ hSound.intact number hAllocated hRegular
          content :=
            hShows.content number hAllocated hRegular }⟩

/- A sync changes neither files nor names. -/
theorem ensures_sync
    (hSound : SoundFiles G V s)
    (hShows : Shows G V s target content) :
    Ensures (fun _ => False) (Call.run .sync) s
      fun reply final =>
        Follows G V s target content .sync reply final := by
  unfold Call.run
  rw [ensures_bind_iff]
  apply (ensures_ext2Sync_medium hSound.holds).mono
  rintro ok final ⟨hOk, medium, rfl⟩
  rw [ensures_pure_iff]
  exact ⟨V, content,
    { holds := { hSound.holds with }
      metadata := hSound.metadata
      separates := hSound.separates
      kind := hSound.kind
      intact := hSound.intact
      names := ⟨hSound.names.root, hSound.names.entry⟩ },
    ⟨rfl, rfl⟩,
    ⟨hShows.target, hShows.content⟩,
    .synced hOk, rfl,
    fun hDirs => ⟨hDirs.root, hDirs.readable⟩⟩

theorem ensures_write
    (hSane : Sane G)
    (hSound : SoundFiles G V s)
    (hShows : Shows G V s target content)
    (path : Option CString)
    (buffer : Option Bytes)
    {len : Nat}
    (hLen : len < 2 ^ 64)
    (offset : Nat) :
    Ensures (fun _ => False)
      (ext2WriteFile path buffer len offset) s
      fun code final =>
        Follows G V s target content
          (.writeFile path buffer len offset) (.code code)
          final := by
  by_cases hNull : buffer = none ∧ len ≠ 0
  · rcases hNull with ⟨rfl, hSome⟩
    apply (ensures_writeFile_null hSome offset).mono
    rintro code final ⟨hCode, rfl⟩
    exact hSound.follows_same hShows
      (.writeRefused hCode (.inr (.inl ⟨rfl, hSome⟩)))
  have hBuffer : buffer = none → len = 0 := fun hIsNone => by
    by_contra hSome
    exact hNull ⟨hIsNone, hSome⟩
  rcases hSound.target_cases hSane hShows path with
    ⟨found, hFound, hNone, hTarget⟩ |
      ⟨file, number, hFound, hTarget, hAt⟩
  · apply (ensures_writeFile_refused hFound hNone buffer len
      offset).mono
    rintro code final ⟨hCode, rfl⟩
    exact hSound.follows_same hShows
      (.writeRefused hCode
        (.inl fun _ => hTarget ▸ targetOf_ne_file hNone _))
  apply ((hSound.holds.ensures_ext2WriteFile hSane hAt.editing
    hAt.inode hAt.intact hAt.isFile hFound hBuffer hLen
    offset).and
      ((stable_sameDriver s).concludes_ext2WriteFile path
        buffer len offset s (.refl s))).mono
  rintro code final
    ⟨⟨done, V', hWritten, hHolds, hReports⟩, -, hDriver, -⟩
  rcases hWritten.edited hSane hAt.inode hAt.editing
      hAt.intact with ⟨hEdited, hBytes⟩
  apply hSound.follows_edited hSane hShows hAt.regular hEdited
    hHolds hDriver
  rw [← hAt.content] at hBytes
  cases done with
  | true =>
      rw [if_pos rfl] at hBytes
      rw [hBytes.2]
      exact .written hTarget hBytes.1 hReports.answered
  | false =>
      rw [if_neg Bool.false_ne_true] at hBytes
      rw [hBytes.1, Function.update_eq_self]
      exact .writeRefused (hReports.1 rfl)
        (.inr (.inr ⟨number, hTarget, hBytes.2⟩))

theorem ensures_truncate
    (hSane : Sane G)
    (hSound : SoundFiles G V s)
    (hShows : Shows G V s target content)
    (path : Option CString)
    (size : Nat) :
    Ensures (fun _ => False) (ext2TruncateFile path size) s
      fun code final =>
        Follows G V s target content (.truncateFile path size)
          (.code code) final := by
  rcases hSound.target_cases hSane hShows path with
    ⟨found, hFound, hNone, hTarget⟩ |
      ⟨file, number, hFound, hTarget, hAt⟩
  · apply (ensures_truncateFile_refused hFound hNone size).mono
    rintro code final ⟨hCode, rfl⟩
    exact hSound.follows_same hShows
      (.truncateRefused hCode
        (.inl fun _ => hTarget ▸ targetOf_ne_file hNone _))
  apply ((hSound.holds.ensures_ext2TruncateFile hSane
    hAt.editing hAt.intact hAt.isFile hFound size).and
      ((stable_sameDriver s).concludes_ext2TruncateFile path
        size s (.refl s))).mono
  rintro code final
    ⟨⟨done, copy, V', hResized, hHolds, hReports⟩, -,
      hDriver, -⟩
  cases done with
  | true =>
      rcases hResized.edited hSane hAt.inode hAt.editing
          hAt.intact with ⟨hEdited, hBytes⟩
      apply hSound.follows_edited hSane hShows hAt.regular
        hEdited hHolds hDriver
      rw [hBytes, ← hAt.content]
      exact .truncated hTarget hReports.answered
  | false =>
      rcases (hResized.abandoned hSane hAt.editing).edited
          hAt.inode hAt.editing hAt.intact with
        ⟨hEdited, hBytes⟩
      apply hSound.follows_edited hSane hShows hAt.regular
        hEdited hHolds hDriver
      rw [hBytes, ← hAt.content, Function.update_eq_self]
      refine .truncateRefused (hReports.1 rfl)
        (.inr ⟨number, hTarget, ?_⟩)
      rw [hAt.length_content]
      exact hResized.lt_of_failed hAt.intact

theorem ensures_read
    (hSane : Sane G)
    (hSound : SoundFiles G V s)
    (hShows : Shows G V s target content)
    (path : Option CString)
    (buffer : Bytes)
    (len offset : Nat) :
    Ensures (fun _ => False)
      (Call.run (.readFile path buffer len offset)) s
      fun reply final =>
        Follows G V s target content
          (.readFile path buffer len offset) reply final := by
  rcases hSound.target_cases hSane hShows path with
    ⟨found, hFound, hNone, hTarget⟩ |
      ⟨file, number, hFound, hTarget, hAt⟩
  · exact ensures_readFile (ext2ReadFile_refused hFound hNone _ _ _)
      (hSound.follows_same hShows
        (.readRefused fun _ =>
          hTarget ▸ targetOf_ne_file hNone _))
  · rcases hSound.ext2ReadFile_eq hSane hFound hAt.isFile
        buffer len offset with ⟨count, source, hBytes, hRead⟩
    rw [← hAt.content] at hBytes
    exact ensures_readFile hRead
      (hSound.follows_same hShows (.read hTarget hBytes))

theorem ensures_stat
    (hSane : Sane G)
    (hSound : SoundFiles G V s)
    (hShows : Shows G V s target content)
    (path : Option CString) :
    Ensures (fun _ => False) (Call.run (.stat path)) s
      fun reply final =>
        Follows G V s target content (.stat path) reply
          final := by
  rcases hSound.target_cases hSane hShows path with
    ⟨found, hFound, hNone, hTarget⟩ |
      ⟨file, number, hFound, hTarget, hAt⟩
  · cases found with
    | none =>
        exact ensures_statFile (ext2Stat_of_none hFound)
          (hSound.follows_same hShows (.statNowhere hTarget))
    | some last =>
        have hDir :=
          (hSound.of_lookup hSane hFound).2.2.2 hNone
        have hType : last.1.statType = userFsTypeDir :=
          if_pos hDir
        have hStat := ext2Stat_of_some hFound
        rw [hType] at hStat
        rw [targetOf_of_not_file hNone] at hTarget
        exact ensures_statFile hStat
          (hSound.follows_same hShows (.statDirectory hTarget))
  · have hNotDir : file.isDir = false := by
      have hRegular := hAt.regular
      rw [hAt.inode] at hRegular
      exact hRegular.not_isDir
    have hType : file.statType = userFsTypeFile := by
      unfold Inode.statType
      rw [hNotDir, hAt.isFile]
      rfl
    have hStat := ext2Stat_of_some hFound
    dsimp only at hStat
    rw [hType, ← hAt.length_content] at hStat
    exact ensures_statFile hStat
      (hSound.follows_same hShows (.statFile hTarget))

/- Each call on files is served by the store. -/
theorem ensures_call
    (hSane : Sane G)
    (hSound : SoundFiles G V s)
    (hShows : Shows G V s target content)
    {call : Call}
    (hCall : call.OnFiles) :
    Ensures (fun _ => False) call.run s fun reply final =>
      Follows G V s target content call reply final := by
  cases call with
  | sync => exact hSound.ensures_sync hShows
  | stat path => exact hSound.ensures_stat hSane hShows path
  | readFile path buffer len offset =>
      exact hSound.ensures_read hSane hShows path buffer len
        offset
  | writeFile path buffer len offset =>
      unfold Call.run
      rw [ensures_bind_iff]
      apply (hSound.ensures_write hSane hShows path buffer
        hCall offset).mono
      intro code final hFollows
      rw [ensures_pure_iff]
      exact hFollows
  | truncateFile path size =>
      unfold Call.run
      rw [ensures_bind_iff]
      apply (hSound.ensures_truncate hSane hShows path
        size).mono
      intro code final hFollows
      rw [ensures_pure_iff]
      exact hFollows
  | getStatus => exact hCall.elim
  | listDir => exact hCall.elim
  | createFile => exact hCall.elim
  | mkdir => exact hCall.elim
  | unlink => exact hCall.elim
  | rmdir => exact hCall.elim

/-
  In every run of calls on files the driver acts as a store of
  byte strings, whatever calls fail on the way.
-/
theorem ensures_runCalls
    (hSane : Sane G)
    (hSound : SoundFiles G V s)
    (hShows : Shows G V s target content)
    {calls : List Call}
    (hCalls : ∀ call ∈ calls, call.OnFiles) :
    Ensures (fun _ => False) (runCalls calls) s
      fun replies final =>
        ∃ V' content',
          SoundFiles G V' final ∧
            Shows G V' final target content' ∧
            ServesAll (WritebackSucceeds s) target content
              calls replies content' ∧
            V'.fixed = V.fixed ∧
            (DirsReadable G V s →
              DirsReadable G V' final) := by
  induction calls generalizing s V content with
  | nil =>
      unfold runCalls
      rw [ensures_pure_iff]
      exact ⟨V, content, hSound, hShows, .nil content, rfl,
        id⟩
  | cons call calls ih =>
      rw [List.forall_mem_cons] at hCalls
      unfold runCalls
      rw [ensures_bind_iff]
      apply (hSound.ensures_call hSane hShows hCalls.1).mono
      rintro reply middle
        ⟨V₁, content₁, hSound₁, hDriver, hShows₁, hServes,
          hFixed, hDirs⟩
      have hWorks :
          WritebackSucceeds middle = WritebackSucceeds s := by
        unfold WritebackSucceeds
        rw [hDriver.writeback]
      rw [ensures_bind_iff]
      apply (ih hSound₁ hShows₁ hCalls.2).mono
      rintro replies final
        ⟨V₂, content₂, hSound₂, hShows₂, hRest, hFixed',
          hDirs'⟩
      rw [ensures_pure_iff]
      rw [hWorks] at hRest
      exact ⟨V₂, content₂, hSound₂, hShows₂,
        .cons hServes hRest, hFixed'.trans hFixed,
        fun hReadable => hDirs' (hDirs hReadable)⟩

end SoundFiles

end

end Ext2

end Whirliscope

------------------------------------------------------------
-- Where Bytes Come From
------------------------------------------------------------

namespace Whirliscope

namespace Ext2

open ByteMemory ByteStrings FaultProgram

section

variable {works : Prop} {target : Option CString → Target}
variable {content content' : Nat → List UInt8}
variable {number place : Nat} {byte : UInt8}

end

end Ext2

end Whirliscope

------------------------------------------------------------
-- The Small Volume
------------------------------------------------------------

namespace Whirliscope

namespace Ext2

open ByteMemory ByteStrings FaultProgram

section

variable {G : Geometry} {V : Volume} {s : State}

/- The directory and the file of the small volume. -/
def checkRecords
    (s : State)
    (dir : Inode) : Bool :=
  match directoryRecords s dir with
  | .ok (records, .finished) =>
      decide (∀ record ∈ records, record.HasRoom) &&
        records.all fun record =>
          decide (record.inode = 0 ∨ record.inode = 2 ∨
            record.inode = 11)
  | _ => false

theorem readable_of_checkRecords
    {dir : Inode}
    (hCheck : checkRecords s dir = true) :
    ∃ records,
      directoryRecords s dir = .ok (records, .finished) ∧
        ∀ record ∈ records, record.HasRoom ∧
          (record.inode = 0 ∨ record.inode = 2 ∨
            record.inode = 11) := by
  unfold checkRecords at hCheck
  split at hCheck
  · next records hScanned =>
      rw [Bool.and_eq_true, decide_eq_true_eq,
        List.all_eq_true] at hCheck
      refine ⟨records, hScanned, fun record hMem => ?_⟩
      exact ⟨hCheck.1 record hMem,
        of_decide_eq_true (hCheck.2 record hMem)⟩
  · cases hCheck

end

theorem smallState_dirsReadable :
    DirsReadable smallGeometry smallVolume smallState where
  root := smallVolume_root
  readable := by
    intro dir hAllocated hDir
    rcases smallVolume_allocated hAllocated with rfl | rfl
    · have hCheck :
          checkRecords smallState (smallVolume.inodes 2) =
            true := by
        decide
      rcases readable_of_checkRecords hCheck with
        ⟨records, hScanned, hRecords⟩
      refine ⟨records, hScanned, fun record hMem => ?_⟩
      refine ⟨(hRecords record hMem).1, fun hLive => ?_⟩
      rcases (hRecords record hMem).2 with
        hFree | hRoot | hFile
      · exact absurd hFree hLive
      · rw [hRoot]
        exact smallVolume_root
      · rw [hFile]
        exact smallVolume_file
    · rw [smallVolume_regular.not_isDir] at hDir
      cases hDir

theorem smallState_shows :
    ∃ target,
      Shows smallGeometry smallVolume smallState target
          (smallVolume.content smallGeometry) ∧
        target (some smallPath) = .file 11 := by
  rcases exists_shows smallGeometry_sane smallState_holds
      smallState_dirsReadable with ⟨target, hShows⟩
  refine ⟨target, hShows, ?_⟩
  rcases hShows.target (some smallPath) with
    ⟨found, hFound, hTarget⟩
  have hFound' :
      pathLookup smallState (some smallPath.1) = .ok found :=
    hFound
  rw [smallState_lookup] at hFound'
  rw [hTarget, ← Except.ok.inj hFound']
  exact targetOf_of_file smallVolume_regular.isFile

/- A write to "/f", a truncation and a sync. -/
def smallCalls : List Call :=
  [.writeFile (some smallPath) (some zeros) 5 3,
    .truncateFile (some smallPath) 2, .sync]

theorem smallCalls_onFiles :
    ∀ call ∈ smallCalls, call.OnFiles := by
  intro call hMem
  simp only [smallCalls, List.mem_cons, List.not_mem_nil,
    or_false] at hMem
  rcases hMem with rfl | rfl | rfl
  · exact (by decide : 5 < 2 ^ 64)
  · exact trivial
  · exact trivial

end Ext2

end Whirliscope

------------------------------------------------------------
-- The Driver as a Store
------------------------------------------------------------

namespace Whirliscope

namespace Ext2

open ByteMemory ByteStrings FaultProgram

section

variable {G : Geometry} {V : Volume} {s : State}

/-
  On a well-owned volume every run of calls on files acts as a
  store of byte strings does, whatever calls fail on the way.
-/
theorem runCalls_refines
    (hSane : Sane G)
    (hHolds : Holds G V s)
    (hWell : WellOwned G V)
    (hDirs : DirsReadable G V s) :
    ∃ target,
      Shows G V s target (V.content G) ∧
        ∀ calls : List Call,
          (∀ call ∈ calls, call.OnFiles) →
            Ensures (fun _ => False) (runCalls calls) s
              fun replies final =>
                ∃ V' content',
                  SoundFiles G V' final ∧
                    Shows G V' final target content' ∧
                    ServesAll (WritebackSucceeds s) target
                      (V.content G) calls replies
                      content' := by
  have hNames := hDirs.namesAllocated hSane hHolds
  have hSound := hWell.soundFiles hHolds hNames
  rcases exists_shows hSane hHolds hDirs with
    ⟨target, hShows⟩
  refine ⟨target, hShows, fun calls hCalls => ?_⟩
  apply (hSound.ensures_runCalls hSane hShows hCalls).mono
  rintro replies final
    ⟨V', content', hSound', hShows', hServes, -⟩
  exact ⟨V', content', hSound', hShows', hServes⟩

end

theorem smallState_refines :
    ∃ target,
      Shows smallGeometry smallVolume smallState target
          (smallVolume.content smallGeometry) ∧
        Ensures (fun _ => False) (runCalls smallCalls)
          smallState
          fun replies final =>
            ∃ V' content',
              SoundFiles smallGeometry V' final ∧
                Shows smallGeometry V' final target
                  content' ∧
                ServesAll (WritebackSucceeds smallState) target
                  (smallVolume.content smallGeometry)
                  smallCalls replies content' := by
  rcases runCalls_refines smallGeometry_sane smallState_holds
      smallState_wellOwned smallState_dirsReadable with
    ⟨target, hShows, hRuns⟩
  exact ⟨target, hShows, hRuns smallCalls smallCalls_onFiles⟩

section

variable {G : Geometry} {V : Volume} {s : State}
variable {target : Option CString → Target}
variable {content : Nat → List UInt8}

end

end Ext2

end Whirliscope
