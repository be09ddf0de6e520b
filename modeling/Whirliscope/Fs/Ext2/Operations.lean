import Whirliscope.Fs.Ext2.Directory

/-
  The public operations of the ext2 driver.

  Key definitions include:
    * `ext2MountInternal`, `ext2Sync`
    * `ext2ListDir`, `ext2ReadFile`, `ext2Stat`
    * `ext2WriteFile`, `ext2TruncateFile`
    * `ext2CreateFile`, `ext2Mkdir`
    * `ext2Unlink`, `ext2Rmdir`
    * `Call.run`, `runCalls`
-/

------------------------------------------------------------
-- Mounting
------------------------------------------------------------

namespace Whirliscope

namespace Ext2

open ByteMemory FaultProgram

/- Whether the superblock is one the driver can mount. -/
def superblockAccepted
    (s : State) : Except Fault Bool := do
  if s.superblock.isNone then return false
  if (← magic s) ≠ superMagic then return false
  if (← logBlockSize s) > 2 then return false
  if (← blocksPerGroup s) = 0 then return false
  if (← inodesPerGroup s) = 0 then return false
  return true

/-
  The last steps of `ext2_mount_internal`: the geometry is
  assigned, and the call fails without a first descriptor.
-/
def assignGeometry
    (writebackFn : Option Writeback) : Ext2M Bool := do
  let s ← get
  let log ← logBlockSize s
  let perGroup ← blocksPerGroup s
  let groups ←
    divide (wrap 32 ((← blocksCount s) + perGroup - 1))
      perGroup
  modify fun s =>
    { s with
      blockSize := 1024 * 2 ^ log
      groupCount := groups }
  if (groupDesc (← get) 0).isNone then return false
  modify fun s => { s with writeback := writebackFn }
  return true

/- `ext2_mount_internal`. A null image is `none`. -/
def ext2MountInternal
    (image : Option Bytes)
    (imageSize : Nat)
    (writebackFn : Option Writeback) : Ext2M Bool := do
  modify fun s =>
    { s with
      fsImage := false
      fsSize := 0
      superblock := none
      blockSize := 0
      groupCount := 0
      writeback := none }
  let some bytes := image | return false
  if imageSize < superblockOffset + superblockSize then
    return false
  modify fun s =>
    { s with
      fsImage := true
      image := bytes
      fsSize := imageSize }
  modify fun s =>
    { s with
      superblock :=
        imagePtr s superblockOffset superblockSize }
  if !(← superblockAccepted (← get)) then
    modify fun s =>
      { s with fsImage := false, superblock := none }
    return false
  assignGeometry writebackFn

/- `ext2_mount`. -/
def ext2Mount
    (image : Option Bytes)
    (imageSize : Nat) : Ext2M Bool :=
  ext2MountInternal image imageSize none

/- `ext2_mount_with_writeback`. -/
def ext2MountWithWriteback
    (image : Option Bytes)
    (imageSize : Nat)
    (writebackFn : Option Writeback) : Ext2M Bool :=
  ext2MountInternal image imageSize writebackFn

/- `ext2_sync`. -/
def ext2Sync : Ext2M Bool := do
  let s ← get
  if !ext2Mounted s then return false
  match s.writeback with
  | none => return true
  | some writeback =>
      let written := writeback s.image s.fsSize s.medium
      set { s with medium := written.2 }
      return written.1

end Ext2

end Whirliscope

------------------------------------------------------------
-- Status and Listing
------------------------------------------------------------

namespace Whirliscope

namespace Ext2

open ByteMemory FaultProgram

def userErrAgain : Int := -1
def userErrFault : Int := -2
def userErrInval : Int := -3
def userErrNosys : Int := -4

def userFsTypeUnknown : Nat := 0
def userFsTypeFile : Nat := 1
def userFsTypeDir : Nat := 2

/- `USER_FS_NAME_SIZE`. -/
def userFsNameSize : Nat := 64

/- `struct user_fs_status`. -/
structure UserFsStatus where
  abiVersion : Nat
  mounted : Nat
  blockSize : Nat
  blocks : Nat
  inodes : Nat
  freeBlocks : Nat
  freeInodes : Nat
  volumeName : List UInt8

/- `struct user_fs_dirent`, with its name before the NUL. -/
structure UserFsDirent where
  inode : Nat
  type : Nat
  size : Nat
  name : List UInt8
deriving DecidableEq, Repr

/- `ext2_get_status`. -/
def ext2GetStatus
    (s : State) : Except Fault UserFsStatus := do
  let cleared : UserFsStatus :=
    { abiVersion := 1
      mounted := 0
      blockSize := 0
      blocks := 0
      inodes := 0
      freeBlocks := 0
      freeInodes := 0
      volumeName := List.replicate 16 0 }
  if !ext2Mounted s then return cleared
  match s.superblock with
  | none => throw .nullPointer
  | some pointer =>
      let label ← (s.view pointer).loadBytes 120 16
      return { cleared with
        mounted := 1
        blockSize := s.blockSize
        blocks := ← blocksCount s
        inodes := ← inodesCount s
        freeBlocks := ← freeBlocksCount s
        freeInodes := ← freeInodesCount s
        volumeName := (List.range 15).map label ++ [0] }

/- `user_file_type`. -/
def userFileType
    (inode : Inode)
    (direntType : Nat) : Nat :=
  if direntType = userFsTypeDir ∨ inode.isDir then
    userFsTypeDir
  else if direntType = userFsTypeFile ∨ inode.isFile then
    userFsTypeFile
  else
    userFsTypeUnknown

/- The entry that `ext2_list_dir` writes for a record. -/
def listEntry
    (s : State)
    (view : View)
    (pos inode : Nat) : Except Fault UserFsDirent := do
  let child := (← readInode s inode).getD Inode.zero
  let length :=
    min (← view.entryNameLen pos) (userFsNameSize - 1)
  let bytes ← view.loadBytes (pos + 8) length
  return {
    inode := inode
    type := userFileType child (← view.entryFileType pos)
    size := child.size
    name := (List.range length).map bytes }

/- What `ext2_list_dir` does at one record. -/
def listVisit
    (s : State)
    (maxEntries : Nat)
    (view : View)
    (written : List UserFsDirent)
    (pos : Nat) :
    Except Fault
      (List UserFsDirent ⊕ (Int × List UserFsDirent)) := do
  let inode ← view.entryInode pos
  if inode = 0 then return .inl written
  if ← view.entryIsDots pos then return .inl written
  if written.length ≥ maxEntries then
    return .inr (written.length, written)
  return .inl (written ++ [← listEntry s view pos inode])

/- `ext2_list_dir`: the result and the entries written. -/
def ext2ListDir
    (s : State)
    (path : Option CString)
    (maxEntries : Nat) :
    Except Fault (Int × List UserFsDirent) := do
  let some (dir, _) ← pathLookup s (path.map (·.1))
    | return (userErrInval, [])
  if !dir.isDir then return (userErrInval, [])
  if s.blockSize > directoryBufferSize then
    return (userErrInval, [])
  scanDirectory s dir
    (fun written => (userErrFault, written))
    (fun written => (userErrFault, written))
    (fun written => ((written.length : Int), written))
    (listVisit s maxEntries) []

/- `ext2_stat`. -/
def ext2Stat
    (s : State)
    (path : Option CString) :
    Except Fault (Int × Option UserFsDirent) := do
  let some (inode, inodeNumber) ←
      pathLookup s (path.map (·.1))
    | return (userErrInval, none)
  return (0, some {
    inode := inodeNumber
    type :=
      if inode.isDir then userFsTypeDir
      else if inode.isFile then userFsTypeFile
      else userFsTypeUnknown
    size := inode.size
    name := [] })

end Ext2

end Whirliscope

------------------------------------------------------------
-- Reading and Writing Files
------------------------------------------------------------

namespace Whirliscope

namespace Ext2

open ByteMemory FaultProgram

/- `ext2_read_file`: the result and the buffer after it. -/
def ext2ReadFile
    (s : State)
    (path : Option CString)
    (buffer : Bytes)
    (len offset : Nat) : Except Fault (Int × Bytes) := do
  let some (file, _) ← pathLookup s (path.map (·.1))
    | return (userErrInval, buffer)
  if !file.isFile then return (userErrInval, buffer)
  if offset ≥ file.size then return (0, buffer)
  let len := min len (file.size - offset)
  let (readable, out) ←
    readInodeBytes s file offset buffer len
  return (if readable then len else userErrFault, out)

/- One pass of the copy loop of `ext2_write_file`. -/
def writeChunk
    (source : Bytes)
    (offset len : Nat) :
    Nat × Inode →
      Ext2M ((Nat × Inode) ⊕ Option Inode)
| (written, file) => do
    if written ≥ len then return .inr (some file)
    let s ← get
    let fileOffset := offset + written
    let fileBlock :=
      wrap 32 (← divide fileOffset s.blockSize)
    let blockOffset ← modulo fileOffset s.blockSize
    let (diskBlock, file) ← ensureFileBlock file fileBlock
    let some diskBlock := diskBlock | return .inr none
    let s ← get
    let chunk :=
      min (s.blockSize - blockOffset) (len - written)
    let some dest :=
        blockPtr s diskBlock blockOffset chunk
      | return .inr none
    store dest 0 chunk (slice source written)
    return .inl (written + chunk, file)

/- `ext2_write_file`. A null buffer is `none`. -/
def ext2WriteFile
    (path : Option CString)
    (buffer : Option Bytes)
    (len offset : Nat) : Ext2M Int := do
  if buffer.isNone ∧ len ≠ 0 then return userErrInval
  let some (file, inodeNumber) ←
      pathLookup (← get) (path.map (·.1))
    | return userErrInval
  if !file.isFile then return userErrInval
  let size := file.size
  if offset > size ∨ wrap 64 (offset + len) < offset then
    return userErrInval
  let finish := wrap 64 (offset + len)
  let (resized, file) ←
    if finish > size then
      resizeInodeData file inodeNumber finish
    else
      pure (true, file)
  if !resized then return userErrFault
  let some file ←
      loop (throw .noReturn)
        (writeChunk (buffer.getD zeros) offset len)
        (len + 1) (0, file)
    | return userErrFault
  if !(← writeInode inodeNumber file) then
    return userErrFault
  if !(← ext2Sync) then return userErrFault
  return len

/- `ext2_truncate_file`. -/
def ext2TruncateFile
    (path : Option CString)
    (size : Nat) : Ext2M Int := do
  let some (file, inodeNumber) ←
      pathLookup (← get) (path.map (·.1))
    | return userErrInval
  if !file.isFile then return userErrInval
  let (resized, _) ← resizeInodeData file inodeNumber size
  if !resized then return userErrFault
  return if ← ext2Sync then 0 else userErrFault

end Ext2

end Whirliscope

------------------------------------------------------------
-- Creating and Removing Names
------------------------------------------------------------

namespace Whirliscope

namespace Ext2

open ByteMemory FaultProgram

/- The inode of a new regular file. -/
def newFileInode : Inode :=
  (Inode.zero.setMode (sIfreg ||| 0o644)).setLinksCount 1

/- `ext2_create_file`. -/
def ext2CreateFile
    (path : Option CString) : Ext2M Int := do
  if (← pathLookup (← get) (path.map (·.1))).isSome then
    return userErrInval
  let some found ← parentLookup (← get) (path.map (·.1))
    | return userErrInval
  if (← findInDir (← get) found.parent
      found.name).isSome then
    return userErrInval
  let inodeNumber ← allocateInode false
  if inodeNumber = 0 then return userErrFault
  let written ← writeInode inodeNumber newFileInode
  let added ←
    if written then
      let (ok, _) ←
        addDirEntry found.parent found.parentInode
          inodeNumber found.name fileTypeReg
      pure ok
    else
      pure false
  if !added then
    let _ ← markInodeUsed inodeNumber false false
    return userErrFault
  return if ← ext2Sync then 0 else userErrFault

/- Fill the first block of a new directory. -/
def storeDotEntries
    (data : Pointer)
    (blockSize inodeNumber parentInode : Nat) :
    Ext2M Unit := do
  store data 0 blockSize zeros
  storeField data 0 4 inodeNumber
  storeField data 4 2 (dirEntryMinLen 1)
  storeEntryName data 0 [46] fileTypeDir
  let second := dirEntryMinLen 1
  storeField data second 4 parentInode
  storeField data (second + 4) 2 (blockSize - second)
  storeEntryName data second [46, 46] fileTypeDir

/- The inode of a new directory with one block. -/
def newDirInode
    (blockSize block : Nat) : Inode :=
  (((Inode.zero.setMode (sIfdir ||| 0o755)).setSize
    blockSize).setLinksCount 2).setBlock 0 block

/- Undo the allocations of a failed `ext2_mkdir`. -/
def undoMkdir
    (inodeNumber block : Nat) : Ext2M Int := do
  let _ ← markBlockUsed block false
  let _ ← markInodeUsed inodeNumber false true
  return userErrFault

/- Write the inodes of a new directory and add its entry. -/
def linkDirectory
    (found : ParentLookup)
    (inodeNumber : Nat)
    (inode : Inode) : Ext2M Bool := do
  let parent :=
    found.parent.setLinksCount
      (found.parent.linksCount + 1)
  if !(← writeInode inodeNumber inode) then return false
  if !(← writeInode found.parentInode parent) then
    return false
  let (ok, _) ←
    addDirEntry parent found.parentInode inodeNumber
      found.name fileTypeDir
  return ok

/- `ext2_mkdir`. -/
def ext2Mkdir
    (path : Option CString) : Ext2M Int := do
  if (← pathLookup (← get) (path.map (·.1))).isSome then
    return userErrInval
  let some found ← parentLookup (← get) (path.map (·.1))
    | return userErrInval
  let inodeNumber ← allocateInode true
  let block ← allocateBlock
  if inodeNumber = 0 ∨ block = 0 then
    if inodeNumber ≠ 0 then
      let _ ← markInodeUsed inodeNumber false true
    if block ≠ 0 then
      let _ ← markBlockUsed block false
    return userErrFault
  let s ← get
  let inode ←
    updateInodeBlockCount s (newDirInode s.blockSize block)
  let some data := blockPtr s block 0 s.blockSize
    | undoMkdir inodeNumber block
  storeDotEntries data s.blockSize inodeNumber
    found.parentInode
  if !(← linkDirectory found inodeNumber inode) then
    undoMkdir inodeNumber block
  else
    return if ← ext2Sync then 0 else userErrFault

/-
  Free the blocks and the inode of a removed entry, as the
  last steps of `ext2_unlink` and `ext2_rmdir` do.
-/
def releaseInode
    (inode : Inode)
    (inodeNumber : Nat)
    (isDir : Bool) : Ext2M Int := do
  let _ ← freeInodeBlocks inode 0
  let _ ← writeInode inodeNumber Inode.zero
  let _ ← markInodeUsed inodeNumber false isDir
  return if ← ext2Sync then 0 else userErrFault

/- `ext2_unlink`. -/
def ext2Unlink
    (path : Option CString) : Ext2M Int := do
  let some found ← parentLookup (← get) (path.map (·.1))
    | return userErrInval
  let some inodeNumber ←
      findInDir (← get) found.parent found.name
    | return userErrInval
  let some inode ← readInode (← get) inodeNumber
    | return userErrInval
  if !inode.isFile then return userErrInval
  let removed ←
    removeDirEntry found.parent found.parentInode found.name
  if removed ≠ some inodeNumber then return userErrFault
  releaseInode inode inodeNumber false

/- `ext2_rmdir`. -/
def ext2Rmdir
    (path : Option CString) : Ext2M Int := do
  let some found ← parentLookup (← get) (path.map (·.1))
    | return userErrInval
  if found.name = [46] ∨ found.name = [46, 46] then
    return userErrInval
  let some inodeNumber ←
      findInDir (← get) found.parent found.name
    | return userErrInval
  let some inode ← readInode (← get) inodeNumber
    | return userErrInval
  if !inode.isDir then return userErrInval
  if !(← dirIsEmpty (← get) inode) then
    return userErrInval
  let removed ←
    removeDirEntry found.parent found.parentInode found.name
  if removed ≠ some inodeNumber then return userErrFault
  let parent := found.parent
  if parent.linksCount > 0 then
    let _ ←
      writeInode found.parentInode
        (parent.setLinksCount (parent.linksCount - 1))
  releaseInode inode inodeNumber true

end Ext2

end Whirliscope

------------------------------------------------------------
-- Sequences of Calls
------------------------------------------------------------

namespace Whirliscope

namespace Ext2

open ByteMemory FaultProgram

/- The operations on a mounted file system. -/
inductive Call where
| getStatus
| sync
| listDir (path : Option CString) (maxEntries : Nat)
| stat (path : Option CString)
| readFile
    (path : Option CString) (buffer : Bytes)
    (len offset : Nat)
| writeFile
    (path : Option CString) (buffer : Option Bytes)
    (len offset : Nat)
| createFile (path : Option CString)
| mkdir (path : Option CString)
| unlink (path : Option CString)
| rmdir (path : Option CString)
| truncateFile (path : Option CString) (size : Nat)

/- What an operation reports to its caller. -/
inductive Reply where
| status (report : UserFsStatus)
| flag (ok : Bool)
| code (value : Int)
| listing (value : Int) (entries : List UserFsDirent)
| stat (value : Int) (entry : Option UserFsDirent)
| read (value : Int) (buffer : Bytes)

/- The reply says that the operation did not succeed. -/
def Reply.IsError : Reply → Prop
| .status report => report.mounted = 0
| .flag ok => ok = false
| .code value => value < 0
| .listing value _ => value < 0
| .stat value _ => value < 0
| .read value _ => value < 0

/- Run one operation. -/
def Call.run : Call → Ext2M Reply
| .getStatus => do
    return .status (← ext2GetStatus (← get))
| .sync => do return .flag (← ext2Sync)
| .listDir path maxEntries => do
    let (code, entries) ←
      ext2ListDir (← get) path maxEntries
    return .listing code entries
| .stat path => do
    let (code, entry) ← ext2Stat (← get) path
    return .stat code entry
| .readFile path buffer len offset => do
    let (code, buffer) ←
      ext2ReadFile (← get) path buffer len offset
    return .read code buffer
| .writeFile path buffer len offset => do
    return .code (← ext2WriteFile path buffer len offset)
| .createFile path => do
    return .code (← ext2CreateFile path)
| .mkdir path => do return .code (← ext2Mkdir path)
| .unlink path => do return .code (← ext2Unlink path)
| .rmdir path => do return .code (← ext2Rmdir path)
| .truncateFile path size => do
    return .code (← ext2TruncateFile path size)

/- Run a sequence of operations. -/
def runCalls : List Call → Ext2M (List Reply)
| [] => return []
| call :: calls => do
    let reply ← call.run
    let replies ← runCalls calls
    return reply :: replies

end Ext2

end Whirliscope
