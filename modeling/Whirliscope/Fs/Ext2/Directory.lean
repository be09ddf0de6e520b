import Whirliscope.Fs.Ext2.BlockMap

/-
  Directory records, directory search, and paths.

  A directory block is a chain of records: inode (4 bytes),
  record length (2), name length (1), file type (1), name.

  Key definitions include:
    * `findInDir`, `dirIsEmpty`
    * `pathLookup`, `splitParentPath`, `parentLookup`
    * `addDirEntry`, `removeDirEntry`
-/

------------------------------------------------------------
-- Directory Records
------------------------------------------------------------

namespace Whirliscope

namespace Ext2

open ByteMemory FaultProgram

/- `dir_entry_min_len`. -/
def dirEntryMinLen
    (nameLength : Nat) : Nat :=
  wrap 16 ((8 + nameLength + 3) / 4 * 4)

namespace View

def entryInode (view : View) (pos : Nat) :=
  view.load pos 4
def entryRecLen (view : View) (pos : Nat) :=
  view.load (pos + 4) 2
def entryNameLen (view : View) (pos : Nat) :=
  view.load (pos + 6) 1
def entryFileType (view : View) (pos : Nat) :=
  view.load (pos + 7) 1

/- `memcmp(..) == 0`, which stops at the first mismatch. -/
def matchesBytes
    (view : View) :
    Nat → List UInt8 → Except Fault Bool
| _, [] => return true
| offset, byte :: rest => do
    if (← view.load offset 1) ≠ byte.toNat then
      return false
    view.matchesBytes (offset + 1) rest

/- `names_equal` on the name of the entry at `pos`. -/
def namesEqual
    (view : View)
    (pos : Nat)
    (name : List UInt8) : Except Fault Bool := do
  if (← view.entryNameLen pos) ≠ name.length then
    return false
  view.matchesBytes (pos + 8) name

/- Whether the entry at `pos` is named `.` or `..`. -/
def entryIsDots
    (view : View)
    (pos : Nat) : Except Fault Bool := do
  let length ← view.entryNameLen pos
  if length = 1 then
    view.matchesBytes (pos + 8) [46]
  else if length = 2 then
    view.matchesBytes (pos + 8) [46, 46]
  else
    return false

end View

/- A local directory buffer as its reader sees it. -/
def bufferView
    (buffer : Bytes) : View where
  bytes := buffer
  extent := directoryBufferSize

end Ext2

end Whirliscope

------------------------------------------------------------
-- Searching a Directory
------------------------------------------------------------

namespace Whirliscope

namespace Ext2

open ByteMemory FaultProgram

/-
  The record loop shared by the functions that read a
  directory through a local buffer. `visit` sees each record
  and either goes on with a new accumulator or ends the
  calling function. The loop ends that function with `broken`
  on a record length it rejects.
-/
def scanRecords
    {β γ : Type}
    (view : View)
    (chunk : Nat)
    (broken : β → γ)
    (visit : β → Nat → Except Fault (β ⊕ γ)) :
    Nat × β → Except Fault ((Nat × β) ⊕ (β ⊕ γ))
| (pos, accumulator) => do
    if pos + dirEntrySize > chunk then
      return .inr (.inl accumulator)
    let recLen ← view.entryRecLen pos
    if recLen < 8 ∨ pos + recLen > chunk then
      return .inr (.inr (broken accumulator))
    match ← visit accumulator pos with
    | .inl next => return .inl (pos + recLen, next)
    | .inr result => return .inr (.inr result)

/-
  The block loop shared by the same functions: each chunk of
  the directory is read into the buffer and scanned.
-/
def scanBlocks
    {β γ : Type}
    (s : State)
    (dir : Inode)
    (unreadable : β → γ)
    (broken : β → γ)
    (finished : β → γ)
    (visit : View → β → Nat → Except Fault (β ⊕ γ)) :
    Nat × Bytes × β →
      Except Fault ((Nat × Bytes × β) ⊕ γ)
| (offset, buffer, accumulator) => do
    if offset ≥ dir.size then
      return .inr (finished accumulator)
    let chunk := min (dir.size - offset) s.blockSize
    let (readable, buffer) ←
      readInodeBytes s dir offset buffer chunk
    if !readable then
      return .inr (unreadable accumulator)
    let scanned ←
      loop (throw .noReturn)
        (scanRecords (bufferView buffer) chunk broken
          (visit (bufferView buffer)))
        (chunk + 1) (0, accumulator)
    match scanned with
    | .inl next =>
        return .inl (offset + s.blockSize, buffer, next)
    | .inr result => return .inr result

/- The whole read loop over a directory. -/
def scanDirectory
    {β γ : Type}
    (s : State)
    (dir : Inode)
    (unreadable broken finished : β → γ)
    (visit : View → β → Nat → Except Fault (β ⊕ γ))
    (start : β) : Except Fault γ :=
  loop (throw .noReturn)
    (scanBlocks s dir unreadable broken finished visit)
    (dir.size + 1) (0, s.stackBytes, start)

/- What `find_in_dir` does at one record. -/
def findVisit
    (name : List UInt8)
    (view : View)
    (pos : Nat) :
    Except Fault (Unit ⊕ Option Nat) := do
  let inode ← view.entryInode pos
  if inode = 0 then return .inl ()
  if ← view.namesEqual pos name then
    return .inr (some inode)
  return .inl ()

/- `find_in_dir`. -/
def findInDir
    (s : State)
    (dir : Inode)
    (name : List UInt8) :
    Except Fault (Option Nat) := do
  if !dir.isDir ∨ name.length = 0
      ∨ name.length > nameLen then
    return none
  if s.blockSize > directoryBufferSize then return none
  scanDirectory s dir (fun _ => none) (fun _ => none)
    (fun _ => none) (fun view _ => findVisit name view) ()

/- What `dir_is_empty` does at one record. -/
def emptyVisit
    (view : View)
    (pos : Nat) : Except Fault (Unit ⊕ Bool) := do
  if (← view.entryInode pos) = 0 then return .inl ()
  if ← view.entryIsDots pos then return .inl ()
  return .inr false

/- `dir_is_empty`. -/
def dirIsEmpty
    (s : State)
    (dir : Inode) : Except Fault Bool := do
  if !dir.isDir then return false
  if s.blockSize > directoryBufferSize then return false
  scanDirectory s dir (fun _ => false) (fun _ => false)
    (fun _ => true) (fun view _ => emptyVisit view) ()

end Ext2

end Whirliscope

------------------------------------------------------------
-- Paths
------------------------------------------------------------

namespace Whirliscope

namespace Ext2

open ByteMemory FaultProgram

/- The characters of a C string, without its NUL. -/
abbrev CString :=
  { chars : List UInt8 // 0 ∉ chars }

/- `'/'`. -/
def slash : UInt8 := 47

/- `USER_FS_PATH_SIZE`. -/
def userFsPathSize : Nat := 128

/- Skip the slashes at a cursor. -/
def skipSlashes
    (cursor : List UInt8) : List UInt8 :=
  cursor.dropWhile (· == slash)

/- One path component of the loop of `path_lookup`. -/
def lookupComponent
    (s : State) :
    List UInt8 × Inode × Nat →
      Except Fault
        ((List UInt8 × Inode × Nat) ⊕ Option (Inode × Nat))
| (cursor, current, currentInode) => do
    if cursor.isEmpty then
      return .inr (some (current, currentInode))
    let component := cursor.takeWhile (· != slash)
    let rest := skipSlashes (cursor.dropWhile (· != slash))
    if component.length = 0 then
      return .inl (rest, current, currentInode)
    let some nextInode ← findInDir s current component
      | return .inr none
    let some next ← readInode s nextInode
      | return .inr none
    return .inl (rest, next, nextInode)

/- `path_lookup`: the inode of a path and its number. -/
def pathLookup
    (s : State)
    (path : Option (List UInt8)) :
    Except Fault (Option (Inode × Nat)) := do
  if !ext2Mounted s then return none
  let some chars := path | return none
  if chars.head? ≠ some slash then return none
  let some root ← readInode s rootInode | return none
  loop (throw .noReturn) (lookupComponent s)
    (chars.length + 1) (skipSlashes chars, root, rootInode)

/- Drop trailing slashes: the loop on `len`. -/
def trimLength
    (chars : List UInt8) : Nat → Nat
| 0 => 0
| 1 => 1
| len + 2 =>
    if chars[len + 1]? = some slash then
      trimLength chars (len + 1)
    else
      len + 2

/- Find the last slash: the loop on `slash`. -/
def lastSlash
    (chars : List UInt8) : Nat → Nat
| 0 => 0
| index + 1 =>
    if chars[index + 1]? ≠ some slash then
      lastSlash chars index
    else
      index + 1

/- `split_parent_path`: the parent path and the name. -/
def splitParentPath
    (path : Option (List UInt8)) :
    Option (List UInt8 × List UInt8) := do
  let chars ← path
  if chars.head? ≠ some slash then none
  let len := trimLength chars chars.length
  if len ≤ 1 then none
  let last := lastSlash chars (len - 1)
  let name := (chars.take len).drop (last + 1)
  if name.length = 0 ∨ name.length > nameLen then none
  if last = 0 then return ([slash], name)
  if last + 1 > userFsPathSize then none
  return (chars.take last, name)

/- The result of `parent_lookup`. -/
structure ParentLookup where
  parent : Inode
  parentInode : Nat
  name : List UInt8

/- `parent_lookup`. -/
def parentLookup
    (s : State)
    (path : Option (List UInt8)) :
    Except Fault (Option ParentLookup) := do
  let some (parentPath, name) := splitParentPath path
    | return none
  let some (parent, parentInode) ←
      pathLookup s (some parentPath)
    | return none
  if !parent.isDir then return none
  return some { parent, parentInode, name }

end Ext2

end Whirliscope

------------------------------------------------------------
-- Adding an Entry
------------------------------------------------------------

namespace Whirliscope

namespace Ext2

open ByteMemory FaultProgram

/- The bytes of a name. -/
def nameBytes
    (name : List UInt8) : Bytes :=
  fun index => name.getD index 0

/- Store a name and its type at the entry at `pos`. -/
def storeEntryName
    (block : Pointer)
    (pos : Nat)
    (name : List UInt8)
    (fileType : Nat) : Ext2M Unit := do
  storeField block (pos + 6) 1 name.length
  storeField block (pos + 7) 1 fileType
  store block (pos + 8) name.length (nameBytes name)

/- Place the new entry into the record at `pos`. -/
def placeEntry
    (block : Pointer)
    (pos inode actual recLen child : Nat)
    (name : List UInt8)
    (fileType : Nat) : Ext2M Unit := do
  if inode ≠ 0 then
    storeField block (pos + 4) 2 actual
    storeField block (pos + actual + 4) 2 (recLen - actual)
    storeField block (pos + actual) 4 child
    storeEntryName block (pos + actual) name fileType
  else
    storeField block pos 4 child
    storeEntryName block pos name fileType

/-
  One record of the search for room in `add_dir_entry`. The
  loop exits with `some true` when the entry was placed, with
  `some false` on a record it rejects, with `none` at the end
  of the block.
-/
def addAtRecord
    (block : Pointer)
    (needed child : Nat)
    (name : List UInt8)
    (fileType : Nat)
    (pos : Nat) : Ext2M (Nat ⊕ Option Bool) := do
  let s ← get
  if pos + dirEntrySize > s.blockSize then
    return .inr none
  let view := s.view block
  let recLen ← view.entryRecLen pos
  if recLen < 8 ∨ pos + recLen > s.blockSize then
    return .inr (some false)
  let inode ← view.entryInode pos
  let entryLength ← view.entryNameLen pos
  let actual :=
    if inode ≠ 0 then dirEntryMinLen entryLength else 8
  if recLen ≥ actual + needed then
    placeEntry block pos inode actual recLen child name
      fileType
    return .inr (some true)
  return .inl (pos + recLen)

/- Write back a directory inode with a new size. -/
def finishAdd
    (dir : Inode)
    (dirInode size : Nat) : Ext2M (Bool × Inode) := do
  let dir := dir.setSize size
  let dir ← updateInodeBlockCount (← get) dir
  return (← writeInode dirInode dir, dir)

/- One block of the search for room in `add_dir_entry`. -/
def addInBlock
    (dirInode child blocks : Nat)
    (name : List UInt8)
    (fileType : Nat) :
    Nat × Inode →
      Ext2M ((Nat × Inode) ⊕ (Option Bool × Inode))
| (fileBlock, dir) => do
    if fileBlock ≥ blocks then return .inr (none, dir)
    let (diskBlock, dir) ← ensureFileBlock dir fileBlock
    let some diskBlock := diskBlock
      | return .inr (some false, dir)
    let s ← get
    let some block := blockPtr s diskBlock 0 s.blockSize
      | return .inr (some false, dir)
    let placed ←
      loop (throw .noReturn)
        (addAtRecord block (dirEntryMinLen name.length)
          child name fileType)
        (s.blockSize + 1) 0
    match placed with
    | some true =>
        let (ok, dir) ←
          finishAdd dir dirInode (blocks * s.blockSize)
        return .inr (some ok, dir)
    | some false => return .inr (some false, dir)
    | none => return .inl (fileBlock + 1, dir)

/- The new block that `add_dir_entry` falls back to. -/
def addInNewBlock
    (dir : Inode)
    (dirInode child blocks : Nat)
    (name : List UInt8)
    (fileType : Nat) : Ext2M (Bool × Inode) := do
  let (diskBlock, dir) ← ensureFileBlock dir blocks
  let some diskBlock := diskBlock | return (false, dir)
  let s ← get
  let some block := blockPtr s diskBlock 0 s.blockSize
    | return (false, dir)
  store block 0 s.blockSize zeros
  storeField block 0 4 child
  storeField block 4 2 s.blockSize
  storeEntryName block 0 name fileType
  finishAdd dir dirInode ((blocks + 1) * s.blockSize)

/- `add_dir_entry`, with the inode it leaves behind. -/
def addDirEntry
    (dir : Inode)
    (dirInode child : Nat)
    (name : List UInt8)
    (fileType : Nat) : Ext2M (Bool × Inode) := do
  if !dir.isDir ∨ name.length = 0
      ∨ name.length > nameLen then
    return (false, dir)
  let s ← get
  let counted ←
    divide (wrap 32 (dir.size + s.blockSize - 1))
      s.blockSize
  let blocks := if counted = 0 then 1 else counted
  let (placed, dir) ←
    loop (throw .noReturn)
      (addInBlock dirInode child blocks name fileType)
      (blocks + 1) (0, dir)
  match placed with
  | some result => return (result, dir)
  | none =>
      addInNewBlock dir dirInode child blocks name fileType

end Ext2

end Whirliscope

------------------------------------------------------------
-- Removing an Entry
------------------------------------------------------------

namespace Whirliscope

namespace Ext2

open ByteMemory FaultProgram

/-
  One record of the search in `remove_dir_entry`. `previous`
  is the last record with an inode, not the record before.
  The loop exits with `some` of the function's result, or
  with `none` at the end of the block.
-/
def removeAtRecord
    (dir : Inode)
    (dirInode : Nat)
    (block : Pointer)
    (name : List UInt8) :
    Nat × Option Nat →
      Ext2M ((Nat × Option Nat) ⊕ Option (Option Nat))
| (pos, previous) => do
    let s ← get
    if pos + dirEntrySize > s.blockSize then
      return .inr none
    let view := s.view block
    let recLen ← view.entryRecLen pos
    if recLen < 8 ∨ pos + recLen > s.blockSize then
      return .inr (some none)
    let inode ← view.entryInode pos
    if inode = 0 then
      return .inl (pos + recLen, previous)
    if !(← view.namesEqual pos name) then
      return .inl (pos + recLen, some pos)
    match previous with
    | some before =>
        let merged := (← view.entryRecLen before) + recLen
        storeField block (before + 4) 2 merged
    | none => storeField block pos 4 0
    if ← writeInode dirInode dir then
      return .inr (some (some inode))
    return .inr (some none)

/- One block of the search in `remove_dir_entry`. -/
def removeInBlock
    (dir : Inode)
    (dirInode : Nat)
    (name : List UInt8)
    (offset : Nat) : Ext2M (Nat ⊕ Option Nat) := do
  let s ← get
  if offset ≥ dir.size then return .inr none
  let fileBlock := wrap 32 (← divide offset s.blockSize)
  let diskBlock ← blockIdAt s dir fileBlock
  if diskBlock = 0 then
    return .inl (offset + s.blockSize)
  let some block := blockPtr s diskBlock 0 s.blockSize
    | return .inr none
  let removed ←
    loop (throw .noReturn)
      (removeAtRecord dir dirInode block name)
      (s.blockSize + 1) (0, none)
  match removed with
  | some result => return .inr result
  | none => return .inl (offset + s.blockSize)

/- `remove_dir_entry`: the inode of the removed entry. -/
def removeDirEntry
    (dir : Inode)
    (dirInode : Nat)
    (name : List UInt8) : Ext2M (Option Nat) := do
  if !dir.isDir ∨ name.length = 0
      ∨ name.length > nameLen then
    return none
  loop (throw .noReturn) (removeInBlock dir dirInode name)
    (dir.size + 1) 0

end Ext2

end Whirliscope
