import Whirliscope.Fs.Ext2.Allocation

/-
  The block map of an inode: direct pointers, the single
  indirect block, growing, shrinking and reading file data.

  Key definitions include:
    * `blockIdAt`, `setBlockIdAt`, `ensureFileBlock`
    * `readInodeBytes`
    * `freeInodeBlocks`, `resizeInodeData`
-/

------------------------------------------------------------
-- Counting Allocated Blocks
------------------------------------------------------------

namespace Whirliscope

namespace Ext2

open ByteMemory FaultProgram

/- The number of pointers an indirect block holds. -/
def entriesPerBlock
    (s : State) : Nat :=
  s.blockSize / 4

/- How many of the first `count` pointers are not zero. -/
def countPointers
    (pointer : Nat → Except Fault Nat) :
    Nat → Except Fault Nat
| 0 => return 0
| count + 1 => do
    let before ← countPointers pointer count
    if (← pointer count) ≠ 0 then
      return before + 1
    return before

/- `inode_allocated_blocks`. -/
def inodeAllocatedBlocks
    (s : State)
    (inode : Inode) : Except Fault Nat := do
  let direct ←
    countPointers (fun index => return inode.block index)
      directBlocks
  if inode.block 12 = 0 then return direct
  let some indirect :=
      blockPtr s (inode.block 12) 0 s.blockSize
    | return direct + 1
  let entries ←
    countPointers
      (fun index => s.load indirect (4 * index) 4)
      (entriesPerBlock s)
  return direct + 1 + entries

/- `update_inode_block_count`. -/
def updateInodeBlockCount
    (s : State)
    (inode : Inode) : Except Fault Inode := do
  let count ← inodeAllocatedBlocks s inode
  return inode.setBlocks (count * (s.blockSize / 512))

end Ext2

end Whirliscope

------------------------------------------------------------
-- Mapping File Blocks
------------------------------------------------------------

namespace Whirliscope

namespace Ext2

open ByteMemory FaultProgram

/- `block_id_at`. -/
def blockIdAt
    (s : State)
    (inode : Inode)
    (fileBlockIndex : Nat) : Except Fault Nat := do
  if fileBlockIndex < directBlocks then
    return inode.block fileBlockIndex
  let entry := fileBlockIndex - directBlocks
  if entry < entriesPerBlock s ∧ inode.block 12 ≠ 0 then
    match blockPtr s (inode.block 12) 0 s.blockSize with
    | some indirect => s.load indirect (4 * entry) 4
    | none => return 0
  else
    return 0

/- `set_block_id_at`, with the inode it leaves behind. -/
def setBlockIdAt
    (inode : Inode)
    (fileBlockIndex blockId : Nat)
    (allocateMetadata : Bool) :
    Ext2M (Bool × Inode) := do
  if fileBlockIndex < directBlocks then
    return (true, inode.setBlock fileBlockIndex blockId)
  let entry := fileBlockIndex - directBlocks
  if entry ≥ entriesPerBlock (← get) then
    return (false, inode)
  let inode ←
    if inode.block 12 = 0 ∧ allocateMetadata then
      pure (inode.setBlock 12 (← allocateBlock))
    else
      pure inode
  if inode.block 12 = 0 then return (false, inode)
  let s ← get
  let some indirect :=
      blockPtr s (inode.block 12) 0 s.blockSize
    | return (false, inode)
  storeField indirect (4 * entry) 4 blockId
  return (true, inode)

/-
  `ensure_file_block`: the block that backs a file block, or
  nothing on failure, with the inode it leaves behind.
-/
def ensureFileBlock
    (inode : Inode)
    (fileBlockIndex : Nat) :
    Ext2M (Option Nat × Inode) := do
  let mapped ← blockIdAt (← get) inode fileBlockIndex
  if mapped ≠ 0 then return (some mapped, inode)
  let block ← allocateBlock
  if block = 0 then return (none, inode)
  let (linked, inode) ←
    setBlockIdAt inode fileBlockIndex block true
  if !linked then
    let _ ← markBlockUsed block false
    return (none, inode)
  let inode ← updateInodeBlockCount (← get) inode
  return (some block, inode)

end Ext2

end Whirliscope

------------------------------------------------------------
-- Reading File Data
------------------------------------------------------------

namespace Whirliscope

namespace Ext2

open ByteMemory FaultProgram

/- One pass of the copy loop of `read_inode_bytes`. -/
def readChunk
    (s : State)
    (inode : Inode)
    (offset len : Nat) :
    Nat × Bytes →
      Except Fault ((Nat × Bytes) ⊕ (Bool × Bytes))
| (copied, out) => do
    if copied ≥ len then return .inr (true, out)
    let fileOffset := offset + copied
    let fileBlock :=
      wrap 32 (← divide fileOffset s.blockSize)
    let blockOffset ← modulo fileOffset s.blockSize
    let diskBlock ← blockIdAt s inode fileBlock
    let chunk :=
      min (s.blockSize - blockOffset) (len - copied)
    if diskBlock = 0 then
      return .inl
        (copied + chunk, write out copied chunk zeros)
    let some source :=
        blockPtr s diskBlock blockOffset chunk
      | return .inr (false, out)
    let bytes ← (s.view source).loadBytes 0 chunk
    return .inl
      (copied + chunk, write out copied chunk bytes)

/-
  `read_inode_bytes`: whether it succeeds, and the buffer
  with the bytes that were copied to its start.
-/
def readInodeBytes
    (s : State)
    (inode : Inode)
    (offset : Nat)
    (buffer : Bytes)
    (len : Nat) : Except Fault (Bool × Bytes) := do
  if offset > inode.size ∨ len > inode.size - offset then
    return (false, buffer)
  loop (throw .noReturn) (readChunk s inode offset len)
    (len + 1) (0, buffer)

end Ext2

end Whirliscope

------------------------------------------------------------
-- Shrinking and Growing
------------------------------------------------------------

namespace Whirliscope

namespace Ext2

open ByteMemory FaultProgram

/- One pass over the direct pointers of an inode. -/
def freeDirectBlock :
    Nat × Inode → Ext2M ((Nat × Inode) ⊕ Inode)
| (index, inode) => do
    if index ≥ directBlocks then return .inr inode
    if inode.block index ≠ 0 then
      let _ ← markBlockUsed (inode.block index) false
      return .inl (index + 1, inode.setBlock index 0)
    return .inl (index + 1, inode)

/- One pass over the entries of an indirect block. -/
def freeIndirectEntry
    (indirect : Pointer)
    (index : Nat) : Ext2M (Nat ⊕ Unit) := do
  let s ← get
  if index ≥ entriesPerBlock s then return .inr ()
  let entry ← s.load indirect (4 * index) 4
  if entry ≠ 0 then
    let _ ← markBlockUsed entry false
    storeField indirect (4 * index) 4 0
  return .inl (index + 1)

/- `free_inode_blocks`, with the inode it leaves behind. -/
def freeInodeBlocks
    (inode : Inode)
    (keepBlocks : Nat) : Ext2M (Bool × Inode) := do
  let entries := entriesPerBlock (← get)
  if keepBlocks > directBlocks + entries then
    return (false, inode)
  let inode ←
    loop (throw .noReturn) freeDirectBlock
      (directBlocks + 1) (keepBlocks, inode)
  if inode.block 12 = 0 then
    return (true, ← updateInodeBlockCount (← get) inode)
  let s ← get
  let some indirect :=
      blockPtr s (inode.block 12) 0 s.blockSize
    | return (false, inode)
  loop (throw .noReturn) (freeIndirectEntry indirect)
    (entries + 1) (keepBlocks - directBlocks)
  if keepBlocks ≤ directBlocks then
    let _ ← markBlockUsed (inode.block 12) false
    let inode := inode.setBlock 12 0
    return (true, ← updateInodeBlockCount (← get) inode)
  return (true, ← updateInodeBlockCount (← get) inode)

/- One pass of the growing loop of `resize_inode_data`. -/
def growBlock
    (newBlocks : Nat) :
    Nat × Inode → Ext2M ((Nat × Inode) ⊕ Bool × Inode)
| (index, inode) => do
    if index ≥ newBlocks then return .inr (true, inode)
    let (block, inode) ← ensureFileBlock inode index
    if block.isNone then return .inr (false, inode)
    return .inl (index + 1, inode)

/- The blocks needed for `size` bytes. -/
def sizeBlocks
    (s : State)
    (size : Nat) : Except Fault Nat := do
  return wrap 32 (← divide (size + s.blockSize - 1)
    s.blockSize)

/- Clear the rest of the block that held the old end. -/
def clearTail
    (inode : Inode)
    (oldSize : Nat) : Ext2M Unit := do
  let s ← get
  let fileBlock := wrap 32 (← divide oldSize s.blockSize)
  let blockOffset ← modulo oldSize s.blockSize
  let diskBlock ← blockIdAt s inode fileBlock
  let clearLen := s.blockSize - blockOffset
  match blockPtr s diskBlock blockOffset clearLen with
  | some tail => store tail 0 clearLen zeros
  | none => pure ()

/- `resize_inode_data`, with the inode it leaves behind. -/
def resizeInodeData
    (inode : Inode)
    (inodeNumber newSize : Nat) :
    Ext2M (Bool × Inode) := do
  let s ← get
  let maxSize :=
    (directBlocks + entriesPerBlock s) * s.blockSize
  if newSize > maxSize then return (false, inode)
  let oldSize := inode.size
  let oldBlocks ← sizeBlocks s oldSize
  let newBlocks ← sizeBlocks s newSize
  let (resized, inode) ←
    if newBlocks > oldBlocks then
      loop (throw .noReturn) (growBlock newBlocks)
        (newBlocks + 1) (oldBlocks, inode)
    else if newBlocks < oldBlocks then
      freeInodeBlocks inode newBlocks
    else
      pure (true, inode)
  if !resized then return (false, inode)
  let inode := inode.setSize newSize
  if newSize > oldSize then
    if (← modulo oldSize s.blockSize) ≠ 0 then
      clearTail inode oldSize
  let inode ← updateInodeBlockCount (← get) inode
  return (← writeInode inodeNumber inode, inode)

end Ext2

end Whirliscope
