import Whirliscope.Fs.Ext2.State

/-
  Bitmaps, free counts, and the block and inode allocators.

  Key definitions include:
    * `bitmapGet`, `bitmapSet`
    * `markBlockUsed`, `markInodeUsed`
    * `allocateBlock`, `allocateInode`
-/

------------------------------------------------------------
-- Bitmaps
------------------------------------------------------------

namespace Whirliscope

namespace Ext2

open ByteMemory FaultProgram

/- `bitmap_get`. -/
def bitmapGet
    (s : State)
    (bitmap : Pointer)
    (index : Nat) : Except Fault Bool := do
  let byte ← s.load bitmap (index / 8) 1
  return byte.testBit (index % 8)

/- The byte of a bitmap with one bit assigned. -/
def assignBit
    (byte bit : Nat)
    (value : Bool) : Nat :=
  if value then
    byte ||| 2 ^ bit
  else
    byte &&& (255 ^^^ 2 ^ bit)

/- `bitmap_set`. -/
def bitmapSet
    (bitmap : Pointer)
    (index : Nat)
    (value : Bool) : Ext2M Unit := do
  let byte ← (← get).load bitmap (index / 8) 1
  storeField bitmap (index / 8) 1
    (assignBit byte (index % 8) value)

end Ext2

end Whirliscope

------------------------------------------------------------
-- Marking Blocks and Inodes
------------------------------------------------------------

namespace Whirliscope

namespace Ext2

open ByteMemory FaultProgram

/- Count one down in the superblock, but not below zero. -/
def decrementSuperblockField
    (offset width : Nat) : Ext2M Unit := do
  let count ← superblockField (← get) offset width
  if count > 0 then
    setSuperblockField offset width (count - 1)

/- Count one up in the superblock. -/
def incrementSuperblockField
    (offset width : Nat) : Ext2M Unit := do
  let count ← superblockField (← get) offset width
  setSuperblockField offset width (count + 1)

/- Count one down through a pointer, but not below zero. -/
def decrementField
    (pointer : Pointer)
    (offset width : Nat) : Ext2M Unit := do
  let count ← (← get).load pointer offset width
  if count > 0 then
    storeField pointer offset width (count - 1)

/- Count one up through a pointer. -/
def incrementField
    (pointer : Pointer)
    (offset width : Nat) : Ext2M Unit := do
  let count ← (← get).load pointer offset width
  storeField pointer offset width (count + 1)

/- `mark_block_used`. -/
def markBlockUsed
    (block : Nat)
    (used : Bool) : Ext2M Bool := do
  let s ← get
  if block ≥ (← blocksCount s) then return false
  let relative := wrapSub 32 block (← firstDataBlock s)
  let group ← divide relative (← blocksPerGroup s)
  let groupIndex ← modulo relative (← blocksPerGroup s)
  let some desc := groupDesc s group | return false
  let some bitmap :=
      blockPtr s (← descBlockBitmap s desc) 0 s.blockSize
    | return false
  let old ← bitmapGet s bitmap groupIndex
  if old = used then return true
  bitmapSet bitmap groupIndex used
  if used then
    decrementSuperblockField 12 4
    decrementField desc 12 2
  else
    incrementSuperblockField 12 4
    incrementField desc 12 2
  return true

/- `mark_inode_used`. -/
def markInodeUsed
    (inodeNumber : Nat)
    (used isDir : Bool) : Ext2M Bool := do
  let s ← get
  if inodeNumber = 0 then return false
  if inodeNumber > (← inodesCount s) then return false
  let index := inodeNumber - 1
  let group ← divide index (← inodesPerGroup s)
  let groupIndex ← modulo index (← inodesPerGroup s)
  let some desc := groupDesc s group | return false
  let some bitmap :=
      blockPtr s (← descInodeBitmap s desc) 0 s.blockSize
    | return false
  let old ← bitmapGet s bitmap groupIndex
  if old = used then return true
  bitmapSet bitmap groupIndex used
  if used then
    decrementSuperblockField 16 4
    decrementField desc 14 2
    if isDir then
      incrementField desc 16 2
  else
    incrementSuperblockField 16 4
    incrementField desc 14 2
    if isDir then
      decrementField desc 16 2
  return true

end Ext2

end Whirliscope

------------------------------------------------------------
-- Allocators
------------------------------------------------------------

namespace Whirliscope

namespace Ext2

open ByteMemory FaultProgram

/- The first block of a group, as `allocate_block` has it. -/
def groupBase
    (s : State)
    (group : Nat) : Except Fault Nat := do
  return wrap 32
    ((← firstDataBlock s) + group * (← blocksPerGroup s))

/- How many blocks of a group `allocate_block` looks at. -/
def groupLimit
    (s : State)
    (base : Nat) : Except Fault Nat := do
  let limit ← blocksPerGroup s
  if wrap 32 (base + limit) > (← blocksCount s) then
    return wrapSub 32 (← blocksCount s) base
  return limit

/-
  One pass of the inner loop of `allocate_block`. It exits
  with the result of the function, or with nothing when the
  bits of the group are exhausted.
-/
def allocateBlockAt
    (bitmap : Pointer)
    (base limit index : Nat) :
    Ext2M (Nat ⊕ Option Nat) := do
  if index ≥ limit then return .inr none
  if ← bitmapGet (← get) bitmap index then
    return .inl (index + 1)
  let block := wrap 32 (base + index)
  if !(← markBlockUsed block true) then
    return .inr (some 0)
  let s ← get
  let some pointer := blockPtr s block 0 s.blockSize
    | do
      let _ ← markBlockUsed block false
      return .inr (some 0)
  store pointer 0 s.blockSize zeros
  return .inr (some block)

/- One pass of the outer loop of `allocate_block`. -/
def allocateBlockInGroup
    (group : Nat) : Ext2M (Nat ⊕ Nat) := do
  let s ← get
  if group ≥ s.groupCount then return .inr 0
  let some desc := groupDesc s group
    | return .inl (group + 1)
  if (← descFreeBlocksCount s desc) = 0 then
    return .inl (group + 1)
  let some bitmap :=
      blockPtr s (← descBlockBitmap s desc) 0 s.blockSize
    | return .inr 0
  let base ← groupBase s group
  let limit ← groupLimit s base
  let found ←
    loop (throw .noReturn)
      (allocateBlockAt bitmap base limit) (limit + 1) 0
  match found with
  | some block => return .inr block
  | none => return .inl (group + 1)

/- `allocate_block`. -/
def allocateBlock : Ext2M Nat := do
  loop (throw .noReturn) allocateBlockInGroup
    ((← get).groupCount + 1) 0

/- One pass of the loop of `allocate_inode`. -/
def allocateInodeAt
    (isDir : Bool)
    (inode : Nat) : Ext2M (Nat ⊕ Nat) := do
  let s ← get
  if inode > (← inodesCount s) then return .inr 0
  let index := wrapSub 32 inode 1
  let group ← divide index (← inodesPerGroup s)
  let groupIndex ← modulo index (← inodesPerGroup s)
  let some desc := groupDesc s group
    | return .inl (wrap 32 (inode + 1))
  if (← descFreeInodesCount s desc) = 0 then
    return .inl (wrap 32 (inode + 1))
  let some bitmap :=
      blockPtr s (← descInodeBitmap s desc) 0 s.blockSize
    | return .inr 0
  if ← bitmapGet s bitmap groupIndex then
    return .inl (wrap 32 (inode + 1))
  if !(← markInodeUsed inode true isDir) then
    return .inr 0
  let _ ← writeInode inode Inode.zero
  return .inr inode

/-
  `allocate_inode`. The counter is 32 bits wide, so with
  2^32 - 1 inodes and none free the loop goes round for ever:
  passes that go on change nothing, and 2^33 of them visit
  every inode number.
-/
def allocateInode
    (isDir : Bool) : Ext2M Nat := do
  let field ← firstIno (← get)
  let first := if field ≠ 0 then field else 11
  loop (throw .noReturn) (allocateInodeAt isDir)
    (2 ^ 33) first

end Ext2

end Whirliscope
