import Whirliscope.Library.ByteMemory
import Whirliscope.Library.FaultProgram

/-
  The globals of the ext2 driver, its checked pointers into
  the image, and the inode table.

  A pointer carries the extent that `imagePtr` checked for it.
  An access through a pointer beyond that extent, an access
  outside the image, a null dereference and a division by zero
  are faults; `noReturn` marks a loop that does not end.

  Key definitions include:
    * `State`
    * `imagePtr`, `blockPtr`, `groupDesc`
    * `Inode`
    * `readInode`, `writeInode`
-/

------------------------------------------------------------
-- Faults and Checked Views
------------------------------------------------------------

namespace Whirliscope

namespace Ext2

open ByteMemory FaultProgram

/- How a run can go wrong before it returns. -/
inductive Fault where
| outOfBounds
| nullPointer
| divisionByZero
| noReturn
deriving DecidableEq, Repr

/- Bytes that may be read up to an extent. -/
structure View where
  bytes : Bytes
  extent : Nat

namespace View

/- Read a little-endian field of a view. -/
def load
    (view : View)
    (offset width : Nat) : Except Fault Nat :=
  if offset + width ≤ view.extent then
    .ok (getLE view.bytes offset width)
  else
    .error .outOfBounds

/- Read a run of bytes of a view. -/
def loadBytes
    (view : View)
    (offset count : Nat) : Except Fault Bytes :=
  if offset + count ≤ view.extent then
    .ok (slice view.bytes offset)
  else
    .error .outOfBounds

end View

/- Unsigned division, which traps on a zero divisor. -/
def divide
    (dividend divisor : Nat) : Except Fault Nat :=
  if divisor = 0 then
    .error .divisionByZero
  else
    .ok (dividend / divisor)

/- Unsigned remainder, which traps on a zero divisor. -/
def modulo
    (dividend divisor : Nat) : Except Fault Nat :=
  if divisor = 0 then
    .error .divisionByZero
  else
    .ok (dividend % divisor)

end Ext2

end Whirliscope

------------------------------------------------------------
-- Driver State
------------------------------------------------------------

namespace Whirliscope

namespace Ext2

open ByteMemory FaultProgram

/- An address in the image with the extent checked for it. -/
structure Pointer where
  address : Nat
  extent : Nat
deriving DecidableEq, Repr

/-
  The writeback callback. It is given the image and its size
  and may change the medium behind its context.
-/
abbrev Writeback :=
  Bytes → Nat → Bytes → Bool × Bytes

/-
  The static variables of the driver. `image` holds the bytes
  reachable from `fs_image`, `medium` the contents behind the
  writeback context, and `stackBytes` whatever a function's
  uninitialised directory buffer starts with.
-/
structure State where
  fsImage : Bool
  superblock : Option Pointer
  image : Bytes
  fsSize : Nat
  blockSize : Nat
  groupCount : Nat
  writeback : Option Writeback
  medium : Bytes
  stackBytes : Bytes

/- Driver functions that may change the driver state. -/
abbrev Ext2M (α : Type) :=
  Program State Fault α

/- `ext2_mounted`. -/
def ext2Mounted
    (s : State) : Bool :=
  s.fsImage && s.superblock.isSome

def superblockOffset : Nat := 1024
def superMagic : Nat := 0xef53
def rootInode : Nat := 2
def nameLen : Nat := 255
def directBlocks : Nat := 12
def sIfdir : Nat := 0x4000
def sIfreg : Nat := 0x8000
def fileTypeReg : Nat := 1
def fileTypeDir : Nat := 2

/- `sizeof` of the packed on-disk structures. -/
def superblockSize : Nat := 136
def groupDescSize : Nat := 32
def inodeBytes : Nat := 128
def dirEntrySize : Nat := 8

/- The size of a function's local directory buffer. -/
def directoryBufferSize : Nat := 4096

end Ext2

end Whirliscope

------------------------------------------------------------
-- Pointers Into the Image
------------------------------------------------------------

namespace Whirliscope

namespace Ext2

open ByteMemory FaultProgram

/- What a pointer may read in the current image. -/
def State.view
    (s : State)
    (pointer : Pointer) : View where
  bytes := slice s.image pointer.address
  extent :=
    min pointer.extent (s.fsSize - pointer.address)

/- Read a field through a pointer. -/
def State.load
    (s : State)
    (pointer : Pointer)
    (offset width : Nat) : Except Fault Nat :=
  (s.view pointer).load offset width

/- Replace the bytes of the image. -/
def State.withImage
    (s : State)
    (image : Bytes) : State :=
  { s with image := image }

/- Store bytes through a pointer. -/
def store
    (pointer : Pointer)
    (offset count : Nat)
    (source : Bytes) : Ext2M Unit := do
  let s ← get
  if offset + count ≤ (s.view pointer).extent then
    set (s.withImage
      (write s.image (pointer.address + offset)
        count source))
  else
    throw .outOfBounds

/- Store a field through a pointer. -/
def storeField
    (pointer : Pointer)
    (offset width value : Nat) : Ext2M Unit :=
  store pointer offset width (bytesLE value)

/- `image_range_valid`. -/
def imageRangeValid
    (s : State)
    (offset len : Nat) : Bool :=
  !(offset > s.fsSize || len > s.fsSize - offset)

/- `image_ptr`. -/
def imagePtr
    (s : State)
    (offset len : Nat) : Option Pointer :=
  if imageRangeValid s offset len then
    some { address := offset, extent := len }
  else
    none

/- `block_ptr`. -/
def blockPtr
    (s : State)
    (block offset len : Nat) : Option Pointer :=
  let base := block * s.blockSize
  if offset > s.blockSize || len > s.blockSize - offset then
    none
  else
    imagePtr s (base + offset) len

/- The byte offset of the group descriptor table. -/
def groupDescTable
    (s : State) : Nat :=
  (if s.blockSize = 1024 then 2 else 1) * s.blockSize

/- `group_desc`. -/
def groupDesc
    (s : State)
    (group : Nat) : Option Pointer :=
  if group ≥ s.groupCount then
    none
  else
    imagePtr s
      (groupDescTable s + group * groupDescSize)
      groupDescSize

end Ext2

end Whirliscope

------------------------------------------------------------
-- Superblock and Group Descriptor Fields
------------------------------------------------------------

namespace Whirliscope

namespace Ext2

open ByteMemory FaultProgram

/- A field of the superblock, through its pointer. -/
def superblockField
    (s : State)
    (offset width : Nat) : Except Fault Nat :=
  match s.superblock with
  | none => .error .nullPointer
  | some pointer => s.load pointer offset width

/- Assign a field of the superblock. -/
def setSuperblockField
    (offset width value : Nat) : Ext2M Unit := do
  let s ← get
  match s.superblock with
  | none => throw .nullPointer
  | some pointer => storeField pointer offset width value

def inodesCount (s : State) := superblockField s 0 4
def blocksCount (s : State) := superblockField s 4 4
def freeBlocksCount (s : State) := superblockField s 12 4
def freeInodesCount (s : State) := superblockField s 16 4
def firstDataBlock (s : State) := superblockField s 20 4
def logBlockSize (s : State) := superblockField s 24 4
def blocksPerGroup (s : State) := superblockField s 32 4
def inodesPerGroup (s : State) := superblockField s 40 4
def magic (s : State) := superblockField s 56 2
def firstIno (s : State) := superblockField s 84 4
def inodeSize (s : State) := superblockField s 88 2

def descBlockBitmap (s : State) (desc : Pointer) :=
  s.load desc 0 4
def descInodeBitmap (s : State) (desc : Pointer) :=
  s.load desc 4 4
def descInodeTable (s : State) (desc : Pointer) :=
  s.load desc 8 4
def descFreeBlocksCount (s : State) (desc : Pointer) :=
  s.load desc 12 2
def descFreeInodesCount (s : State) (desc : Pointer) :=
  s.load desc 14 2
def descUsedDirsCount (s : State) (desc : Pointer) :=
  s.load desc 16 2

end Ext2

end Whirliscope

------------------------------------------------------------
-- Reading Through Valid Pointers
------------------------------------------------------------

namespace Whirliscope

namespace Ext2

open ByteMemory FaultProgram

/- A pointer whose whole extent lies in the image. -/
def Pointer.InImage
    (pointer : Pointer)
    (s : State) : Prop :=
  pointer.address + pointer.extent ≤ s.fsSize

/- `imagePtr` succeeds exactly on ranges in the image. -/
theorem imagePtr_eq_some_iff
    (s : State)
    (offset len : Nat)
    (pointer : Pointer) :
    imagePtr s offset len = some pointer ↔
      offset + len ≤ s.fsSize ∧
        pointer = { address := offset, extent := len } := by
  have hValid :
      imageRangeValid s offset len = true ↔
        offset + len ≤ s.fsSize := by
    simp only [imageRangeValid, gt_iff_lt,
      Bool.not_eq_eq_eq_not, Bool.not_true,
      Bool.or_eq_false_iff, decide_eq_false_iff_not,
      Nat.not_lt]
    omega
  unfold imagePtr
  by_cases hRange : imageRangeValid s offset len = true
  · simp [hRange, hValid.mp hRange, eq_comm]
  · have hOutside : ¬ offset + len ≤ s.fsSize :=
      fun hLe => hRange (hValid.mpr hLe)
    simp [hRange, hOutside]

theorem imagePtr_eq_none_iff
    (s : State)
    (offset len : Nat) :
    imagePtr s offset len = none ↔
      s.fsSize < offset + len := by
  cases hPointer : imagePtr s offset len with
  | none =>
      have hNot :
          ¬ offset + len ≤ s.fsSize := by
        intro hLe
        have hSome :=
          (imagePtr_eq_some_iff s offset len _).mpr
            ⟨hLe, rfl⟩
        rw [hPointer] at hSome
        cases hSome
      simpa using hNot
  | some pointer =>
      have hLe :=
        ((imagePtr_eq_some_iff s offset len pointer).mp
          hPointer).1
      simpa using hLe

theorem imagePtr_inImage
    {s : State}
    {offset len : Nat}
    {pointer : Pointer}
    (hPointer : imagePtr s offset len = some pointer) :
    pointer.InImage s := by
  rcases (imagePtr_eq_some_iff s offset len pointer).mp
      hPointer with
    ⟨hLe, rfl⟩
  exact hLe

/- `blockPtr` succeeds exactly inside a block of the image. -/
theorem blockPtr_eq_some_iff
    (s : State)
    (block offset len : Nat)
    (pointer : Pointer) :
    blockPtr s block offset len = some pointer ↔
      offset + len ≤ s.blockSize ∧
        block * s.blockSize + offset + len ≤ s.fsSize ∧
        pointer =
          { address := block * s.blockSize + offset
            extent := len } := by
  unfold blockPtr
  by_cases hInside : offset + len ≤ s.blockSize
  · have hCondition :
        ¬ ((decide (offset > s.blockSize) ||
          decide (len > s.blockSize - offset)) = true) := by
      simp only [gt_iff_lt, Bool.or_eq_true,
        decide_eq_true_eq, not_or, Nat.not_lt]
      omega
    rw [if_neg hCondition, imagePtr_eq_some_iff]
    simp [hInside]
  · have hCondition :
        (decide (offset > s.blockSize) ||
          decide (len > s.blockSize - offset)) = true := by
      simp only [gt_iff_lt, Bool.or_eq_true,
        decide_eq_true_eq]
      omega
    simp [hCondition, hInside]

/- A whole block is reachable when it lies in the image. -/
theorem blockPtr_whole
    {s : State}
    {block : Nat}
    (hInside :
      (block + 1) * s.blockSize ≤ s.fsSize) :
    blockPtr s block 0 s.blockSize =
      some { address := block * s.blockSize
             extent := s.blockSize } := by
  rw [blockPtr_eq_some_iff]
  refine ⟨by omega, ?_, by simp⟩
  rw [Nat.add_mul, Nat.one_mul] at hInside
  omega

/- The view of a valid pointer has its whole extent. -/
theorem view_extent
    {s : State}
    {pointer : Pointer}
    (hInside : pointer.InImage s) :
    (s.view pointer).extent = pointer.extent := by
  have hSum :
      pointer.address + pointer.extent ≤ s.fsSize := hInside
  change min pointer.extent (s.fsSize - pointer.address) = _
  omega

theorem load_eq
    {s : State}
    {pointer : Pointer}
    {offset width : Nat}
    (hInside : pointer.InImage s)
    (hOffset : offset + width ≤ pointer.extent) :
    s.load pointer offset width =
      .ok (getLE s.image (pointer.address + offset)
        width) := by
  unfold State.load View.load
  rw [view_extent hInside, if_pos hOffset]
  exact congrArg Except.ok (getLE_slice _ _ _ _)

/- A store through a valid pointer is a range update. -/
theorem ensures_store_iff
    {stops : Fault → Prop}
    {s : State}
    {pointer : Pointer}
    {offset count : Nat}
    {source : Bytes}
    {post : Unit → State → Prop}
    (hInside : pointer.InImage s)
    (hOffset : offset + count ≤ pointer.extent) :
    Ensures stops (store pointer offset count source) s
        post ↔
      post () (s.withImage
        (write s.image (pointer.address + offset) count
          source)) := by
  unfold store
  rw [ensures_bind_iff, ensures_get_iff,
    if_pos (by rw [view_extent hInside]; exact hOffset)]
  exact ensures_set_iff _ _ _ _

/- The superblock pointer that mounting installs. -/
def superblockPointer : Pointer where
  address := superblockOffset
  extent := superblockSize

/- The superblock is mapped and lies in the image. -/
structure SuperblockMapped (s : State) : Prop where
  pointer : s.superblock = some superblockPointer
  inImage : superblockOffset + superblockSize ≤ s.fsSize

theorem superblockField_eq
    {s : State}
    (hMapped : SuperblockMapped s)
    {offset width : Nat}
    (hOffset : offset + width ≤ superblockSize) :
    superblockField s offset width =
      .ok (getLE s.image (superblockOffset + offset)
        width) := by
  unfold superblockField
  rw [hMapped.pointer]
  exact load_eq hMapped.inImage hOffset

end Ext2

end Whirliscope

------------------------------------------------------------
-- Inodes
------------------------------------------------------------

namespace Whirliscope

namespace Ext2

open ByteMemory FaultProgram

/- A local copy of an inode: its 128 on-disk bytes. -/
@[ext] structure Inode where
  bytes : Fin inodeBytes → UInt8

namespace Inode

/- The bytes of an inode as a memory. -/
def memory
    (inode : Inode) : Bytes :=
  fun index =>
    if hIndex : index < inodeBytes then
      inode.bytes ⟨index, hIndex⟩
    else
      0

/- The inode held by the first 128 bytes of a memory. -/
def ofMemory
    (source : Bytes) : Inode where
  bytes := fun index => source index

/- The inode cleared by `memset`. -/
def zero : Inode :=
  ofMemory zeros

/- Read a field of an inode. -/
def field
    (inode : Inode)
    (offset width : Nat) : Nat :=
  getLE inode.memory offset width

/- Assign a field of an inode. -/
def setField
    (inode : Inode)
    (offset width value : Nat) : Inode :=
  ofMemory (putLE inode.memory offset width value)

def mode (inode : Inode) := inode.field 0 2
def size (inode : Inode) := inode.field 4 4
def linksCount (inode : Inode) := inode.field 26 2
def blocks (inode : Inode) := inode.field 28 4
def block (inode : Inode) (index : Nat) :=
  inode.field (40 + 4 * index) 4

def setMode (inode : Inode) := inode.setField 0 2
def setSize (inode : Inode) := inode.setField 4 4
def setLinksCount (inode : Inode) := inode.setField 26 2
def setBlocks (inode : Inode) := inode.setField 28 4
def setBlock (inode : Inode) (index : Nat) :=
  inode.setField (40 + 4 * index) 4

/- `inode_is_dir`. -/
def isDir
    (inode : Inode) : Bool :=
  inode.mode &&& sIfdir = sIfdir

/- `inode_is_file`. -/
def isFile
    (inode : Inode) : Bool :=
  inode.mode &&& sIfreg = sIfreg

end Inode

/-
  Where `read_inode` and `write_inode` find an inode in the
  image, or nothing when they reject its number.
-/
def inodeLocation
    (s : State)
    (inodeNumber : Nat) :
    Except Fault (Option Pointer) := do
  if inodeNumber = 0 then return none
  if inodeNumber > (← inodesCount s) then return none
  let index := inodeNumber - 1
  let group ← divide index (← inodesPerGroup s)
  let groupIndex ← modulo index (← inodesPerGroup s)
  let some desc := groupDesc s group | return none
  let field ← inodeSize s
  let size := if field ≠ 0 then field else 128
  let table ← descInodeTable s desc
  return imagePtr s
    (table * s.blockSize + groupIndex * size) inodeBytes

/- `read_inode`. -/
def readInode
    (s : State)
    (inodeNumber : Nat) :
    Except Fault (Option Inode) := do
  let some location ← inodeLocation s inodeNumber
    | return none
  let source ← (s.view location).loadBytes 0 inodeBytes
  return some (Inode.ofMemory source)

/- `write_inode`. -/
def writeInode
    (inodeNumber : Nat)
    (inode : Inode) : Ext2M Bool := do
  let some location ←
      inodeLocation (← get) inodeNumber
    | return false
  store location 0 inodeBytes inode.memory
  return true

end Ext2

end Whirliscope
