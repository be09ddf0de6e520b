import Whirliscope.Fs.Ext2.FileData
import Whirliscope.Fs.Ext2.Operations

/-
  Reading a file against the block map of the ext2 format.

  The format maps file blocks through 12 direct pointers and
  through single, double and triple indirect blocks. The
  driver follows direct pointers and single indirect blocks,
  and reads zeros beyond them.

  Key definitions include:
    * `formatBlock`, `formatByte`
    * `ValidMap`
    * `ReadsFormat`

  Main theorem:
    * `readsFormat_iff`
-/

------------------------------------------------------------
-- The Block Map of the Format
------------------------------------------------------------

namespace Whirliscope

namespace Ext2

open ByteMemory FaultProgram

/- The data block below `depth` levels of indirect blocks. -/
def indirectAt
    (s : State) : Nat → Nat → Nat → Nat
| 0, block, _ => block
| depth + 1, block, index =>
    let reach := entriesPerBlock s ^ depth
    indirectAt s depth (pointerAt s block (index / reach))
      (index % reach)

/- The block that the format maps a file block to, or 0. -/
def formatBlock
    (s : State)
    (inode : Inode)
    (fileBlock : Nat) : Nat :=
  let entries := entriesPerBlock s
  let single := fileBlock - directBlocks
  let double := single - entries
  let triple := double - entries ^ 2
  if fileBlock < directBlocks then
    inode.block fileBlock
  else if single < entries then
    indirectAt s 1 (inode.block 12) single
  else if double < entries ^ 2 then
    indirectAt s 2 (inode.block 13) double
  else if triple < entries ^ 3 then
    indirectAt s 3 (inode.block 14) triple
  else
    0

/- The byte of a file at an offset, as the format has it. -/
def formatByte
    (s : State)
    (inode : Inode)
    (offset : Nat) : UInt8 :=
  blockByte s (formatBlock s inode (offset / s.blockSize))
    (offset % s.blockSize)

/- A block and the blocks below it are in the image. -/
def TreeInImage
    (s : State) : Nat → Nat → Prop
| 0, block => block = 0 ∨ BlockInImage s block
| depth + 1, block =>
    block = 0 ∨
      (BlockInImage s block ∧
        ∀ index, index < entriesPerBlock s →
          TreeInImage s depth (pointerAt s block index))

instance
    (s : State)
    (block : Nat) :
    Decidable (BlockInImage s block) :=
  inferInstanceAs (Decidable (_ ≤ _))

instance decidableTreeInImage
    (s : State) :
    (depth block : Nat) → Decidable (TreeInImage s depth block)
| 0, block =>
    inferInstanceAs (Decidable (block = 0 ∨ BlockInImage s block))
| depth + 1, block =>
    have := decidableTreeInImage s depth
    inferInstanceAs
      (Decidable
        (block = 0 ∨
          (BlockInImage s block ∧
            ∀ index, index < entriesPerBlock s →
              TreeInImage s depth (pointerAt s block index))))

/- All pointers of an inode lead to blocks of the image. -/
structure ValidMap
    (s : State)
    (inode : Inode) : Prop where
  direct :
    ∀ index, index < directBlocks →
      TreeInImage s 0 (inode.block index)
  single : TreeInImage s 1 (inode.block 12)
  double : TreeInImage s 2 (inode.block 13)
  triple : TreeInImage s 3 (inode.block 14)

section

variable {s : State} {inode : Inode}

/- Both maps agree up to the single indirect block. -/
theorem formatBlock_eq_mapped
    {fileBlock : Nat}
    (hNear : fileBlock < directBlocks + entriesPerBlock s) :
    formatBlock s inode fileBlock =
      mappedBlock s inode fileBlock := by
  unfold formatBlock mappedBlock
  by_cases hDirect : fileBlock < directBlocks
  · simp only [hDirect, if_true]
  · have hSingle :
        fileBlock - directBlocks < entriesPerBlock s := by
      omega
    simp only [hDirect, hSingle, if_false, if_true, indirectAt,
      Nat.pow_zero, Nat.div_one]

/- The driver maps nothing beyond the indirect block. -/
theorem mappedBlock_far
    {fileBlock : Nat}
    (hFar : directBlocks + entriesPerBlock s ≤ fileBlock) :
    mappedBlock s inode fileBlock = 0 := by
  have hDirect : ¬ fileBlock < directBlocks := by omega
  have hSingle :
      ¬ fileBlock - directBlocks < entriesPerBlock s := by
    omega
  unfold mappedBlock
  rw [if_neg hDirect, if_neg hSingle]

theorem ValidMap.indirectInImage
    (hValid : ValidMap s inode) :
    IndirectInImage s inode := by
  intro hSome
  rcases hValid.single with hNone | ⟨hBlock, _⟩
  · exact absurd hNone hSome
  · exact hBlock

theorem ValidMap.blocksInImage
    (hValid : ValidMap s inode) :
    BlocksInImage s inode := by
  intro fileBlock _ hMapped
  unfold mappedBlock at hMapped ⊢
  split at hMapped
  · rename_i hDirect
    rw [if_pos hDirect]
    rcases hValid.direct fileBlock hDirect with hNone | hBlock
    · exact absurd hNone hMapped
    · exact hBlock
  · rename_i hDirect
    rw [if_neg hDirect]
    split at hMapped
    · rename_i hSingle
      rw [if_pos hSingle]
      rcases hValid.single with hNone | ⟨_, hBelow⟩
      · rw [hNone, pointerAt, if_pos rfl] at hMapped
        exact absurd rfl hMapped
      · rcases hBelow _ hSingle with hHole | hBlock
        · exact absurd hHole hMapped
        · exact hBlock
    · exact absurd rfl hMapped

/- The driver reads zeros where only the format maps. -/
theorem fileByte_eq_format
    (offset : Nat) :
    fileByte s inode offset =
      if directBlocks + entriesPerBlock s ≤
          offset / s.blockSize then
        0
      else
        formatByte s inode offset := by
  unfold fileByte formatByte
  split_ifs with hFar
  · rw [mappedBlock_far hFar]
    rfl
  · rw [formatBlock_eq_mapped (Nat.not_le.mp hFar)]

end

end Ext2

end Whirliscope

------------------------------------------------------------
-- Reading a File
------------------------------------------------------------

namespace Whirliscope

namespace Ext2

open ByteMemory FaultProgram

/-
  `ext2_read_file` returns an error, or the requested bytes of
  the file up to its end.
-/
def ReadsFormat
    (s : State)
    (path : CString)
    (inode : Inode)
    (buffer : Bytes)
    (len offset : Nat) : Prop :=
  ∃ result out,
    ext2ReadFile s (some path) buffer len offset =
        .ok (result, out) ∧
      (result < 0 ∨
        result = (min len (inode.size - offset) : Nat) ∧
          ∀ i, i < min len (inode.size - offset) →
            out i = formatByte s inode (offset + i))

section

variable {s : State} {path : CString}
variable {file : Inode} {number : Nat}

/- What `ext2_read_file` returns for a valid file. -/
theorem ext2ReadFile_eq
    (hSize : BlockSizeAccepted s)
    (hLookup :
      pathLookup s (some path.1) = .ok (some (file, number)))
    (hFile : file.isFile = true)
    (hValid : ValidMap s file)
    (buffer : Bytes)
    (len offset : Nat) :
    ext2ReadFile s (some path) buffer len offset =
      .ok ((min len (file.size - offset) : Nat),
        write buffer 0 (min len (file.size - offset))
          fun i => fileByte s file (offset + i)) := by
  unfold ext2ReadFile
  simp only [Option.map_some, hLookup, bind, Except.bind,
    pure, Except.pure, hFile, Bool.not_true,
    Bool.false_eq_true, if_false]
  by_cases hEnd : offset ≥ file.size
  · have hZero : file.size - offset = 0 := by omega
    have hNothing :
        write buffer 0 0
            (fun i => fileByte s file (offset + i)) =
          buffer := by
      funext address
      rw [write_of_not_mem (by omega)]
    rw [if_pos hEnd, hZero, Nat.min_zero, hNothing]
    rfl
  · have hRoom :
        offset + min len (file.size - offset) ≤ file.size := by
      omega
    rw [if_neg hEnd,
      readInodeBytes_eq hSize hValid.indirectInImage
        hValid.blocksInImage hRoom]
    rfl

/-
  A file is read as the format has it exactly when the request
  reaches no nonzero byte beyond the direct and the single
  indirect blocks.
-/
theorem readsFormat_iff
    (hSize : BlockSizeAccepted s)
    (hLookup :
      pathLookup s (some path.1) = .ok (some (file, number)))
    (hFile : file.isFile = true)
    (hValid : ValidMap s file)
    (buffer : Bytes)
    (len offset : Nat) :
    ReadsFormat s path file buffer len offset ↔
      ∀ i, i < min len (file.size - offset) →
        directBlocks + entriesPerBlock s ≤
            (offset + i) / s.blockSize →
          formatByte s file (offset + i) = 0 := by
  have hRead :=
    ext2ReadFile_eq hSize hLookup hFile hValid buffer len
      offset
  have hBytes :
      ∀ i, i < min len (file.size - offset) →
        write buffer 0 (min len (file.size - offset))
            (fun i => fileByte s file (offset + i)) i =
          fileByte s file (offset + i) := by
    intro i hi
    rw [write_of_mem (Nat.zero_le i) (by omega), Nat.sub_zero]
  constructor
  · rintro ⟨result, out, hResult, hFormat⟩ i hi hFar
    rw [hRead] at hResult
    injection hResult with hPair
    injection hPair with hCount hOut
    rcases hFormat with hError | ⟨_, hFormat⟩
    · omega
    · have hByte := hFormat i hi
      rw [← hOut, hBytes i hi, fileByte_eq_format,
        if_pos hFar] at hByte
      exact hByte.symm
  · intro hZeros
    refine ⟨_, _, hRead, .inr ⟨rfl, fun i hi => ?_⟩⟩
    rw [hBytes i hi, fileByte_eq_format]
    split_ifs with hFar
    · exact (hZeros i hi hFar).symm
    · rfl

end

/-
  An image with the file `/f`. Its first byte is in block 8
  and its last one behind the double indirect block 9.
-/
def sampleImage : Bytes :=
  write
    (putFields zeros
      [(1024, 4, 16), (1028, 4, 16), (1044, 4, 1),
        (1056, 4, 8192), (1064, 4, 16), (1080, 2, 0xef53),
        (1112, 2, 128), (2056, 4, 3),
        (3200, 2, 0x41ed), (3204, 4, 1024), (3240, 4, 6),
        (4480, 2, 0x81a4), (4484, 4, 274433), (4520, 4, 8),
        (4572, 4, 9),
        (6144, 4, 2), (6148, 2, 12), (6150, 2, 0x201),
        (6152, 1, 0x2e),
        (6156, 4, 2), (6160, 2, 12), (6162, 2, 0x202),
        (6164, 2, 0x2e2e),
        (6168, 4, 12), (6172, 2, 1000), (6174, 2, 0x101),
        (6176, 1, 0x66)])
    8192 8192
    (putFields zeros
      [(0, 1, 7), (1024, 4, 10), (2048, 4, 11), (3072, 1, 9)])

def sampleState : State where
  fsImage := true
  superblock := some superblockPointer
  image := sampleImage
  fsSize := 16384
  blockSize := 1024
  groupCount := 1
  writeback := none
  medium := zeros
  stackBytes := zeros

/- `"/f"`. -/
def samplePath : CString :=
  ⟨[0x2f, 0x66], by decide⟩

/- The inode of `/f`. -/
def sampleFile : Inode :=
  Inode.ofMemory (slice sampleImage 4480)

/- The file is found, and it is this inode. -/
def findsSample
    (result : Except Fault (Option (Inode × Nat))) : Bool :=
  match result with
  | .ok (some (file, number)) =>
      decide (number = 12) &&
        decide (∀ i, file.bytes i = sampleFile.bytes i)
  | _ => false

theorem sampleState_lookup :
    pathLookup sampleState (some samplePath.1) =
      .ok (some (sampleFile, 12)) := by
  have hFinds :
      findsSample
        (pathLookup sampleState (some samplePath.1)) =
          true := by
    decide +kernel
  unfold findsSample at hFinds
  split at hFinds
  · rename_i file number hLookup
    rw [Bool.and_eq_true, decide_eq_true_eq,
      decide_eq_true_eq] at hFinds
    rw [hLookup, hFinds.1, Inode.ext (funext hFinds.2)]
  · cases hFinds

theorem sampleState_valid :
    BlockSizeAccepted sampleState ∧
      sampleFile.isFile = true ∧
      ValidMap sampleState sampleFile := by
  refine ⟨⟨0, by decide, rfl⟩, by decide, ?_⟩
  exact
    { direct := by decide
      single := by decide
      double := by decide +kernel
      triple := by decide }

/- The first byte of the file is read. -/
theorem sampleState_reads :
    ReadsFormat sampleState samplePath sampleFile zeros 1 0 := by
  rcases sampleState_valid with ⟨hSize, hFile, hValid⟩
  apply (readsFormat_iff hSize sampleState_lookup hFile hValid
    zeros 1 0).mpr
  intro i hi hFar
  have hZero : i = 0 := by omega
  subst hZero
  revert hFar
  decide

/- The last byte of the file is 9 and is read as 0. -/
theorem sampleState_misreads :
    ¬ ∀ (s : State) (path : CString) (file : Inode)
        (number : Nat),
      BlockSizeAccepted s →
      pathLookup s (some path.1) = .ok (some (file, number)) →
      file.isFile = true → ValidMap s file →
      ∀ buffer len offset,
        ReadsFormat s path file buffer len offset := by
  intro hAll
  rcases sampleState_valid with ⟨hSize, hFile, hValid⟩
  rcases hAll sampleState samplePath sampleFile 12 hSize
      sampleState_lookup hFile hValid zeros 1 274432 with
    ⟨result, out, hRead, hFormat⟩
  rw [ext2ReadFile_eq hSize sampleState_lookup hFile hValid]
    at hRead
  injection hRead with hPair
  injection hPair with hCount hOut
  have hRoom :
      min 1 (sampleFile.size - 274432) = 1 := by
    decide
  rcases hFormat with hError | ⟨_, hFormat⟩
  · omega
  · have hByte := hFormat 0 (by omega)
    rw [← hOut] at hByte
    revert hByte
    decide

end Ext2

end Whirliscope
