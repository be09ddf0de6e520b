import Whirliscope.Fs.Ext2.BlockMap

/-
  The bytes of a file.

  `mappedBlock` is the block that backs a block of a file, and
  `fileByte` the byte at an offset of the file. Reading a file
  whose blocks lie in the image yields these bytes.

  Key definitions include:
    * `BlockSizeAccepted`, `BlockInImage`
    * `mappedBlock`, `fileByte`

  Main theorem:
    * `readInodeBytes_eq`
-/

------------------------------------------------------------
-- Mapped Blocks
------------------------------------------------------------

namespace Whirliscope

namespace Ext2

open ByteMemory FaultProgram

/- A block size that the mount accepts. -/
def BlockSizeAccepted
    (s : State) : Prop :=
  ∃ log, log ≤ 2 ∧ s.blockSize = 1024 * 2 ^ log

theorem BlockSizeAccepted.cases
    {s : State}
    (hSize : BlockSizeAccepted s) :
    s.blockSize = 1024 ∨ s.blockSize = 2048 ∨
      s.blockSize = 4096 := by
  rcases hSize with ⟨log, hLog, hEq⟩
  have hCases : log = 0 ∨ log = 1 ∨ log = 2 := by omega
  rcases hCases with rfl | rfl | rfl
  · exact .inl hEq
  · exact .inr (.inl hEq)
  · exact .inr (.inr hEq)

theorem BlockSizeAccepted.pos
    {s : State}
    (hSize : BlockSizeAccepted s) :
    0 < s.blockSize := by
  rcases hSize.cases with h | h | h <;> omega

/- A block fits in the buffer of a directory reader. -/
theorem BlockSizeAccepted.le_directoryBuffer
    {s : State}
    (hSize : BlockSizeAccepted s) :
    s.blockSize ≤ directoryBufferSize := by
  unfold directoryBufferSize
  rcases hSize.cases with h | h | h <;> omega

/- An indirect block is full of entries. -/
theorem BlockSizeAccepted.entries
    {s : State}
    (hSize : BlockSizeAccepted s) :
    4 * entriesPerBlock s = s.blockSize := by
  unfold entriesPerBlock
  rcases hSize.cases with h | h | h <;> omega

/- The whole block lies in the image. -/
def BlockInImage
    (s : State)
    (block : Nat) : Prop :=
  (block + 1) * s.blockSize ≤ s.fsSize

/- An entry of an indirect block; block 0 has no entries. -/
def pointerAt
    (s : State)
    (block index : Nat) : Nat :=
  if block = 0 then
    0
  else
    getLE s.image (block * s.blockSize + 4 * index) 4

/- The block that backs a file block, or 0. -/
def mappedBlock
    (s : State)
    (inode : Inode)
    (fileBlock : Nat) : Nat :=
  if fileBlock < directBlocks then
    inode.block fileBlock
  else if fileBlock - directBlocks < entriesPerBlock s then
    pointerAt s (inode.block 12) (fileBlock - directBlocks)
  else
    0

/- The indirect block of an inode, if any, is in the image. -/
def IndirectInImage
    (s : State)
    (inode : Inode) : Prop :=
  inode.block 12 ≠ 0 → BlockInImage s (inode.block 12)

theorem blockIdAt_eq
    {s : State}
    {inode : Inode}
    (hSize : BlockSizeAccepted s)
    (hIndirect : IndirectInImage s inode)
    (fileBlock : Nat) :
    blockIdAt s inode fileBlock =
      .ok (mappedBlock s inode fileBlock) := by
  unfold blockIdAt mappedBlock pointerAt
  by_cases hDirect : fileBlock < directBlocks
  · simp only [hDirect, if_true]
    rfl
  simp only [hDirect, if_false]
  by_cases hEntry :
      fileBlock - directBlocks < entriesPerBlock s
  · by_cases hNone : inode.block 12 = 0
    · simp only [hNone, ne_eq, not_true_eq_false, and_false,
        if_false, if_true, ite_self]
      rfl
    · have hBlock := hIndirect hNone
      have hEntries := hSize.entries
      simp only [hEntry, hNone, ne_eq, not_false_eq_true,
        and_self, if_true, if_false, blockPtr_whole hBlock]
      rw [load_eq]
      · rw [Pointer.InImage]
        simp only
        unfold BlockInImage at hBlock
        rw [Nat.add_mul, Nat.one_mul] at hBlock
        exact hBlock
      · simp only
        omega
  · simp only [hEntry, false_and, if_false]
    rfl

end Ext2

end Whirliscope

------------------------------------------------------------
-- Bytes of a File
------------------------------------------------------------

namespace Whirliscope

namespace Ext2

open ByteMemory FaultProgram

/- A byte of a block; block 0 stands for zeros. -/
def blockByte
    (s : State)
    (block index : Nat) : UInt8 :=
  if block = 0 then
    0
  else
    s.image (block * s.blockSize + index)

/- The byte of a file at an offset. -/
def fileByte
    (s : State)
    (inode : Inode)
    (offset : Nat) : UInt8 :=
  blockByte s (mappedBlock s inode (offset / s.blockSize))
    (offset % s.blockSize)

theorem divide_of_pos
    {divisor : Nat}
    (hPos : 0 < divisor)
    (dividend : Nat) :
    divide dividend divisor = .ok (dividend / divisor) :=
  if_neg (Nat.ne_of_gt hPos)

theorem modulo_of_pos
    {divisor : Nat}
    (hPos : 0 < divisor)
    (dividend : Nat) :
    modulo dividend divisor = .ok (dividend % divisor) :=
  if_neg (Nat.ne_of_gt hPos)

/- The blocks below the size of a file are in the image. -/
def BlocksInImage
    (s : State)
    (inode : Inode) : Prop :=
  ∀ fileBlock, fileBlock * s.blockSize < inode.size →
    mappedBlock s inode fileBlock ≠ 0 →
      BlockInImage s (mappedBlock s inode fileBlock)

theorem Inode.size_lt
    (inode : Inode) :
    inode.size < 2 ^ 32 :=
  getLE_lt inode.memory 4 4

/- One more chunk extends the bytes that were copied. -/
theorem write_extend
    (buffer source : Bytes)
    (copied chunk : Nat) :
    write (write buffer 0 copied source) copied chunk
        (slice source copied) =
      write buffer 0 (copied + chunk) source := by
  have hAppend :=
    write_append buffer source 0 copied chunk
  rw [Nat.zero_add] at hAppend
  exact hAppend

section

variable {s : State} {inode : Inode}

/- The bytes of a chunk come from one block. -/
theorem fileByte_chunk
    {fileOffset i : Nat}
    (hChunk :
      i < s.blockSize - fileOffset % s.blockSize) :
    fileByte s inode (fileOffset + i) =
      blockByte s
        (mappedBlock s inode (fileOffset / s.blockSize))
        (fileOffset % s.blockSize + i) := by
  have hPos : 0 < s.blockSize := by omega
  have hSplit := Nat.div_add_mod fileOffset s.blockSize
  have hSum :
      fileOffset + i =
        (fileOffset % s.blockSize + i) +
          s.blockSize * (fileOffset / s.blockSize) := by
    omega
  have hLess :
      fileOffset % s.blockSize + i < s.blockSize := by
    omega
  unfold fileByte
  rw [hSum, Nat.add_mul_div_left _ _ hPos,
    Nat.add_mul_mod_self_left, Nat.div_eq_of_lt hLess,
    Nat.mod_eq_of_lt hLess, Nat.zero_add]

theorem loadBytes_block
    {block blockOffset chunk : Nat}
    (hBlock : BlockInImage s block)
    (hChunk : blockOffset + chunk ≤ s.blockSize) :
    ∃ source,
      blockPtr s block blockOffset chunk = some source ∧
        (s.view source).loadBytes 0 chunk =
          .ok (slice s.image
            (block * s.blockSize + blockOffset)) := by
  have hInside :
      block * s.blockSize + blockOffset + chunk ≤
        s.fsSize := by
    unfold BlockInImage at hBlock
    rw [Nat.add_mul, Nat.one_mul] at hBlock
    omega
  let source : Pointer :=
    { address := block * s.blockSize + blockOffset
      extent := chunk }
  have hPointer : source.InImage s := hInside
  refine ⟨source, (blockPtr_eq_some_iff _ _ _ _ _).mpr
    ⟨hChunk, hInside, rfl⟩, ?_⟩
  unfold View.loadBytes
  rw [view_extent hPointer, if_pos (Nat.zero_add chunk).le]
  apply congrArg
  funext i
  change s.image (block * s.blockSize + blockOffset + (0 + i)) = _
  rw [Nat.zero_add]
  rfl

/- One pass of the copy loop copies one chunk. -/
theorem readChunk_eq
    (hSize : BlockSizeAccepted s)
    (hIndirect : IndirectInImage s inode)
    (hBlocks : BlocksInImage s inode)
    {offset len copied : Nat}
    (hLen : offset + len ≤ inode.size)
    (hMore : copied < len)
    (buffer : Bytes) :
    ∃ chunk, 0 < chunk ∧ copied + chunk ≤ len ∧
      readChunk s inode offset len
          (copied,
            write buffer 0 copied
              fun i => fileByte s inode (offset + i)) =
        .ok (.inl
          (copied + chunk,
            write buffer 0 (copied + chunk)
              fun i => fileByte s inode (offset + i))) := by
  have hPos := hSize.pos
  have hLess :=
    Nat.mod_lt (offset + copied) hPos
  have hShort := inode.size_lt
  have hDiv :
      (offset + copied) / s.blockSize ≤ offset + copied :=
    Nat.div_le_self _ _
  have hBelow :
      (offset + copied) / s.blockSize * s.blockSize <
        inode.size := by
    have := Nat.div_mul_le_self (offset + copied) s.blockSize
    omega
  have hWrap :
      wrap 32 ((offset + copied) / s.blockSize) =
        (offset + copied) / s.blockSize :=
    wrap_of_lt (by omega)
  generalize hChunk :
    min (s.blockSize - (offset + copied) % s.blockSize)
      (len - copied) = chunk
  refine ⟨chunk, by omega, by omega, ?_⟩
  -- The chunk continues the bytes copied before it.
  have hNext :
      ∀ source : Bytes,
        (∀ i, i < chunk →
          source i =
            blockByte s
              (mappedBlock s inode
                ((offset + copied) / s.blockSize))
              ((offset + copied) % s.blockSize + i)) →
        write
            (write buffer 0 copied
              fun i => fileByte s inode (offset + i))
            copied chunk source =
          write buffer 0 (copied + chunk)
            fun i => fileByte s inode (offset + i) := by
    intro source hSource
    rw [← write_extend]
    apply write_congr
    intro i hi
    rw [hSource i hi, slice_apply, ← Nat.add_assoc,
      fileByte_chunk (by omega)]
  have hId :=
    blockIdAt_eq hSize hIndirect
      ((offset + copied) / s.blockSize)
  have hNotDone : ¬ copied ≥ len := Nat.not_le_of_lt hMore
  unfold readChunk
  simp only [hNotDone, if_false, divide_of_pos hPos,
    modulo_of_pos hPos, bind, Except.bind, pure, Except.pure,
    hWrap, hId, hChunk]
  by_cases hHole :
      mappedBlock s inode
        ((offset + copied) / s.blockSize) = 0
  · simp only [hHole, if_true]
    rw [hNext zeros]
    intro i _
    rw [hHole]
    rfl
  · rcases loadBytes_block (hBlocks _ hBelow hHole)
        (by omega :
          (offset + copied) % s.blockSize + chunk ≤
            s.blockSize) with
      ⟨source, hSource, hBytes⟩
    simp only [hHole, if_false, hSource, hBytes]
    rw [hNext]
    intro i _
    unfold blockByte
    rw [if_neg hHole, slice_apply, Nat.add_assoc]

/-
  Reading a file whose blocks lie in the image yields its
  bytes.
-/
theorem readInodeBytes_eq
    (hSize : BlockSizeAccepted s)
    (hIndirect : IndirectInImage s inode)
    (hBlocks : BlocksInImage s inode)
    {offset len : Nat}
    (hLen : offset + len ≤ inode.size)
    (buffer : Bytes) :
    readInodeBytes s inode offset buffer len =
      .ok (true,
        write buffer 0 len
          fun i => fileByte s inode (offset + i)) := by
  have hAccepted :
      ¬ (offset > inode.size ∨ len > inode.size - offset) := by
    omega
  have hLoop :
      Yields (fun _ => False)
        (loop (throw .noReturn)
          (readChunk s inode offset len) (len + 1)
          (0, buffer))
        fun result =>
          result =
            (true,
              write buffer 0 len
                fun i => fileByte s inode (offset + i)) := by
    apply yields_loop fun fuel state =>
      len < state.1 + fuel ∧ state.1 ≤ len ∧
        state.2 =
          write buffer 0 state.1
            fun i => fileByte s inode (offset + i)
    · rintro ⟨copied, out⟩ ⟨hFuel, hLe, -⟩
      omega
    · rintro fuel ⟨copied, out⟩ ⟨hFuel, hLe, hOut⟩
      simp only at hFuel hLe hOut
      rw [hOut]
      by_cases hMore : copied < len
      · rcases readChunk_eq hSize hIndirect hBlocks hLen hMore
            buffer with
          ⟨chunk, hPos, hRoom, hEq⟩
        rw [hEq, yields_ok_iff]
        exact ⟨by simp only; omega, hRoom, rfl⟩
      · have hDone : copied = len := by omega
        subst hDone
        unfold readChunk
        simp only [ge_iff_le, Nat.le_refl, if_true,
          yields_pure_iff]
        rfl
    · refine ⟨by simp, Nat.zero_le _, ?_⟩
      funext address
      rw [write_of_not_mem (by omega)]
  unfold readInodeBytes
  rw [if_neg hAccepted]
  rcases hLoop.exists_eq_ok with ⟨result, hResult, rfl⟩
  exact hResult

end

end Ext2

end Whirliscope
