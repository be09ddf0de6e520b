import Whirliscope.Fs.Ext2.VolumePaths

/-
  The readers of directories use a local buffer, of which they
  fill as much as a block has. What they find does not depend
  on what the buffer holds before, as long as the records have
  room for their names.

  Key definition:
    * `Record.Similar`

  Main theorems:
    * `directoryRecords_similar`
    * `findInDir_similar`
-/

------------------------------------------------------------
-- Records in Two Buffers
------------------------------------------------------------

namespace Whirliscope

namespace Ext2

open ByteMemory FaultProgram Components

namespace Record

/- A record that another buffer holds as well. -/
structure Similar
    (record other : Record) : Prop where
  inode : other.inode = record.inode
  room : record.HasRoom → other.HasRoom
  name :
    record.inode ≠ 0 → record.HasRoom →
      other.name = record.name

theorem Similar.named_iff
    {record other : Record}
    (hSimilar : record.Similar other)
    (hRoom : record.HasRoom)
    (name : List UInt8) :
    other.Named name ↔ record.Named name := by
  unfold Named
  rw [hSimilar.inode]
  constructor
  · rintro ⟨hLive, hName⟩
    exact ⟨hLive, (hSimilar.name hLive hRoom).symm.trans hName⟩
  · rintro ⟨hLive, hName⟩
    exact ⟨hLive, (hSimilar.name hLive hRoom).trans hName⟩

end Record

section

variable {buffer other : Bytes} {chunk : Nat}

/- Buffers that were filled with the same bytes. -/
def FilledAlike
    (chunk : Nat)
    (buffer other : Bytes) : Prop :=
  ∀ i < chunk, other i = buffer i

theorem FilledAlike.getLE_eq
    (hAlike : FilledAlike chunk buffer other)
    {base width : Nat}
    (hInside : base + width ≤ chunk) :
    getLE other base width = getLE buffer base width :=
  getLE_congr fun i _ => hAlike (base + i) (by omega)

/- A record inside the bytes that both buffers hold. -/
theorem FilledAlike.similar
    (hAlike : FilledAlike chunk buffer other)
    {pos : Nat}
    (hHeader : pos + 8 ≤ chunk)
    (hInside : pos + getLE buffer (pos + 4) 2 ≤ chunk) :
    Record.Similar (bufferView buffer, pos)
      (bufferView other, pos) := by
  have hInode :
      getLE other pos 4 = getLE buffer pos 4 :=
    hAlike.getLE_eq (by omega)
  have hLength :
      getLE other (pos + 4) 2 = getLE buffer (pos + 4) 2 :=
    hAlike.getLE_eq (by omega)
  have hName :
      getLE other (pos + 6) 1 = getLE buffer (pos + 6) 1 :=
    hAlike.getLE_eq (by omega)
  constructor
  · exact hInode
  · intro hRoom hLive
    have hFits :
        8 + getLE buffer (pos + 6) 1 ≤
          getLE buffer (pos + 4) 2 :=
      hRoom fun hDead => hLive (hInode.trans hDead)
    change 8 + getLE other (pos + 6) 1 ≤
      getLE other (pos + 4) 2
    rw [hName, hLength]
    exact hFits
  · intro hLive hRoom
    have hFits :
        8 + getLE buffer (pos + 6) 1 ≤
          getLE buffer (pos + 4) 2 :=
      hRoom hLive
    change (List.range (getLE other (pos + 6) 1)).map
        (slice other (pos + 8)) =
      (List.range (getLE buffer (pos + 6) 1)).map
        (slice buffer (pos + 8))
    rw [hName]
    apply List.map_congr_left
    intro i hi
    rw [List.mem_range] at hi
    exact hAlike (pos + 8 + i) (by omega)

end

/- Lists of records from two buffers. -/
def SimilarRecords :
    List Record → List Record → Prop :=
  List.Forall₂ Record.Similar

/- Two scans of a block that come to the same records. -/
inductive SimilarScan :
    List Record ⊕ List Record × ScanEnd →
      List Record ⊕ List Record × ScanEnd → Prop
| next
    {records others : List Record}
    (hRecords : SimilarRecords records others) :
    SimilarScan (.inl records) (.inl others)
| done
    {records others : List Record}
    {ending : ScanEnd}
    (hRecords : SimilarRecords records others) :
    SimilarScan (.inr (records, ending))
      (.inr (others, ending))

section

variable {buffer other : Bytes} {chunk : Nat}
variable {records others : List Record}

theorem loop_scanRecords_similar
    (hAlike : FilledAlike chunk buffer other)
    (hChunk : chunk ≤ directoryBufferSize)
    {fuel pos : Nat}
    (hRecords : SimilarRecords records others)
    {scanned : List Record ⊕ List Record × ScanEnd}
    (hScanned :
      loop (throw .noReturn)
          (scanRecords (bufferView buffer) chunk
            (fun records => (records, ScanEnd.broken))
            (noteRecord (bufferView buffer)))
          fuel (pos, records) =
        .ok scanned) :
    ∃ scanned',
      loop (throw .noReturn)
          (scanRecords (bufferView other) chunk
            (fun records => (records, ScanEnd.broken))
            (noteRecord (bufferView other)))
          fuel (pos, others) =
        .ok scanned' ∧
      SimilarScan scanned scanned' := by
  induction fuel generalizing pos records others with
  | zero => cases hScanned
  | succ fuel ih =>
      rw [loop] at hScanned
      simp only [loop]
      unfold scanRecords at hScanned ⊢
      dsimp only at hScanned ⊢
      by_cases hEnd : pos + dirEntrySize > chunk
      · simp only [hEnd, if_true] at hScanned ⊢
        cases hScanned
        exact ⟨_, rfl, .next hRecords⟩
      simp only [hEnd, if_false] at hScanned ⊢
      have hHeader : pos + 8 ≤ chunk := Nat.le_of_not_gt hEnd
      have hLoad :
          ∀ bytes, (bufferView bytes).entryRecLen pos =
            .ok (getLE bytes (pos + 4) 2) := by
        intro bytes
        have hInside : pos + 4 + 2 ≤ directoryBufferSize := by
          omega
        exact if_pos hInside
      have hLength :
          getLE other (pos + 4) 2 =
            getLE buffer (pos + 4) 2 :=
        hAlike.getLE_eq (by omega)
      rw [hLoad] at hScanned ⊢
      rw [hLength]
      simp only [bind, Except.bind] at hScanned ⊢
      by_cases hBroken :
          getLE buffer (pos + 4) 2 < 8 ∨
            pos + getLE buffer (pos + 4) 2 > chunk
      · simp only [hBroken, if_true] at hScanned ⊢
        cases hScanned
        exact ⟨_, rfl, .done hRecords⟩
      simp only [hBroken, if_false, noteRecord]
        at hScanned ⊢
      refine ih ?_ hScanned
      exact List.rel_append hRecords (.cons
        (hAlike.similar hHeader (by omega)) .nil)

/- Reads that fill any buffer with the same bytes. -/
def ReadsAlike
    (s s' : State)
    (dir : Inode) : Prop :=
  ∀ offset len, offset + len ≤ dir.size →
    ∃ bytes : Bytes, ∀ buffer,
      readInodeBytes s dir offset buffer len =
          .ok (true, write buffer 0 len bytes) ∧
        readInodeBytes s' dir offset buffer len =
          .ok (true, write buffer 0 len bytes)

/- The blocks of a directory, read into two buffers. -/
theorem loop_scanBlocks_similar
    {s s' : State}
    {dir : Inode}
    (hBlockSize : s'.blockSize = s.blockSize)
    (hSize : s.blockSize ≤ directoryBufferSize)
    (hReads : ReadsAlike s s' dir)
    {fuel offset : Nat}
    (hRecords : SimilarRecords records others)
    {noted : List Record × ScanEnd}
    (hNoted :
      loop (throw .noReturn)
          (scanBlocks s dir
            (fun records => (records, ScanEnd.unreadable))
            (fun records => (records, ScanEnd.broken))
            (fun records => (records, ScanEnd.finished))
            noteRecord)
          fuel (offset, buffer, records) =
        .ok noted) :
    ∃ records',
      loop (throw .noReturn)
          (scanBlocks s' dir
            (fun records => (records, ScanEnd.unreadable))
            (fun records => (records, ScanEnd.broken))
            (fun records => (records, ScanEnd.finished))
            noteRecord)
          fuel (offset, other, others) =
        .ok (records', noted.2) ∧
      SimilarRecords noted.1 records' := by
  induction fuel generalizing offset buffer other records
      others with
  | zero => cases hNoted
  | succ fuel ih =>
      rw [loop] at hNoted
      simp only [loop]
      rw [scanBlocks] at hNoted ⊢
      rw [hBlockSize]
      by_cases hEnd : offset ≥ dir.size
      · simp only [hEnd, if_true] at hNoted ⊢
        cases hNoted
        exact ⟨_, rfl, hRecords⟩
      simp only [hEnd, if_false] at hNoted ⊢
      rcases hReads offset
          (min (dir.size - offset) s.blockSize) (by omega) with
        ⟨bytes, hBytes⟩
      have hAlike :
          FilledAlike (min (dir.size - offset) s.blockSize)
            (write buffer 0
              (min (dir.size - offset) s.blockSize) bytes)
            (write other 0
              (min (dir.size - offset) s.blockSize)
              bytes) := by
        intro i hi
        have hMem :
            i < 0 + min (dir.size - offset) s.blockSize := by
          rw [Nat.zero_add]
          exact hi
        rw [write_of_mem (Nat.zero_le i) hMem,
          write_of_mem (Nat.zero_le i) hMem]
      have hChunk :
          min (dir.size - offset) s.blockSize ≤
            directoryBufferSize :=
        (Nat.min_le_right _ _).trans hSize
      rw [(hBytes buffer).1] at hNoted
      rw [(hBytes other).2]
      simp only [bind, Except.bind, Bool.not_true,
        Bool.false_eq_true, if_false] at hNoted ⊢
      cases hScan :
          loop (throw .noReturn)
            (scanRecords
              (bufferView
                (write buffer 0
                  (min (dir.size - offset) s.blockSize)
                  bytes))
              (min (dir.size - offset) s.blockSize)
              (fun records => (records, ScanEnd.broken))
              (noteRecord
                (bufferView
                  (write buffer 0
                    (min (dir.size - offset) s.blockSize)
                    bytes))))
            (min (dir.size - offset) s.blockSize + 1)
            (0, records) with
      | error fault =>
          rw [hScan] at hNoted
          cases hNoted
      | ok scanned =>
          rw [hScan] at hNoted
          rcases loop_scanRecords_similar hAlike hChunk
              hRecords hScan with ⟨scanned', hScan', hBoth⟩
          rw [hScan']
          cases hBoth with
          | next hNext => exact ih hNext hNoted
          | done hDone =>
              cases hNoted
              exact ⟨_, rfl, hDone⟩

end

section

variable {s s' : State} {dir : Inode}
variable {records : List Record} {ending : ScanEnd}

/-
  Reading the same bytes, a scan comes to the same records,
  whatever the buffer holds before.
-/
theorem directoryRecords_similar
    (hBlockSize : s'.blockSize = s.blockSize)
    (hSize : s.blockSize ≤ directoryBufferSize)
    (hReads : ReadsAlike s s' dir)
    (hRecords :
      directoryRecords s dir = .ok (records, ending)) :
    ∃ records',
      directoryRecords s' dir = .ok (records', ending) ∧
        SimilarRecords records records' :=
  loop_scanBlocks_similar hBlockSize hSize hReads .nil hRecords

theorem find_similar
    {others : List Record}
    (hSimilar : SimilarRecords records others)
    (hRoom : ∀ record ∈ records, record.HasRoom)
    (name : List UInt8) :
    (others.find? (·.Named name)).map Record.inode =
      (records.find? (·.Named name)).map Record.inode := by
  induction hSimilar with
  | nil => rfl
  | @cons record other rest rest' hHead _ ih =>
      rw [List.forall_mem_cons] at hRoom
      have hNamed := hHead.named_iff hRoom.1 name
      by_cases hHere : record.Named name
      · rw [List.find?_cons_of_pos (by
            simpa using hNamed.mpr hHere),
          List.find?_cons_of_pos (by simpa using hHere),
          Option.map_some, Option.map_some, hHead.inode]
      · rw [List.find?_cons_of_neg (by
            simpa using mt hNamed.mp hHere),
          List.find?_cons_of_neg (by simpa using hHere)]
        exact ih hRoom.2

theorem SimilarRecords.hasRoom
    {others : List Record}
    (hSimilar : SimilarRecords records others)
    (hRoom : ∀ record ∈ records, record.HasRoom) :
    ∀ other ∈ others, other.HasRoom := by
  induction hSimilar with
  | nil => exact fun _ hNever => absurd hNever List.not_mem_nil
  | cons hHead _ ih =>
      rw [List.forall_mem_cons] at hRoom ⊢
      exact ⟨hHead.room hRoom.1, ih hRoom.2⟩

/- The live records name the same inodes. -/
theorem SimilarRecords.live
    {others : List Record}
    (hSimilar : SimilarRecords records others)
    {valid : Nat → Prop}
    (hValid :
      ∀ record ∈ records, record.inode ≠ 0 →
        valid record.inode) :
    ∀ other ∈ others, other.inode ≠ 0 →
      valid other.inode := by
  induction hSimilar with
  | nil => exact fun _ hNever => absurd hNever List.not_mem_nil
  | cons hHead _ ih =>
      rw [List.forall_mem_cons] at hValid ⊢
      rw [hHead.inode]
      exact ⟨hValid.1, ih hValid.2⟩

/- A search finds the same inode. -/
theorem findInDir_similar
    (hBlockSize : s'.blockSize = s.blockSize)
    (hSize : s.blockSize ≤ directoryBufferSize)
    (hReads : ReadsAlike s s' dir)
    (hRecords :
      dir.isDir = true →
        ∃ records,
          directoryRecords s dir = .ok (records, .finished) ∧
            ∀ record ∈ records, record.HasRoom)
    (name : List UInt8) :
    findInDir s' dir name = findInDir s dir name := by
  by_cases hSearch :
      dir.isDir = true ∧ name ≠ [] ∧ name.length ≤ nameLen
  · rcases hSearch with ⟨hDir, hName, hShort⟩
    rcases hRecords hDir with ⟨records, hScanned, hRoom⟩
    rcases directoryRecords_similar hBlockSize hSize hReads
        hScanned with ⟨others, hScanned', hSimilar⟩
    rw [findInDir_eq hDir hName hShort hSize hScanned hRoom,
      findInDir_eq hDir hName hShort (hBlockSize ▸ hSize)
        hScanned' (hSimilar.hasRoom hRoom),
      find_similar hSimilar hRoom]
  · have hRefused :
        (!dir.isDir) = true ∨ name.length = 0 ∨
          name.length > nameLen := by
      by_contra hOther
      push Not at hOther
      apply hSearch
      refine ⟨by simpa using hOther.1, ?_, hOther.2.2⟩
      exact fun hNil => hOther.2.1 (by rw [hNil]; rfl)
    unfold findInDir
    rw [if_pos hRefused, if_pos hRefused]

end

end Ext2

end Whirliscope
