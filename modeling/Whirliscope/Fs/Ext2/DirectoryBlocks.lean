import Whirliscope.Fs.Ext2.FileBlocks
import Whirliscope.Fs.Ext2.DirectoryRecords

/-
  A directory on a volume: every block of it is a row of
  records, and a search finds what the rows hold.

  Key definition:
    * `Catalog`

  Main theorems:
    * `Holds.directoryRecords_eq`
    * `Holds.findInDir_eq`
-/

------------------------------------------------------------
-- Scanning a Row of Records
------------------------------------------------------------

namespace Whirliscope

namespace Ext2

open ByteMemory FaultProgram Records

/- What a reader takes from a record. -/
def Record.read
    (record : Record) : DirRecord :=
  recordAt record.1.bytes record.2

/- Every record of a row fits. -/
theorem Tiles.fits
    {bytes : Bytes}
    {pos stop : Nat}
    {records : List DirRecord}
    (hTiles : Tiles bytes pos records stop) :
    ∀ record ∈ records, record.Fits leastSize 8 := by
  induction records generalizing pos with
  | nil => exact fun _ hNever => absurd hNever List.not_mem_nil
  | cons head rest ih =>
      rcases hTiles with ⟨-, hFits, hRest⟩
      rw [List.forall_mem_cons]
      exact ⟨hFits, ih hRest⟩

/- A row has no more records than bytes. -/
theorem length_le_total
    {records : List DirRecord}
    (hFits :
      ∀ record ∈ records, record.Fits leastSize 8) :
    records.length ≤ total records := by
  induction records with
  | nil => exact Nat.le_refl 0
  | cons head rest ih =>
      rw [List.forall_mem_cons] at hFits
      have hRest := ih hFits.2
      have hHead := hFits.1.1
      rw [List.length_cons, total_cons]
      omega

theorem Record.hasRoom_of_fits
    {record : Record}
    (hFits : record.read.Fits leastSize 8) :
    record.HasRoom := by
  intro hLive
  have hEntry :
      record.read.entry =
        some
          (record.name, record.inode,
            record.fileType) :=
    if_neg hLive
  have hLeast := hFits.2 _ hEntry
  unfold leastSize at hLeast
  rw [Record.length_name] at hLeast
  exact hLeast

theorem loop_scanRecords_row
    {buffer : Bytes}
    {chunk fuel pos : Nat}
    {row : List DirRecord}
    (hRow : Tiles buffer pos row chunk)
    (hChunk : chunk ≤ directoryBufferSize)
    (hFuel : row.length < fuel)
    (records : List Record) :
    ∃ more,
      loop (throw .noReturn)
          (scanRecords (bufferView buffer) chunk
            (fun records => (records, ScanEnd.broken))
            (noteRecord (bufferView buffer)))
          fuel (pos, records) =
        .ok (.inl (records ++ more)) ∧
      more.map Record.read = row := by
  induction row generalizing pos fuel records with
  | nil =>
      rcases fuel with - | fuel
      · exact absurd hFuel (Nat.not_lt_zero _)
      have hEnd : pos + dirEntrySize > chunk := by
        rw [show pos = chunk from hRow]
        exact Nat.lt_add_of_pos_right (by decide)
      refine ⟨[], ?_, rfl⟩
      rw [loop, scanRecords, if_pos hEnd, List.append_nil]
      rfl
  | cons head rest ih =>
      rcases fuel with - | fuel
      · exact absurd hFuel (Nat.not_lt_zero _)
      have hStop := hRow.stop_eq
      rw [total_cons] at hStop
      rcases hRow with ⟨rfl, hFits, hRest⟩
      have hLong : 8 ≤ getLE buffer (pos + 4) 2 := hFits.1
      have hSize :
          pos + getLE buffer (pos + 4) 2 ≤ chunk := by
        change pos + (recordAt buffer pos).size ≤ chunk
        omega
      have hMore : ¬ pos + dirEntrySize > chunk := by
        unfold dirEntrySize
        omega
      have hLoad :
          (bufferView buffer).entryRecLen pos =
            .ok (getLE buffer (pos + 4) 2) := by
        have hInside : pos + 4 + 2 ≤ directoryBufferSize := by
          omega
        exact if_pos hInside
      rcases ih hRest (Nat.lt_of_succ_lt_succ hFuel)
          (records ++ [(bufferView buffer, pos)]) with
        ⟨more, hLoop, hMap⟩
      refine ⟨(bufferView buffer, pos) :: more, ?_, ?_⟩
      · rw [loop, scanRecords, if_neg hMore, hLoad]
        simp only [bind, Except.bind]
        rw [if_neg (by omega), List.append_cons]
        exact hLoop
      · rw [List.map_cons, hMap]
        rfl

end Ext2

end Whirliscope

------------------------------------------------------------
-- Scanning a Directory
------------------------------------------------------------

namespace Whirliscope

namespace Ext2

open ByteMemory FaultProgram Records

/- A directory whose blocks are rows of records. -/
structure Catalog
    (G : Geometry)
    (V : Volume)
    (dir : Inode)
    (rows : List (List DirRecord)) : Prop where
  kind : dir.isDir = true
  filled : rows ≠ []
  size : dir.size = rows.length * G.blockSize
  mapped :
    ∀ index < rows.length, V.fileBlock G dir index ≠ 0
  tiled :
    ∀ index row, rows[index]? = some row →
      Tiles (V.contents (V.fileBlock G dir index)) 0 row
        G.blockSize

section

variable {G : Geometry} {V : Volume} {dir : Inode}
variable {rows : List (List DirRecord)}

theorem Catalog.fits
    (hCatalog : Catalog G V dir rows) :
    ∀ record ∈ rows.flatten, record.Fits leastSize 8 := by
  intro record hMem
  rw [List.mem_flatten] at hMem
  rcases hMem with ⟨row, hRow, hRecord⟩
  rcases List.mem_iff_getElem?.mp hRow with ⟨index, hIndex⟩
  exact (hCatalog.tiled index row hIndex).fits record hRecord

/- The records that are read have room for their names. -/
theorem Catalog.hasRoom
    (hCatalog : Catalog G V dir rows)
    {records : List Record}
    (hRead : records.map Record.read = rows.flatten) :
    ∀ record ∈ records, record.HasRoom := by
  intro record hMem
  have hFits := hCatalog.fits
  rw [← hRead] at hFits
  exact Record.hasRoom_of_fits
    (hFits _ (List.mem_map_of_mem hMem))

/- A block fits into the buffer of a scan. -/
theorem Sane.blockSize_le_buffer
    (hSane : Sane G) :
    G.blockSize ≤ directoryBufferSize := by
  unfold directoryBufferSize
  rcases hSane.blockSize_cases with hOne | hTwo | hFour
  · omega
  · omega
  · omega

/- The bytes of a block of the directory. -/
theorem Volume.fileByte_block
    {index i : Nat}
    (hMapped : V.fileBlock G dir index ≠ 0)
    (hByte : i < G.blockSize) :
    V.fileByte G dir (index * G.blockSize + i) =
      V.contents (V.fileBlock G dir index) i := by
  have hBlock :
      (index * G.blockSize + i) / G.blockSize = index := by
    rw [Nat.mul_comm, Nat.mul_add_div (by omega),
      Nat.div_eq_of_lt hByte, Nat.add_zero]
  have hOffset :
      (index * G.blockSize + i) % G.blockSize = i := by
    rw [Nat.mul_comm, Nat.mul_add_mod,
      Nat.mod_eq_of_lt hByte]
  unfold Volume.fileByte
  rw [hBlock, hOffset]
  exact if_neg hMapped

end

namespace Holds

variable {G : Geometry} {V : Volume} {s : State}
variable {dir : Inode} {rows : List (List DirRecord)}

/- The blocks of a directory from one of them on. -/
theorem loop_scanBlocks_catalog
    (hSane : Sane G)
    (hHolds : Holds G V s)
    (hBlocks : BlocksAreData G V dir)
    (hCatalog : Catalog G V dir rows)
    {first rest : List (List DirRecord)}
    (hRows : rows = first ++ rest)
    {fuel : Nat}
    (hFuel : rest.length < fuel)
    (buffer : Bytes)
    (records : List Record) :
    ∃ more,
      loop (throw .noReturn)
          (scanBlocks s dir
            (fun records => (records, ScanEnd.unreadable))
            (fun records => (records, ScanEnd.broken))
            (fun records => (records, ScanEnd.finished))
            noteRecord)
          fuel (first.length * G.blockSize, buffer, records) =
        .ok (records ++ more, .finished) ∧
      more.map Record.read = rest.flatten := by
  induction rest generalizing first fuel buffer records with
  | nil =>
      rcases fuel with - | fuel
      · exact absurd hFuel (Nat.not_lt_zero _)
      rw [List.append_nil] at hRows
      have hEnd : first.length * G.blockSize ≥ dir.size := by
        rw [hCatalog.size, hRows]
      refine ⟨[], ?_, rfl⟩
      rw [loop, scanBlocks, if_pos hEnd, List.append_nil]
      rfl
  | cons row rest ih =>
      rcases fuel with - | fuel
      · exact absurd hFuel (Nat.not_lt_zero _)
      have hPos := hSane.blockSize_pos
      have hIndex : rows[first.length]? = some row := by
        rw [hRows, List.getElem?_append_right (Nat.le_refl _),
          Nat.sub_self, List.getElem?_cons_zero]
      have hLength :
          rows.length = first.length + (rest.length + 1) := by
        rw [hRows, List.length_append, List.length_cons]
      have hSize :
          first.length * G.blockSize + G.blockSize ≤
            dir.size := by
        rw [hCatalog.size, hLength, ← Nat.succ_mul]
        exact Nat.mul_le_mul_right _ (by omega)
      have hMapped := hCatalog.mapped first.length (by omega)
      have hChunk :
          min (dir.size - first.length * G.blockSize)
              s.blockSize = G.blockSize := by
        rw [hHolds.blockSize]
        omega
      have hMore :
          ¬ first.length * G.blockSize ≥ dir.size := by
        omega
      have hRead :=
        hHolds.readInodeBytes_eq hSane hBlocks hSize buffer
      have hTiles :
          Tiles
            (write buffer 0 G.blockSize fun i =>
              V.fileByte G dir
                (first.length * G.blockSize + i))
            0 row G.blockSize := by
        apply (hCatalog.tiled _ _ hIndex).congr
        intro i _ hi
        rw [write_of_mem (Nat.zero_le i) (by omega),
          Nat.sub_zero, Volume.fileByte_block hMapped hi]
      have hBuffer := hSane.blockSize_le_buffer
      have hRow : row.length < G.blockSize + 1 := by
        have hFew := length_le_total hTiles.fits
        have hStop := hTiles.stop_eq
        omega
      rcases loop_scanRecords_row hTiles hBuffer hRow
          records with ⟨more, hScan, hMoreRead⟩
      rcases @ih (first ++ [row])
          (by rw [hRows, List.append_assoc]; rfl) fuel
          (Nat.lt_of_succ_lt_succ hFuel)
          (write buffer 0 G.blockSize fun i =>
            V.fileByte G dir
              (first.length * G.blockSize + i))
          (records ++ more) with
        ⟨others, hLoop, hOthers⟩
      refine ⟨more ++ others, ?_, ?_⟩
      · rw [loop, scanBlocks, if_neg hMore, hChunk]
        simp only [hRead, bind, Except.bind, Bool.not_true,
          Bool.false_eq_true, if_false]
        rw [hScan]
        rw [List.length_append, List.length_singleton,
          Nat.succ_mul, List.append_assoc] at hLoop
        rw [hHolds.blockSize]
        exact hLoop
      · rw [List.map_append, hMoreRead, hOthers,
          List.flatten_cons]

/- A scan comes to the records of the rows. -/
theorem directoryRecords_eq
    (hSane : Sane G)
    (hHolds : Holds G V s)
    (hBlocks : BlocksAreData G V dir)
    (hCatalog : Catalog G V dir rows) :
    ∃ records,
      directoryRecords s dir = .ok (records, .finished) ∧
        records.map Record.read = rows.flatten := by
  have hFuel : rows.length < dir.size + 1 := by
    have hPos := hSane.blockSize_pos
    rw [hCatalog.size]
    have hMany := Nat.le_mul_of_pos_right rows.length hPos
    omega
  rcases hHolds.loop_scanBlocks_catalog hSane hBlocks hCatalog
      (List.nil_append rows).symm hFuel s.stackBytes [] with
    ⟨records, hScan, hRead⟩
  rw [List.length_nil, Nat.zero_mul] at hScan
  exact ⟨records, hScan, hRead⟩

end Holds

/- A search of the records is a search of the entries. -/
theorem find_named_eq_lookup
    (name : List UInt8)
    (records : List Record) :
    (records.find? (·.Named name)).map Record.inode =
      (lookup name (records.map Record.read)).map
        Prod.fst := by
  induction records with
  | nil => rfl
  | cons record rest ih =>
      rw [List.map_cons]
      by_cases hLive : record.inode = 0
      · rw [lookup_cons_unused (if_pos hLive),
          List.find?_cons_of_neg (by
            simp [Record.Named, hLive])]
        exact ih
      · have hEntry :
            record.read.entry =
              some
                (record.name, record.inode,
                  record.fileType) :=
          if_neg hLive
        rw [lookup_cons_entry hEntry]
        by_cases hName : record.name = name
        · rw [List.find?_cons_of_pos (by
              simp [Record.Named, hLive, hName]),
            if_pos hName]
          rfl
        · rw [List.find?_cons_of_neg (by
              simp [Record.Named, hName]),
            if_neg hName]
          exact ih

namespace Holds

variable {G : Geometry} {V : Volume} {s : State}
variable {dir : Inode} {rows : List (List DirRecord)}

/- A search finds what the rows hold. -/
theorem findInDir_eq
    (hSane : Sane G)
    (hHolds : Holds G V s)
    (hBlocks : BlocksAreData G V dir)
    (hCatalog : Catalog G V dir rows)
    {name : List UInt8}
    (hName : name ≠ [])
    (hShort : name.length ≤ nameLen) :
    findInDir s dir name =
      .ok ((lookup name rows.flatten).map Prod.fst) := by
  rcases hHolds.directoryRecords_eq hSane hBlocks hCatalog with
    ⟨records, hRecords, hRead⟩
  have hSize : s.blockSize ≤ directoryBufferSize := by
    rw [hHolds.blockSize]
    exact hSane.blockSize_le_buffer
  rw [Ext2.findInDir_eq hCatalog.kind hName hShort hSize
      hRecords (hCatalog.hasRoom hRead),
    find_named_eq_lookup, hRead]

end Holds

end Ext2

end Whirliscope
