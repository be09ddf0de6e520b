import Whirliscope.Fs.Ext2.DirectoryEdits
import Whirliscope.Fs.Ext2.FailedGrowth

/-
  Adding an entry to a directory: the first record with room
  takes it, or a new block at the end of the directory.

  Key definition:
    * `Inserted`

  Main theorems:
    * `Holds.ensures_addInRow`
    * `Holds.ensures_addDirEntry`
-/

------------------------------------------------------------
-- Adding to a Row
------------------------------------------------------------

namespace Whirliscope

namespace Ext2

open ByteMemory FaultProgram Records

namespace Holds

variable {G : Geometry} {V : Volume} {s : State}
variable {stops : Fault → Prop} {block : Nat} {bytes : Bytes}
variable {child fileType : Nat} {name : List UInt8}

/- The stores of a name and its type. -/
theorem ensures_storeEntryName
    (hSane : Sane G)
    (hHolds : Holds G (V.setBlock block bytes) s)
    (hData : G.IsData block)
    {pos : Nat}
    (hRange : pos + 8 + name.length ≤ G.blockSize)
    (fileType : Nat) :
    Ensures stops
      (storeEntryName (G.blockPointer block) pos name fileType)
      s
      fun _ final =>
        Holds G
          (V.setBlock block (putName bytes pos name fileType))
          final := by
  unfold storeEntryName
  rw [ensures_bind_iff]
  apply (hHolds.ensures_storeBlockField hSane hData
    (by omega) name.length).mono
  intro _ s₁ hHolds₁
  rw [ensures_bind_iff]
  apply (hHolds₁.ensures_storeBlockField hSane hData
    (by omega) fileType).mono
  intro _ s₂ hHolds₂
  exact hHolds₂.ensures_storeBlock hSane hData hRange _

/- The stores of a new entry. -/
theorem ensures_storeEntry
    (hSane : Sane G)
    (hHolds : Holds G (V.setBlock block bytes) s)
    (hData : G.IsData block)
    {pos : Nat}
    (hRange : pos + 8 + name.length ≤ G.blockSize)
    (child fileType : Nat) :
    Ensures stops
      (do
        storeField (G.blockPointer block) pos 4 child
        storeEntryName (G.blockPointer block) pos name
          fileType)
      s
      fun _ final =>
        Holds G
          (V.setBlock block
            (putEntry bytes pos child name fileType))
          final := by
  rw [ensures_bind_iff]
  apply (hHolds.ensures_storeBlockField hSane hData
    (by omega) child).mono
  intro _ s₁ hHolds₁
  exact hHolds₁.ensures_storeEntryName hSane hData hRange
    fileType

theorem ensures_placeEntry
    (hSane : Sane G)
    (hHolds : Holds G V s)
    (hData : G.IsData block)
    {pos : Nat}
    {record : DirRecord}
    (hRecord : record = recordAt (V.contents block) pos)
    (hRoom :
      record.used neededSize 8 + neededSize name ≤ record.size)
    (hInside : pos + record.size ≤ G.blockSize)
    {actual : Nat}
    (hActual : actual = record.used neededSize 8)
    (child fileType : Nat) :
    Ensures stops
      (placeEntry (G.blockPointer block) pos
        (getLE (V.contents block) pos 4) actual record.size
        child name fileType)
      s
      fun _ final =>
        Holds G
          (V.setBlock block
            (placed (V.contents block) pos record child name
              fileType))
          final := by
  have hLeast := leastSize_le_neededSize name
  unfold leastSize at hLeast
  rw [← Volume.setBlock_self V block] at hHolds
  unfold placeEntry placed
  unfold Record.used at hRoom hActual
  by_cases hLive : getLE (V.contents block) pos 4 = 0
  · have hEntry : record.entry = none := by
      rw [hRecord]
      exact if_pos hLive
    simp only [hEntry] at hRoom
    rw [hEntry, if_neg (by simpa using hLive)]
    exact hHolds.ensures_storeEntry hSane hData (by omega)
      child fileType
  · have hEntry :
        record.entry =
          some
            (nameAt (V.contents block) pos,
              getLE (V.contents block) pos 4,
              getLE (V.contents block) (pos + 7) 1) := by
      rw [hRecord]
      exact if_neg hLive
    simp only [hEntry] at hRoom hActual
    have hOld :=
      eight_le_neededSize (nameAt (V.contents block) pos)
    rw [← hActual] at hRoom hOld
    rw [hEntry, if_pos hLive]
    simp only [← hActual]
    rw [ensures_bind_iff]
    apply (hHolds.ensures_storeBlockField hSane hData
      (by omega) actual).mono
    intro _ s₁ hHolds₁
    rw [ensures_bind_iff]
    apply (hHolds₁.ensures_storeBlockField hSane hData
      (by omega) (record.size - actual)).mono
    intro _ s₂ hHolds₂
    exact hHolds₂.ensures_storeEntry hSane hData (by omega)
      child fileType

/- One record of the search for room. -/
theorem ensures_addAtRecord
    (hSane : Sane G)
    (hHolds : Holds G V s)
    (hData : G.IsData block)
    (hShort : name.length ≤ 255)
    {pos : Nat}
    {record : DirRecord}
    (hRecord : record = recordAt (V.contents block) pos)
    (hFits : record.Fits leastSize 8)
    (hInside : pos + record.size ≤ G.blockSize)
    (child fileType : Nat) :
    Ensures stops
      (addAtRecord (G.blockPointer block)
        (dirEntryMinLen name.length) child name fileType pos)
      s
      fun step final =>
        if record.used neededSize 8 + neededSize name ≤
            record.size then
          step = .inr (some true) ∧
            Holds G
              (V.setBlock block
                (placed (V.contents block) pos record child
                  name fileType))
              final
        else
          step = .inl (pos + record.size) ∧
            Holds G V final := by
  have hLong := hFits.1
  have hSize :
      getLE (V.contents block) (pos + 4) 2 = record.size := by
    rw [hRecord]
    rfl
  have hMore : ¬ pos + dirEntrySize > G.blockSize := by
    unfold dirEntrySize
    omega
  have hAccepted :
      ¬ (record.size < 8 ∨
        pos + record.size > G.blockSize) := by
    omega
  have hNameLen :
      getLE (V.contents block) (pos + 6) 1 < 256 :=
    getLE_lt _ _ 1
  have hActual :
      (if getLE (V.contents block) pos 4 ≠ 0 then
          dirEntryMinLen
            (getLE (V.contents block) (pos + 6) 1)
        else
          8) =
        record.used neededSize 8 := by
    rw [hRecord]
    unfold Record.used recordAt
    by_cases hLive : getLE (V.contents block) pos 4 = 0
    · simp only [hLive, ne_eq, not_true, if_false, if_true]
    · simp only [hLive, ne_eq, not_false_iff, if_true,
        if_false]
      rw [← length_nameAt]
      exact dirEntryMinLen_eq (by
        rw [length_nameAt]
        omega)
  unfold addAtRecord
  simp only [ensures_bind_iff, ensures_get_iff,
    hHolds.blockSize, if_neg hMore, View.entryRecLen,
    View.entryInode, View.entryNameLen]
  rw [hHolds.load_block hSane hData (by omega),
    hHolds.load_block hSane hData (by omega),
    hHolds.load_block hSane hData (by omega)]
  simp only [ensures_lift_iff, yields_ok_iff, hSize,
    if_neg hAccepted, ensures_bind_iff]
  rw [hActual, dirEntryMinLen_eq hShort]
  by_cases hRoom :
      record.used neededSize 8 + neededSize name ≤ record.size
  · rw [if_pos hRoom, ensures_bind_iff]
    apply (hHolds.ensures_placeEntry hSane hData hRecord hRoom
      hInside rfl child fileType).mono
    intro _ final hFinal
    rw [ensures_pure_iff, if_pos hRoom]
    exact ⟨rfl, hFinal⟩
  · rw [if_neg hRoom, ensures_pure_iff, if_neg hRoom]
    exact ⟨rfl, hHolds⟩

/-
  The search for room from a record of a block on, by
  induction on the records that are left.
-/
theorem ensures_addInRow
    (hSane : Sane G)
    (hHolds : Holds G V s)
    (hData : G.IsData block)
    (hSome : child ≠ 0)
    (hChild : child < 2 ^ 32)
    (hShort : name.length ≤ 255)
    (hType : fileType < 256)
    {pos fuel : Nat}
    {row : List DirRecord}
    (hRow : Tiles (V.contents block) pos row G.blockSize)
    (hFuel : row.length < fuel) :
    Ensures stops
      (loop (throw .noReturn)
        (addAtRecord (G.blockPointer block)
          (dirEntryMinLen name.length) child name fileType)
        fuel pos)
      s
      fun found final =>
        found = none ∧ Holds G V final ∧
            insert neededSize 8 name (child, fileType) row =
              none ∨
          found = some true ∧
            ∃ row' bytes,
              insert neededSize 8 name (child, fileType) row =
                  some row' ∧
                Tiles bytes pos row' G.blockSize ∧
                (∀ i < pos, bytes i = V.contents block i) ∧
                Holds G (V.setBlock block bytes) final := by
  induction row generalizing pos fuel s with
  | nil =>
      rcases fuel with - | fuel
      · exact absurd hFuel (Nat.not_lt_zero _)
      have hEnd : pos + dirEntrySize > G.blockSize := by
        rw [show pos = G.blockSize from hRow]
        exact Nat.lt_add_of_pos_right (by decide)
      rw [loop, addAtRecord, ensures_bind_iff, ensures_bind_iff,
        ensures_get_iff, hHolds.blockSize, if_pos hEnd,
        ensures_pure_iff, ensures_pure_iff]
      exact .inl ⟨rfl, hHolds, rfl⟩
  | cons record rest ih =>
      rcases fuel with - | fuel
      · exact absurd hFuel (Nat.not_lt_zero _)
      have hStop := hRow.stop_eq
      rw [total_cons] at hStop
      rcases hRow with ⟨hRecord, hFits, hRest⟩
      rw [loop, ensures_bind_iff]
      apply (hHolds.ensures_addAtRecord hSane hData hShort
        hRecord hFits (by omega) child fileType).mono
      intro step middle hStep
      by_cases hRoom :
          record.used neededSize 8 + neededSize name ≤
            record.size
      · rw [if_pos hRoom] at hStep
        rcases hStep with ⟨rfl, hFinal⟩
        rw [ensures_pure_iff]
        have hTiles :=
          tiles_placed hSome hChild hShort hType hRecord hFits
            hRoom
        refine .inr ⟨rfl,
          record.place neededSize name (child, fileType) ++
            rest,
          _, if_pos hRoom, ?_, fun i hi =>
            placed_of_outside hRoom (.inl hi), hFinal⟩
        have hTotal := hTiles.stop_eq
        rw [tiles_append_iff, ← hTotal]
        refine ⟨hTiles, hRest.congr fun i hLow _ => ?_⟩
        exact placed_of_outside hRoom (.inr hLow)
      · rw [if_neg hRoom] at hStep
        rcases hStep with ⟨rfl, hMiddle⟩
        have hInsert :
            insert neededSize 8 name (child, fileType)
                (record :: rest) =
              (insert neededSize 8 name (child, fileType)
                rest).map (record :: ·) :=
          if_neg hRoom
        rw [hInsert]
        apply (ih hMiddle hRest
          (Nat.lt_of_succ_lt_succ hFuel)).mono
        rintro found final
          (⟨rfl, hFinal, hNone⟩ |
            ⟨rfl, row', bytes, hRow', hTiles, hSame, hFinal⟩)
        · exact .inl ⟨rfl, hFinal, by rw [hNone]; rfl⟩
        · refine .inr ⟨rfl, record :: row', bytes,
            by rw [hRow']; rfl, ⟨?_, hFits, hTiles⟩,
            fun i hi => hSame i (by omega), hFinal⟩
          rw [hRecord] at hFits ⊢
          exact (recordAt_congr hFits fun i _ hHigh =>
            hSame i (by rw [hRecord]; exact hHigh)).symm

end Holds

end Ext2

end Whirliscope

------------------------------------------------------------
-- Adding to a Directory
------------------------------------------------------------

namespace Whirliscope

namespace Ext2

open ByteMemory FaultProgram Records

/- A row that a new entry has for itself. -/
def soleEntry
    (size child : Nat)
    (name : List UInt8)
    (fileType : Nat) : List DirRecord :=
  [{ size := size, entry := some (name, child, fileType) }]

/- A new entry in a block of its own. -/
theorem tiles_soleEntry
    {bytes : Bytes}
    {size child fileType : Nat}
    {name : List UInt8}
    (hSome : child ≠ 0)
    (hChild : child < 2 ^ 32)
    (hShort : name.length ≤ 255)
    (hType : fileType < 256)
    (hLong : 263 ≤ size)
    (hSize : size < 65536) :
    Tiles
      (putEntry (putLE bytes 4 2 size) 0 child name fileType)
      0 (soleEntry size child name fileType) size := by
  refine ⟨?_, ⟨?_, ?_⟩, Nat.zero_add _⟩
  · rw [recordAt_putEntry hSome hChild hShort hType,
      getLE_putLE_same]
    congr 1
    exact (Nat.mod_eq_of_lt hSize).symm
  · dsimp only
    omega
  · intro entry hEntry
    injection hEntry with hEntry
    subst hEntry
    unfold leastSize
    dsimp only
    omega

/-
  All that `add_dir_entry` can do to a directory: a row takes
  the entry, a new block takes it, or there is no new block.
-/
inductive Inserted
    (G : Geometry)
    (V : Volume)
    (number : Nat)
    (dir : Inode)
    (rows : List (List DirRecord))
    (child : Nat)
    (name : List UInt8)
    (fileType : Nat) :
    Bool × Inode → Volume → List (List DirRecord) → Prop
| placed
    {first last : List (List DirRecord)}
    {row row' : List DirRecord}
    {bytes : Bytes}
    (count : Nat)
    (hRows : rows = first ++ row :: last)
    (hRow :
      insert neededSize 8 name (child, fileType) row =
        some row')
    (hTiles : Tiles bytes 0 row' G.blockSize) :
    Inserted G V number dir rows child name fileType
      (true, dir.resized dir.size count)
      ((V.setBlock (V.fileBlock G dir first.length)
        bytes).setInode number (dir.resized dir.size count))
      (first ++ row' :: last)
| appended
    {block : Nat}
    {copy : Inode}
    {V' : Volume}
    {bytes : Bytes}
    (count : Nat)
    (hNone :
      ∀ row ∈ rows,
        insert neededSize 8 name (child, fileType) row = none)
    (hEnsured :
      Ensured G V dir rows.length (some block, copy) V')
    (hTiles :
      Tiles bytes 0
        (soleEntry G.blockSize child name fileType)
        G.blockSize) :
    Inserted G V number dir rows child name fileType
      (true,
        copy.resized ((rows.length + 1) * G.blockSize) count)
      ((V'.setBlock block bytes).setInode number
        (copy.resized ((rows.length + 1) * G.blockSize)
          count))
      (rows ++ [soleEntry G.blockSize child name fileType])
| failed
    {copy : Inode}
    {V' : Volume}
    (hNone :
      ∀ row ∈ rows,
        insert neededSize 8 name (child, fileType) row = none)
    (hEnsured : Ensured G V dir rows.length (none, copy) V') :
    Inserted G V number dir rows child name fileType
      (false, copy) V' rows

namespace Holds

variable {G : Geometry} {V : Volume} {s : State}
variable {stops : Fault → Prop} {number child fileType : Nat}
variable {dir : Inode} {rows : List (List DirRecord)}
variable {name : List UInt8}

/- One block of the search for room. -/
theorem ensures_addInBlock
    (hSane : Sane G)
    (hHolds : Holds G V s)
    (hEditing : Editing G V number dir)
    (hCatalog : Catalog G V dir rows)
    (hSome : child ≠ 0)
    (hChild : child < 2 ^ 32)
    (hShort : name.length ≤ 255)
    (hType : fileType < 256)
    {index : Nat}
    {row : List DirRecord}
    (hRow : rows[index]? = some row) :
    Ensures stops
      (addInBlock number child rows.length name fileType
        (index, dir))
      s
      fun step final =>
        insert neededSize 8 name (child, fileType) row = none ∧
            step = .inl (index + 1, dir) ∧ Holds G V final ∨
          ∃ row' bytes count,
            insert neededSize 8 name (child, fileType) row =
                some row' ∧
              Tiles bytes 0 row' G.blockSize ∧
              step =
                .inr
                  (some true, dir.resized dir.size count) ∧
              Holds G
                ((V.setBlock (V.fileBlock G dir index)
                  bytes).setInode number
                    (dir.resized dir.size count))
                final := by
  have hIndex : index < rows.length :=
    (List.getElem?_eq_some_iff.mp hRow).1
  have hMapped := hCatalog.mapped index hIndex
  have hData : G.IsData (V.fileBlock G dir index) :=
    hEditing.blocksAreData _ hMapped
  have hTiles := hCatalog.tiled index row hRow
  have hFuel : row.length < G.blockSize + 1 := by
    have hFew := length_le_total hTiles.fits
    have hStop := hTiles.stop_eq
    omega
  unfold addInBlock
  simp only [if_neg (Nat.not_le_of_lt hIndex),
    ensures_bind_iff]
  apply (hHolds.ensures_ensureFileBlock hSane hEditing.metadata
    hEditing.blocksAreData.indirect index).mono
  rintro result s₁ ⟨V₁, hHolds₁, hEnsured⟩
  rcases hEnsured.of_mapped hMapped with ⟨rfl, rfl⟩
  simp only [ensures_bind_iff, ensures_get_iff,
    hHolds₁.blockPtr_eq hSane hData]
  rw [hHolds₁.blockSize]
  apply (hHolds₁.ensures_addInRow hSane hData hSome hChild
    hShort hType hTiles hFuel).mono
  rintro found s₂
    (⟨rfl, hHolds₂, hNone⟩ |
      ⟨rfl, row', bytes, hRow', hTiles', -, hHolds₂⟩)
  · rw [ensures_pure_iff]
    exact .inl ⟨hNone, rfl, hHolds₂⟩
  · rw [ensures_bind_iff, ← hCatalog.size]
    apply (hHolds₂.ensures_saveSize hSane hEditing.allocated.1
      dir dir.size).mono
    rintro result final ⟨count, rfl, hFinal⟩
    rw [ensures_pure_iff]
    exact .inr ⟨row', bytes, count, hRow', hTiles', rfl,
      hFinal⟩

/- The blocks from one of them on. -/
theorem ensures_addInBlocks
    (hSane : Sane G)
    (hHolds : Holds G V s)
    (hEditing : Editing G V number dir)
    (hCatalog : Catalog G V dir rows)
    (hSome : child ≠ 0)
    (hChild : child < 2 ^ 32)
    (hShort : name.length ≤ 255)
    (hType : fileType < 256)
    {first rest : List (List DirRecord)}
    (hRows : rows = first ++ rest)
    {fuel : Nat}
    (hFuel : rest.length < fuel) :
    Ensures stops
      (loop (throw .noReturn)
        (addInBlock number child rows.length name fileType)
        fuel (first.length, dir))
      s
      fun result final =>
        result = (none, dir) ∧ Holds G V final ∧
            (∀ row ∈ rest,
              insert neededSize 8 name (child, fileType) row =
                none) ∨
          ∃ V' result' rows',
            result = (some result'.1, result'.2) ∧
              result'.1 = true ∧ Holds G V' final ∧
              Inserted G V number dir rows child name fileType
                result' V' rows' := by
  induction rest generalizing first fuel s with
  | nil =>
      rcases fuel with - | fuel
      · exact absurd hFuel (Nat.not_lt_zero _)
      rw [List.append_nil] at hRows
      have hEnd : first.length ≥ rows.length := by rw [hRows]
      rw [loop, addInBlock, if_pos hEnd, pure_bind,
        ensures_pure_iff]
      exact .inl ⟨rfl, hHolds, fun _ hNever =>
        absurd hNever List.not_mem_nil⟩
  | cons row rest ih =>
      rcases fuel with - | fuel
      · exact absurd hFuel (Nat.not_lt_zero _)
      have hRow : rows[first.length]? = some row := by
        rw [hRows, List.getElem?_append_right (Nat.le_refl _),
          Nat.sub_self, List.getElem?_cons_zero]
      rw [loop, ensures_bind_iff]
      apply (hHolds.ensures_addInBlock hSane hEditing hCatalog
        hSome hChild hShort hType hRow).mono
      rintro step middle
        (⟨hNone, rfl, hMiddle⟩ |
          ⟨row', bytes, count, hRow', hTiles, rfl, hFinal⟩)
      · have hRest :=
          @ih middle hMiddle (first ++ [row])
            (by rw [hRows, List.append_assoc]; rfl) fuel
            (Nat.lt_of_succ_lt_succ hFuel)
        rw [List.length_append, List.length_singleton] at hRest
        apply hRest.mono
        rintro result final (⟨hResult, hHolds', hOthers⟩ | hDone)
        · refine .inl ⟨hResult, hHolds', ?_⟩
          rw [List.forall_mem_cons]
          exact ⟨hNone, hOthers⟩
        · exact .inr hDone
      · rw [ensures_pure_iff]
        exact .inr ⟨_, (true, _), _, rfl, rfl, hFinal,
          .placed count hRows hRow' hTiles⟩

/- The new block at the end of the directory. -/
theorem ensures_addInNewBlock
    (hSane : Sane G)
    (hHolds : Holds G V s)
    (hEditing : Editing G V number dir)
    (hSome : child ≠ 0)
    (hChild : child < 2 ^ 32)
    (hShort : name.length ≤ 255)
    (hType : fileType < 256)
    (hNone :
      ∀ row ∈ rows,
        insert neededSize 8 name (child, fileType) row =
          none) :
    Ensures stops
      (addInNewBlock dir number child rows.length name
        fileType)
      s
      fun result final =>
        ∃ V' rows', Holds G V' final ∧
          Inserted G V number dir rows child name fileType
            result V' rows' := by
  have hBlockSize :
      264 ≤ G.blockSize ∧ G.blockSize ≤ 4096 := by
    rcases hSane.blockSize_cases with hOne | hTwo | hFour <;>
      omega
  unfold addInNewBlock
  rw [ensures_bind_iff]
  apply (hHolds.ensures_ensureFileBlock hSane hEditing.metadata
    hEditing.blocksAreData.indirect rows.length).mono
  rintro ⟨found, copy⟩ s₁ ⟨V₁, hHolds₁, hEnsured⟩
  cases found with
  | none =>
      simp only [ensures_pure_iff]
      exact ⟨V₁, rows, hHolds₁, .failed hNone hEnsured⟩
  | some block =>
      have hEditing₁ := hEnsured.editing hSane hEditing
      have hBlock := hEnsured.fileBlock_eq hSane hEditing
      have hData : G.IsData block := by
        rw [← hBlock.1]
        exact hEditing₁.blocksAreData _ (by
          change V₁.fileBlock G copy rows.length ≠ 0
          rw [hBlock.1]
          exact hBlock.2)
      simp only [ensures_bind_iff, ensures_get_iff,
        hHolds₁.blockPtr_eq hSane hData]
      rw [hHolds₁.blockSize]
      rw [← Volume.setBlock_self V₁ block] at hHolds₁
      apply (hHolds₁.ensures_storeBlock hSane hData
        (Nat.le_of_eq (Nat.zero_add _)) zeros).mono
      intro _ s₂ hHolds₂
      apply (hHolds₂.ensures_storeBlockField hSane hData
        (by omega) child).mono
      intro _ s₃ hHolds₃
      apply (hHolds₃.ensures_storeBlockField hSane hData
        (by omega) G.blockSize).mono
      intro _ s₄ hHolds₄
      apply (hHolds₄.ensures_storeEntryName hSane hData
        (by omega) fileType).mono
      intro _ s₅ hHolds₅
      -- The inode and the length are stored in this order.
      have hSwap :
          putName
              (putLE (putLE (write (V₁.contents block) 0
                G.blockSize zeros) 0 4 child) 4 2 G.blockSize)
              0 name fileType =
            putEntry
              (putLE (write (V₁.contents block) 0 G.blockSize
                zeros) 4 2 G.blockSize)
              0 child name fileType := by
        unfold putEntry putLE
        rw [write_comm _ (.inl (by omega))]
      rw [hSwap] at hHolds₅
      apply (hHolds₅.ensures_saveSize hSane
        hEditing.allocated.1 copy _).mono
      rintro result final ⟨count, rfl, hFinal⟩
      exact ⟨_, _, hFinal, .appended count hNone hEnsured
        (tiles_soleEntry hSome hChild hShort hType (by omega)
          (by omega))⟩

/- `add_dir_entry` on a directory made of rows. -/
theorem ensures_addDirEntry
    (hSane : Sane G)
    (hHolds : Holds G V s)
    (hEditing : Editing G V number dir)
    (hCatalog : Catalog G V dir rows)
    (hSome : child ≠ 0)
    (hChild : child < 2 ^ 32)
    (hName : name ≠ [])
    (hShort : name.length ≤ nameLen)
    (hType : fileType < 256) :
    Ensures stops (addDirEntry dir number child name fileType)
      s
      fun result final =>
        ∃ V' rows', Holds G V' final ∧
          Inserted G V number dir rows child name fileType
            result V' rows' := by
  have hPos := hSane.blockSize_pos
  have hAccepted :
      ¬ ((!dir.isDir) = true ∨ name.length = 0 ∨
        name.length > nameLen) := by
    rw [hCatalog.kind]
    simp only [Bool.not_true, Bool.false_eq_true,
      List.length_eq_zero_iff, hName, false_or]
    omega
  have hRows : rows.length ≠ 0 := fun hNil =>
    hCatalog.filled (List.length_eq_zero_iff.mp hNil)
  -- A size that is whole blocks does not wrap around.
  have hCount :
      wrap 32 (dir.size + G.blockSize - 1) / G.blockSize =
        rows.length := by
    have hSize := dir.size_lt
    have hBlocks := hCatalog.size
    have hWhole :
        dir.size + G.blockSize ≤ 2 ^ 32 := by
      rcases hSane.blockSize_cases with hCase | hCase | hCase <;>
        · rw [hCase] at hBlocks ⊢
          omega
    rw [wrap_of_lt (by omega), hBlocks, Nat.add_sub_assoc hPos,
      Nat.mul_comm, Nat.mul_add_div hPos,
      Nat.div_eq_of_lt (by omega), Nat.add_zero]
  unfold addDirEntry
  rw [if_neg hAccepted]
  simp only [ensures_bind_iff, ensures_get_iff,
    hHolds.blockSize, divide_of_pos hPos, ensures_lift_iff,
    yields_ok_iff, hCount, if_neg hRows]
  apply (@ensures_addInBlocks _ _ _ _ number _ _ _ _ _ hSane
    hHolds hEditing hCatalog hSome hChild hShort hType [] rows
    rfl _ (Nat.lt_succ_self _)).mono
  rintro ⟨placed, copy⟩ middle
    (⟨hResult, hMiddle, hNone⟩ |
      ⟨V', result, rows', hResult, -, hMiddle, hInserted⟩)
  · cases hResult
    exact hMiddle.ensures_addInNewBlock hSane hEditing hSome
      hChild hShort hType hNone
  · cases hResult
    rw [ensures_pure_iff]
    exact ⟨V', rows', hMiddle, hInserted⟩

end Holds

end Ext2

end Whirliscope

------------------------------------------------------------
-- What an Insertion Keeps
------------------------------------------------------------

namespace Whirliscope

namespace Ext2

open ByteMemory FaultProgram Ownership Records

namespace Inserted

variable {G : Geometry} {V V' : Volume}
variable {number child fileType : Nat} {dir : Inode}
variable {rows rows' : List (List DirRecord)}
variable {name : List UInt8} {result : Bool × Inode}

/- The mapped blocks of the directory before the insertion. -/
theorem catalog
    (hSane : Sane G)
    (hEditing : Editing G V number dir)
    (hDir : V.inodes number = dir)
    (hCatalog : Catalog G V dir rows)
    (hInserted :
      Inserted G V number dir rows child name fileType result
        V' rows') :
    Catalog G V' (V'.inodes number) rows' := by
  cases hInserted with
  | placed count hRows hRow hTiles =>
      rw [Volume.setInode_inodes_self]
      subst hRows
      exact (hCatalog.replace hEditing hTiles).resized count
  | appended count hNone hEnsured hTiles =>
      rw [Volume.setInode_inodes_self]
      have hEditing' := hEnsured.editing hSane hEditing
      have hExtends := hEnsured.extends hSane hEditing
      have hBlock := hEnsured.fileBlock_eq hSane hEditing
      refine Catalog.append hEditing' hExtends.header.mode
        hCatalog (fun index hIndex =>
          hExtends.contents_fileBlock hEditing
            (hCatalog.mapped index hIndex))
        hBlock.1 hBlock.2 hTiles ?_ count
      apply Volume.fileBlock_size_lt hSane
      rw [hBlock.1]
      exact hBlock.2
  | failed hNone hEnsured =>
      have hAbandoned : Abandoned G V number dir V' :=
        ⟨V, dir, hEditing, .refl G V dir, hEnsured.failed⟩
      rw [hAbandoned.inodes_eq, hDir]
      refine hCatalog.congr rfl rfl fun index hIndex => ?_
      have hMapped := hCatalog.mapped index hIndex
      exact ⟨hAbandoned.pointer_eq hMapped,
        hAbandoned.contents_fileBlock hEditing hMapped⟩

theorem touched
    (hSane : Sane G)
    (hEditing : Editing G V number dir)
    (hDir : V.inodes number = dir)
    (hCatalog : Catalog G V dir rows)
    (hInserted :
      Inserted G V number dir rows child name fileType result
        V' rows') :
    Touched G V number V' := by
  cases hInserted with
  | @placed first last row row' bytes count hRows hRow hTiles =>
      have hMapped : V.fileBlock G dir first.length ≠ 0 := by
        apply hCatalog.mapped
        rw [hRows]
        simp
      exact (hEditing.setBlock hMapped bytes).touched
        (hEditing.keepsOthers_setBlock _ bytes)
        (V.setBlock_sameInodes _ bytes).sameModes
        (by rw [hDir]) _ count
  | @appended block copy V₁ bytes count hNone hEnsured hTiles =>
      have hEditing₁ := hEnsured.editing hSane hEditing
      have hExtends := hEnsured.extends hSane hEditing
      have hBlock := hEnsured.fileBlock_eq hSane hEditing
      have hMapped : V₁.fileBlock G copy rows.length ≠ 0 := by
        rw [hBlock.1]
        exact hBlock.2
      rw [← hBlock.1]
      exact (hEditing₁.setBlock hMapped bytes).touched
        ((hExtends.keepsOthers hEditing).trans
          (hEditing₁.keepsOthers_setBlock _ bytes))
        (hExtends.same.sameModes.trans
          (V₁.setBlock_sameInodes _ bytes).sameModes)
        (by rw [hDir]; exact hExtends.header.mode) _ count
  | failed hNone hEnsured =>
      have hAbandoned : Abandoned G V number dir V' :=
        ⟨V, dir, hEditing, .refl G V dir, hEnsured.failed⟩
      refine ⟨hAbandoned.keepsOthers hEditing,
        hAbandoned.sameModes, ?_⟩
      rw [hAbandoned.inodes_eq, hDir]
      exact hAbandoned.editing hEditing

/- The new entry is there besides the old ones. -/
theorem entries_perm
    (hInserted :
      Inserted G V number dir rows child name fileType result
        V' rows')
    (hTrue : result.1 = true) :
    (entries rows'.flatten).Perm
      ((name, child, fileType) :: entries rows.flatten) := by
  cases hInserted with
  | placed count hRows hRow hTiles =>
      rw [hRows, List.flatten_append, List.flatten_append,
        List.flatten_cons, List.flatten_cons]
      exact perm_cons_of_part (entries_insert hRow) _ _
  | appended count hNone hEnsured hTiles =>
      rw [List.flatten_append, entries_append]
      exact List.perm_append_comm
  | failed hNone hEnsured => cases hTrue

/-
  An entry is not added only when no row has room for it and
  the directory gets no further block.
-/
theorem full
    (hInserted :
      Inserted G V number dir rows child name fileType result
        V' rows')
    (hFalse : result.1 = false) :
    rows' = rows ∧
      (∀ row ∈ rows,
        insert neededSize 8 name (child, fileType) row =
          none) ∧
      ∃ copy, Ensured G V dir rows.length (none, copy) V' := by
  cases hInserted with
  | placed => cases hFalse
  | appended => cases hFalse
  | failed hNone hEnsured => exact ⟨rfl, hNone, _, hEnsured⟩

end Inserted

end Ext2

end Whirliscope
