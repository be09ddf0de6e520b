import Mathlib.Data.List.GetD
import Whirliscope.Library.RecordList
import Whirliscope.Fs.Ext2.DirectoryScan

/-
  A directory block as a list of records, and what the stores
  of `add_dir_entry` and `remove_dir_entry` make of the list.

  Key definitions include:
    * `recordAt`, `Tiles`
    * `putEntry`, `placed`

  Main theorems:
    * `Tiles.replace`, `tiles_placed`
    * `tiles_unused`, `tiles_merged`
-/

------------------------------------------------------------
-- The Records of a Block
------------------------------------------------------------

namespace Whirliscope

namespace Ext2

open ByteMemory FaultProgram Records

/- A record with the number and the type of its inode. -/
abbrev DirRecord :=
  Records.Record (List UInt8) (Nat × Nat)

/- The name of the entry at a position. -/
def nameAt
    (bytes : Bytes)
    (pos : Nat) : List UInt8 :=
  (List.range (getLE bytes (pos + 6) 1)).map
    (slice bytes (pos + 8))

/- The record at a position. -/
def recordAt
    (bytes : Bytes)
    (pos : Nat) : DirRecord where
  size := getLE bytes (pos + 4) 2
  entry :=
    if getLE bytes pos 4 = 0 then
      none
    else
      some
        (nameAt bytes pos, getLE bytes pos 4,
          getLE bytes (pos + 7) 1)

/- The bytes that a name needs at least, and those it gets. -/
def leastSize
    (name : List UInt8) : Nat :=
  8 + name.length

def neededSize
    (name : List UInt8) : Nat :=
  (8 + name.length + 3) / 4 * 4

/- The records tile a range of the block. -/
def Tiles
    (bytes : Bytes) :
    Nat → List DirRecord → Nat → Prop
| pos, [], stop => pos = stop
| pos, record :: records, stop =>
    record = recordAt bytes pos ∧
      record.Fits leastSize 8 ∧
      Tiles bytes (pos + record.size) records stop

section

variable {bytes bytes' : Bytes} {pos stop : Nat}
variable {record : DirRecord}
variable {records before after : List DirRecord}

@[simp] theorem length_nameAt
    (bytes : Bytes)
    (pos : Nat) :
    (nameAt bytes pos).length = getLE bytes (pos + 6) 1 := by
  rw [nameAt, List.length_map, List.length_range]

theorem dirEntryMinLen_eq
    {name : List UInt8}
    (hShort : name.length ≤ 255) :
    dirEntryMinLen name.length = neededSize name := by
  unfold dirEntryMinLen neededSize
  exact wrap_of_lt (by omega)

theorem leastSize_le_neededSize
    (name : List UInt8) :
    leastSize name ≤ neededSize name := by
  unfold leastSize neededSize
  omega

theorem eight_le_neededSize
    (name : List UInt8) :
    8 ≤ neededSize name := by
  unfold neededSize
  omega

theorem Tiles.stop_eq
    (hTiles : Tiles bytes pos records stop) :
    stop = pos + total records := by
  induction records generalizing pos with
  | nil => exact (Eq.symm hTiles)
  | cons record records ih =>
      rw [ih hTiles.2.2, total_cons, Nat.add_assoc]

theorem tiles_cons_iff :
    Tiles bytes pos (record :: records) stop ↔
      record = recordAt bytes pos ∧
        record.Fits leastSize 8 ∧
        Tiles bytes (pos + record.size) records stop :=
  Iff.rfl

theorem tiles_append_iff :
    Tiles bytes pos (before ++ after) stop ↔
      Tiles bytes pos before (pos + total before) ∧
        Tiles bytes (pos + total before) after stop := by
  induction before generalizing pos with
  | nil =>
      exact ⟨fun hAfter => ⟨rfl, hAfter⟩, And.right⟩
  | cons record records ih =>
      rw [List.cons_append, total_cons, tiles_cons_iff,
        tiles_cons_iff, ih, Nat.add_assoc, and_assoc,
        and_assoc]

/- A record that fits is read from its own bytes. -/
theorem recordAt_congr
    (hFits : (recordAt bytes pos).Fits leastSize 8)
    (hSame :
      ∀ i, pos ≤ i → i < pos + (recordAt bytes pos).size →
        bytes' i = bytes i) :
    recordAt bytes' pos = recordAt bytes pos := by
  have hLong : 8 ≤ (recordAt bytes pos).size := hFits.1
  have hField :
      ∀ offset width, offset + width ≤ 8 →
        getLE bytes' (pos + offset) width =
          getLE bytes (pos + offset) width := by
    intro offset width hOffset
    apply getLE_congr
    intro i hi
    exact hSame _ (by omega) (by omega)
  have hInode : getLE bytes' pos 4 = getLE bytes pos 4 :=
    hField 0 4 (by decide)
  have hSize := hField 4 2 (by decide)
  have hLength := hField 6 1 (by decide)
  have hType := hField 7 1 (by decide)
  by_cases hUnused : getLE bytes pos 4 = 0
  · unfold recordAt
    rw [hInode, hSize, if_pos hUnused, if_pos hUnused]
  · have hEntry :
        (recordAt bytes pos).entry =
          some
            (nameAt bytes pos, getLE bytes pos 4,
              getLE bytes (pos + 7) 1) :=
      if_neg hUnused
    have hRoom := hFits.2 _ hEntry
    unfold leastSize at hRoom
    rw [length_nameAt] at hRoom
    have hName : nameAt bytes' pos = nameAt bytes pos := by
      unfold nameAt
      rw [hLength]
      apply List.map_congr_left
      intro i hi
      rw [List.mem_range] at hi
      exact hSame (pos + 8 + i) (by omega) (by omega)
    unfold recordAt
    rw [hInode, hSize, hType, hName]

theorem Tiles.congr
    (hTiles : Tiles bytes pos records stop)
    (hSame :
      ∀ i, pos ≤ i → i < stop → bytes' i = bytes i) :
    Tiles bytes' pos records stop := by
  induction records generalizing pos with
  | nil => exact hTiles
  | cons record records ih =>
      have hStop := hTiles.stop_eq
      rw [total_cons] at hStop
      rcases hTiles with ⟨rfl, hFits, hRest⟩
      refine ⟨?_, hFits, ih hRest fun i hLow =>
        hSame i (by omega)⟩
      exact (recordAt_congr hFits fun i hLow hHigh =>
        hSame i hLow (by omega)).symm

/- Other records in the place of one of them. -/
theorem Tiles.replace
    {others : List DirRecord}
    (hTiles : Tiles bytes pos (before ++ (records ++ after)) stop)
    (hOthers :
      Tiles bytes' (pos + total before) others
        (pos + total before + total records))
    (hSame :
      ∀ i, i < pos + total before ∨
          pos + total before + total records ≤ i →
        bytes' i = bytes i) :
    Tiles bytes' pos (before ++ (others ++ after)) stop := by
  rw [tiles_append_iff, tiles_append_iff] at hTiles
  rcases hTiles with ⟨hBefore, hRecords, hAfter⟩
  have hTotal := hOthers.stop_eq
  have hSizes : total others = total records := by omega
  rw [tiles_append_iff, tiles_append_iff, hSizes]
  refine ⟨hBefore.congr fun i _ hHigh =>
      hSame i (.inl hHigh), hOthers,
    hAfter.congr fun i hLow _ => hSame i (.inr hLow)⟩

end

end Ext2

end Whirliscope

------------------------------------------------------------
-- Putting an Entry
------------------------------------------------------------

namespace Whirliscope

namespace Ext2

open ByteMemory FaultProgram Records

/- The stores of a name and its type at a position. -/
def putName
    (bytes : Bytes)
    (pos : Nat)
    (name : List UInt8)
    (fileType : Nat) : Bytes :=
  write
    (putLE (putLE bytes (pos + 6) 1 name.length) (pos + 7) 1
      fileType)
    (pos + 8) name.length (nameBytes name)

/- The stores of a new entry at a position. -/
def putEntry
    (bytes : Bytes)
    (pos child : Nat)
    (name : List UInt8)
    (fileType : Nat) : Bytes :=
  putName (putLE bytes pos 4 child) pos name fileType

/- The stores that put a new entry into a record. -/
def placed
    (bytes : Bytes)
    (pos : Nat)
    (record : DirRecord)
    (child : Nat)
    (name : List UInt8)
    (fileType : Nat) : Bytes :=
  match record.entry with
  | some entry =>
      let actual := neededSize entry.1
      putEntry
        (putLE (putLE bytes (pos + 4) 2 actual)
          (pos + actual + 4) 2 (record.size - actual))
        (pos + actual) child name fileType
  | none => putEntry bytes pos child name fileType

section

variable {bytes bytes' : Bytes} {pos stop child fileType : Nat}
variable {record : DirRecord} {name : List UInt8}

theorem recordAt_size_lt
    (bytes : Bytes)
    (pos : Nat) :
    (recordAt bytes pos).size < 65536 :=
  getLE_lt bytes (pos + 4) 2

theorem putEntry_of_outside
    {i : Nat}
    (hOutside : i < pos ∨ pos + 8 + name.length ≤ i) :
    putEntry bytes pos child name fileType i = bytes i := by
  unfold putEntry putName putLE
  rw [write_of_not_mem (by omega),
    write_of_not_mem (by omega),
    write_of_not_mem (by omega),
    write_of_not_mem (by omega)]

/- A new entry takes the whole record. -/
theorem recordAt_putEntry
    (hSome : child ≠ 0)
    (hChild : child < 2 ^ 32)
    (hShort : name.length ≤ 255)
    (hType : fileType < 256) :
    recordAt (putEntry bytes pos child name fileType) pos =
      { size := getLE bytes (pos + 4) 2
        entry := some (name, child, fileType) } := by
  have hInode :
      getLE (putEntry bytes pos child name fileType) pos 4 =
        child := by
    unfold putEntry putName
    rw [getLE_write_of_disjoint (by omega),
      getLE_putLE_of_disjoint (by omega),
      getLE_putLE_of_disjoint (by omega), getLE_putLE_same]
    exact Nat.mod_eq_of_lt hChild
  have hSize :
      getLE (putEntry bytes pos child name fileType)
        (pos + 4) 2 = getLE bytes (pos + 4) 2 := by
    unfold putEntry putName
    rw [getLE_write_of_disjoint (by omega),
      getLE_putLE_of_disjoint (by omega),
      getLE_putLE_of_disjoint (by omega),
      getLE_putLE_of_disjoint (by omega)]
  have hLength :
      getLE (putEntry bytes pos child name fileType)
        (pos + 6) 1 = name.length := by
    unfold putEntry putName
    rw [getLE_write_of_disjoint (by omega),
      getLE_putLE_of_disjoint (by omega), getLE_putLE_same]
    exact Nat.mod_eq_of_lt (by omega)
  have hKind :
      getLE (putEntry bytes pos child name fileType)
        (pos + 7) 1 = fileType := by
    unfold putEntry putName
    rw [getLE_write_of_disjoint (by omega), getLE_putLE_same]
    exact Nat.mod_eq_of_lt hType
  have hName :
      nameAt (putEntry bytes pos child name fileType) pos =
        name := by
    unfold nameAt
    rw [hLength]
    apply List.ext_getElem
    · rw [List.length_map, List.length_range]
    · intro i _ hIndex
      rw [List.getElem_map, List.getElem_range, slice_apply]
      unfold putEntry putName
      rw [write_of_mem (by omega) (by omega),
        Nat.add_sub_cancel_left]
      exact List.getD_eq_getElem name 0 hIndex
  unfold recordAt
  rw [hInode, hSize, hKind, hName, if_neg hSome]

/- Storing a record length changes the size only. -/
theorem recordAt_putSize
    {size : Nat}
    (hSize : size < 65536) :
    recordAt (putLE bytes (pos + 4) 2 size) pos =
      { recordAt bytes pos with size := size } := by
  have hField :
      ∀ field width, field + width ≤ pos + 4 ∨ pos + 6 ≤ field →
        getLE (putLE bytes (pos + 4) 2 size) field width =
          getLE bytes field width := by
    intro field width hOther
    exact getLE_putLE_of_disjoint (by omega)
  have hName :
      nameAt (putLE bytes (pos + 4) 2 size) pos =
        nameAt bytes pos := by
    unfold nameAt
    rw [hField (pos + 6) 1 (by omega)]
    apply List.map_congr_left
    intro i _
    exact write_of_not_mem (by omega)
  unfold recordAt
  rw [hField pos 4 (by omega), hField (pos + 7) 1 (by omega),
    hName, getLE_putLE_same]
  congr 1
  exact Nat.mod_eq_of_lt hSize

/- Storing no inode leaves the record unused. -/
theorem recordAt_clear
    (bytes : Bytes)
    (pos : Nat) :
    recordAt (putLE bytes pos 4 0) pos =
      { recordAt bytes pos with entry := none } := by
  unfold recordAt
  rw [getLE_putLE_same, getLE_putLE_of_disjoint (by omega),
    if_pos (Nat.zero_mod _)]

theorem placed_of_outside
    (hRoom :
      record.used neededSize 8 + neededSize name ≤ record.size)
    {i : Nat}
    (hOutside : i < pos ∨ pos + record.size ≤ i) :
    placed bytes pos record child name fileType i =
      bytes i := by
  have hLeast := leastSize_le_neededSize name
  unfold leastSize at hLeast
  unfold Record.used at hRoom
  unfold placed
  cases hEntry : record.entry with
  | none =>
      rw [hEntry] at hRoom
      dsimp only at hRoom ⊢
      exact putEntry_of_outside (by omega)
  | some entry =>
      rw [hEntry] at hRoom
      dsimp only at hRoom ⊢
      have hOld := eight_le_neededSize entry.1
      rw [putEntry_of_outside (by omega)]
      unfold putLE
      rw [write_of_not_mem (by omega),
        write_of_not_mem (by omega)]

/- The records that the stores of a new entry leave. -/
theorem tiles_placed
    (hSome : child ≠ 0)
    (hChild : child < 2 ^ 32)
    (hShort : name.length ≤ 255)
    (hType : fileType < 256)
    (hRecord : record = recordAt bytes pos)
    (hFits : record.Fits leastSize 8)
    (hRoom :
      record.used neededSize 8 + neededSize name ≤
        record.size) :
    Tiles (placed bytes pos record child name fileType) pos
      (record.place neededSize name (child, fileType))
      (pos + record.size) := by
  have hLess : record.size < 65536 := by
    rw [hRecord]
    exact recordAt_size_lt bytes pos
  have hPlaced :=
    @fits_place _ _ neededSize leastSize 8 record name
      (child, fileType) leastSize_le_neededSize
      eight_le_neededSize hFits hRoom
  unfold Record.used at hRoom
  unfold Record.place at hPlaced ⊢
  unfold placed
  cases hEntry : record.entry with
  | none =>
      simp only [hEntry] at hPlaced ⊢
      refine ⟨?_, hPlaced _ List.mem_cons_self, rfl⟩
      rw [recordAt_putEntry hSome hChild hShort hType, hRecord]
      rfl
  | some entry =>
      simp only [hEntry] at hRoom hPlaced ⊢
      have hNeeded := eight_le_neededSize entry.1
      have hSizes :
          neededSize entry.1 + (record.size -
            neededSize entry.1) = record.size := by
        omega
      have hCut :
          recordAt (putLE bytes (pos + 4) 2
              (neededSize entry.1)) pos =
            { size := neededSize entry.1
              entry := some entry } := by
        rw [recordAt_putSize (by omega), ← hRecord, ← hEntry]
      have hFirst := hPlaced _ List.mem_cons_self
      have hSecond :=
        hPlaced _ (List.mem_cons_of_mem _ List.mem_cons_self)
      refine ⟨?_, hFirst, ?_, hSecond, ?_⟩
      · rw [recordAt_congr (by rw [hCut]; exact hFirst), hCut]
        intro i hLow hHigh
        rw [hCut] at hHigh
        dsimp only at hHigh
        rw [putEntry_of_outside (by omega)]
        exact write_of_not_mem (by omega)
      · rw [recordAt_putEntry hSome hChild hShort hType,
          getLE_putLE_same]
        congr 1
        exact (Nat.mod_eq_of_lt (by omega)).symm
      · change pos + neededSize entry.1 +
            (record.size - neededSize entry.1) =
          pos + record.size
        omega

end

end Ext2

end Whirliscope

------------------------------------------------------------
-- Taking an Entry Out
------------------------------------------------------------

namespace Whirliscope

namespace Ext2

open ByteMemory FaultProgram Records

section

variable {bytes : Bytes} {pos size : Nat}
variable {previous record : DirRecord}

/- The record without its inode. -/
theorem tiles_unused
    (hRecord : record = recordAt bytes pos)
    (hFits : record.Fits leastSize 8) :
    Tiles (putLE bytes pos 4 0) pos
      [{ record with entry := none }]
      (pos + record.size) := by
  refine ⟨?_, ⟨hFits.1, fun _ hNever => ?_⟩, rfl⟩
  · rw [recordAt_clear, hRecord]
  · cases hNever

/- A record with the size of the one after it. -/
theorem tiles_merged
    (hPrevious : previous = recordAt bytes pos)
    (hFits : previous.Fits leastSize 8)
    (hSize : previous.size + size < 65536) :
    Tiles (putLE bytes (pos + 4) 2 (previous.size + size)) pos
      [{ previous with size := previous.size + size }]
      (pos + (previous.size + size)) := by
  refine ⟨?_, ⟨Nat.le_add_right_of_le hFits.1,
    fun entry hEntry =>
      Nat.le_add_right_of_le (hFits.2 entry hEntry)⟩, rfl⟩
  rw [recordAt_putSize hSize, ← hPrevious]

end

end Ext2

end Whirliscope
