import Whirliscope.Fs.Ext2.DirectoryEdits

/-
  Removing an entry from a directory. Its record goes to the
  last record in use before it, or it becomes unused. This is
  a removal when no unused record lies in between.

  Key definitions include:
    * `LastInUse`
    * `Removed`

  Main theorems:
    * `Holds.ensures_removeInRow`
    * `Holds.ensures_removeDirEntry`
-/

------------------------------------------------------------
-- Removing from a Row
------------------------------------------------------------

namespace Whirliscope

namespace Ext2

open ByteMemory FaultProgram Records

/- Where the last record in use of a row begins. -/
inductive LastInUse
    (before : List DirRecord) : Option Nat → Prop
| unused
    (hUnused : ∀ record ∈ before, record.entry = none) :
    LastInUse before none
| inUse
    {first unused : List DirRecord}
    {record : DirRecord}
    (hBefore : before = first ++ record :: unused)
    (hInUse : record.entry ≠ none)
    (hUnused : ∀ other ∈ unused, other.entry = none) :
    LastInUse before (some (total first))

/- The store that takes a record out. -/
def unlinked
    (bytes : Bytes)
    (pos size : Nat) : Option Nat → Bytes
| some previous =>
    putLE bytes (previous + 4) 2
      (getLE bytes (previous + 4) 2 + size)
| none => putLE bytes pos 4 0

section

variable {before after row : List DirRecord}
variable {record : DirRecord} {previous : Option Nat}
variable {name : List UInt8} {value : Nat × Nat}
variable {bytes : Bytes} {stop : Nat}

theorem LastInUse.skip
    (hLast : LastInUse before previous)
    (hEntry : record.entry = none) :
    LastInUse (before ++ [record]) previous := by
  cases hLast with
  | unused hUnused =>
      refine .unused fun other hMem => ?_
      rw [List.mem_append, List.mem_singleton] at hMem
      rcases hMem with hOld | rfl
      · exact hUnused other hOld
      · exact hEntry
  | @inUse first unused last hBefore hInUse hUnused =>
      refine @LastInUse.inUse _ first (unused ++ [record]) last
        ?_ hInUse fun other hMem => ?_
      · rw [hBefore, List.append_assoc, List.cons_append]
      · rw [List.mem_append, List.mem_singleton] at hMem
        rcases hMem with hOld | rfl
        · exact hUnused other hOld
        · exact hEntry

theorem LastInUse.next
    (hEntry : record.entry ≠ none) :
    LastInUse (before ++ [record]) (some (total before)) :=
  .inUse rfl hEntry fun _ hNever =>
    absurd hNever List.not_mem_nil

/-
  The store at the first record with a name, when no unused
  record lies before it and after a record in use.
-/
theorem tiles_unlinked
    (hRow : Tiles bytes 0 (before ++ record :: after) stop)
    (hLast : LastInUse before previous)
    (hFree : name ∉ keys before)
    (hEntry : record.entry = some (name, value))
    (hMergeable :
      Mergeable name (before ++ record :: after))
    (hStop : stop < 65536) :
    ∃ row',
      Removal name value (before ++ record :: after) row' ∧
        Tiles
          (unlinked bytes (total before) record.size previous)
          0 row' stop := by
  have hTotal := hRow.stop_eq
  rw [total_append, total_cons] at hTotal
  unfold Mergeable at hMergeable
  rw [beforeKey_eq hFree hEntry] at hMergeable
  cases hLast with
  | unused hUnused =>
      refine ⟨_, .unused hEntry, ?_⟩
      have hRecord := (tiles_append_iff.mp hRow).2
      rw [Nat.zero_add] at hRecord
      have hOthers :=
        tiles_unused hRecord.1 hRecord.2.1
      have hSplit :
          Tiles (putLE bytes (total before) 4 0) 0
            (before ++
              ([{ record with entry := none }] ++ after))
            stop := by
        apply @Tiles.replace _ _ _ _ [record] before after _
          hRow
        · rw [Nat.zero_add]
          exact hOthers
        · intro i hOutside
          have hLong := hRecord.2.1.1
          rw [Nat.zero_add, total_cons, total_nil] at hOutside
          exact write_of_not_mem (by omega)
      exact hSplit
  | @inUse first unused last hBefore hInUse hUnused =>
      have hAdjacent : unused = [] := by
        rcases hMergeable with hAll | ⟨final, hFinal, hLive⟩
        · exact absurd (hAll last (by rw [hBefore]; simp))
            hInUse
        · rcases List.eq_nil_or_concat unused with
            hNil | ⟨rest, other, hConcat⟩
          · exact hNil
          · rw [hBefore, hConcat, List.concat_eq_append,
              ← List.cons_append, ← List.append_assoc,
              List.getLast?_concat, Option.mem_def,
              Option.some.injEq] at hFinal
            subst hFinal
            exact absurd (hUnused other (by
              rw [hConcat, List.concat_eq_append]
              simp)) hLive
      subst hAdjacent
      subst hBefore
      have hSplit :
          first ++ [last] ++ record :: after =
            first ++ ([last, record] ++ after) := by
        rw [List.append_assoc]
        rfl
      rw [hSplit] at hRow
      refine ⟨first ++
        { last with size := last.size + record.size } :: after,
        ?_, ?_⟩
      · rw [hSplit]
        exact .merged hEntry
      have hPair := (tiles_append_iff.mp hRow).2
      rw [Nat.zero_add] at hPair
      have hSize :
          getLE bytes (total first + 4) 2 = last.size := by
        rw [hPair.1]
        rfl
      rw [total_append, total_cons, total_nil] at hTotal
      have hMerged :=
        tiles_merged hPair.1 hPair.2.1
          (by omega : last.size + record.size < 65536)
      unfold unlinked
      dsimp only
      rw [hSize]
      have hTiles :
          Tiles
            (putLE bytes (total first + 4) 2
              (last.size + record.size))
            0
            (first ++
              ([{ last with
                  size := last.size + record.size }] ++
                after))
            stop := by
        apply @Tiles.replace _ _ _ _ [last, record] first after
          _ hRow
        · rw [Nat.zero_add, total_cons, total_cons, total_nil,
            Nat.add_zero]
          exact hMerged
        · intro i hOutside
          have hLong := hPair.2.1.1
          rw [Nat.zero_add, total_cons, total_cons, total_nil]
            at hOutside
          exact write_of_not_mem (by omega)
      exact hTiles

end

namespace Holds

variable {G : Geometry} {V : Volume} {s : State}
variable {stops : Fault → Prop} {block number : Nat}
variable {dir : Inode} {name : List UInt8}

/- Comparing the name of an entry in a block. -/
theorem namesEqual_block
    (hSane : Sane G)
    (hHolds : Holds G V s)
    (hData : G.IsData block)
    {pos : Nat}
    (hRange :
      pos + 8 + getLE (V.contents block) (pos + 6) 1 ≤
        G.blockSize)
    (name : List UInt8) :
    (s.view (G.blockPointer block)).namesEqual pos name =
      .ok (decide (nameAt (V.contents block) pos = name)) := by
  have hInside : (G.blockPointer block).InImage s := by
    have hBlock := hHolds.blockInImage hSane hData
    unfold BlockInImage at hBlock
    rw [hHolds.blockSize, Nat.add_mul, Nat.one_mul] at hBlock
    exact hBlock
  have hLength :=
    @load_block _ _ _ _ hSane hHolds hData (pos + 6) 1
      (by omega)
  have hEnds :
      ∃ same,
        (s.view (G.blockPointer block)).namesEqual pos name =
          .ok same := by
    unfold View.namesEqual View.entryNameLen
    rw [hLength]
    simp only [bind, Except.bind]
    split_ifs with hDiffers
    · exact ⟨false, rfl⟩
    · apply View.matchesBytes_ok
      rw [view_extent hInside]
      change pos + 8 + name.length ≤ G.blockSize
      omega
  have hName :
      Record.name (s.view (G.blockPointer block), pos) =
        nameAt (V.contents block) pos := by
    have hField := View.load_eq_ok hLength
    unfold Record.name Record.nameLength nameAt
    dsimp only
    rw [hField]
    apply List.map_congr_left
    intro i hi
    rw [List.mem_range] at hi
    exact hHolds.cells (.data block) hData (pos + 8 + i)
      (by omega)
  rcases hEnds with ⟨same, hSame⟩
  have hIff :=
    @View.namesEqual_eq_ok
      (s.view (G.blockPointer block), pos) name same hSame
  rw [hName] at hIff
  rw [hSame, Except.ok.injEq]
  by_cases hEqual : nameAt (V.contents block) pos = name
  · rw [hIff.mpr hEqual, decide_eq_true hEqual]
  · rw [decide_eq_false hEqual]
    exact Bool.eq_false_iff.mpr fun hTrue =>
      hEqual (hIff.mp hTrue)

/- One record of the search for a name. -/
theorem ensures_removeAtRecord
    (hSane : Sane G)
    (hHolds : Holds G V s)
    (hData : G.IsData block)
    (hInode : G.HasInode number)
    (hDir : V.inodes number = dir)
    {pos : Nat}
    {record : DirRecord}
    {previous : Option Nat}
    (hRecord : record = recordAt (V.contents block) pos)
    (hFits : record.Fits leastSize 8)
    (hInside : pos + record.size ≤ G.blockSize)
    (hPrevious : ∀ place, previous = some place → place < pos)
    (name : List UInt8) :
    Ensures stops
      (removeAtRecord dir number (G.blockPointer block) name
        (pos, previous))
      s
      fun step final =>
        record.entry = none ∧
            step = .inl (pos + record.size, previous) ∧
            Holds G V final ∨
          (∃ entry, record.entry = some entry ∧
            entry.1 ≠ name ∧
            step = .inl (pos + record.size, some pos) ∧
            Holds G V final) ∨
          ∃ value, record.entry = some (name, value) ∧
            step = .inr (some (some value.1)) ∧
            Holds G
              (V.setBlock block
                (unlinked (V.contents block) pos record.size
                  previous))
              final := by
  have hLong := hFits.1
  have hSize :
      getLE (V.contents block) (pos + 4) 2 = record.size := by
    rw [hRecord]
    rfl
  have hMore : ¬ pos + dirEntrySize > G.blockSize := by
    unfold dirEntrySize
    omega
  have hAccepted :
      ¬ (record.size < 8 ∨
        pos + record.size > G.blockSize) := by
    omega
  unfold removeAtRecord
  simp only [ensures_bind_iff, ensures_get_iff,
    hHolds.blockSize, if_neg hMore, View.entryRecLen,
    View.entryInode]
  rw [hHolds.load_block hSane hData (by omega),
    hHolds.load_block hSane hData (by omega)]
  simp only [ensures_lift_iff, yields_ok_iff, hSize,
    if_neg hAccepted, ensures_bind_iff]
  by_cases hUnused : getLE (V.contents block) pos 4 = 0
  · have hEntry : record.entry = none := by
      rw [hRecord]
      exact if_pos hUnused
    rw [if_pos hUnused, ensures_pure_iff]
    exact .inl ⟨hEntry, rfl, hHolds⟩
  have hEntry :
      record.entry =
        some
          (nameAt (V.contents block) pos,
            getLE (V.contents block) pos 4,
            getLE (V.contents block) (pos + 7) 1) := by
    rw [hRecord]
    exact if_neg hUnused
  have hLeast := hFits.2 _ hEntry
  unfold leastSize at hLeast
  rw [length_nameAt] at hLeast
  rw [if_neg hUnused, ensures_bind_iff,
    hHolds.namesEqual_block hSane hData (by omega),
    ensures_lift_iff, yields_ok_iff]
  by_cases hName : nameAt (V.contents block) pos = name
  swap
  · rw [decide_eq_false hName, Bool.not_false, if_pos rfl,
      ensures_pure_iff]
    exact .inr (.inl ⟨_, hEntry, hName, rfl, hHolds⟩)
  simp only [hName, decide_true, Bool.not_true,
    Bool.false_eq_true, if_false]
  have hWritten :
      ∀ middle,
        Holds G
          (V.setBlock block
            (unlinked (V.contents block) pos record.size
              previous))
          middle →
        Ensures stops
          (do
            if ← writeInode number dir then
              return .inr
                (some (some (getLE (V.contents block) pos 4)))
            return .inr (some none))
          middle
          fun (step : (Nat × Option Nat) ⊕ Option (Option Nat))
              final =>
            step =
                .inr (some (some
                  (getLE (V.contents block) pos 4))) ∧
              Holds G
                (V.setBlock block
                  (unlinked (V.contents block) pos record.size
                    previous))
                final := by
    intro middle hMiddle
    rw [ensures_bind_iff]
    apply (hMiddle.ensures_writeInode hSane hInode dir).mono
    rintro written final ⟨rfl, hFinal⟩
    rw [if_pos rfl, ensures_pure_iff]
    refine ⟨rfl, ?_⟩
    have hSame :
        Function.update V.inodes number dir = V.inodes := by
      rw [← hDir]
      exact Function.update_eq_self _ _
    change Holds G
      { V.setBlock block _ with
        inodes := Function.update V.inodes number dir }
      final at hFinal
    rw [hSame] at hFinal
    exact hFinal
  cases previous with
  | none =>
      rw [ensures_bind_iff]
      rw [← Volume.setBlock_self V block] at hHolds
      apply (hHolds.ensures_storeBlockField hSane hData
        (by omega) 0).mono
      intro _ middle hMiddle
      apply (hWritten middle hMiddle).mono
      rintro step final ⟨rfl, hFinal⟩
      exact .inr (.inr ⟨_, hName ▸ hEntry, rfl, hFinal⟩)
  | some place =>
      have hPlace := hPrevious place rfl
      rw [ensures_bind_iff,
        hHolds.load_block hSane hData (by omega),
        ensures_lift_iff, yields_ok_iff, ensures_bind_iff]
      rw [← Volume.setBlock_self V block] at hHolds
      apply (hHolds.ensures_storeBlockField hSane hData
        (by omega) _).mono
      intro _ middle hMiddle
      apply (hWritten middle hMiddle).mono
      rintro step final ⟨rfl, hFinal⟩
      exact .inr (.inr ⟨_, hName ▸ hEntry, rfl, hFinal⟩)

/-
  The search for a name from a record of a block on, by
  induction on the records that are left.
-/
theorem ensures_removeInRow
    (hSane : Sane G)
    (hHolds : Holds G V s)
    (hData : G.IsData block)
    (hInode : G.HasInode number)
    (hDir : V.inodes number = dir)
    {row before rest : List DirRecord}
    (hRow : Tiles (V.contents block) 0 row G.blockSize)
    (hMergeable : name ∈ keys row → Mergeable name row)
    (hSplit : row = before ++ rest)
    {previous : Option Nat}
    (hLast : LastInUse before previous)
    (hFree : name ∉ keys before)
    {fuel : Nat}
    (hFuel : rest.length < fuel) :
    Ensures stops
      (loop (throw .noReturn)
        (removeAtRecord dir number (G.blockPointer block) name)
        fuel (total before, previous))
      s
      fun found final =>
        found = none ∧ Holds G V final ∧ name ∉ keys row ∨
          ∃ value row' bytes,
            found = some (some value.1) ∧
              Removal name value row row' ∧
              Tiles bytes 0 row' G.blockSize ∧
              Holds G (V.setBlock block bytes) final := by
  have hBlockSize : G.blockSize < 65536 := by
    rcases hSane.blockSize_cases with hOne | hTwo | hFour <;>
      omega
  induction rest generalizing before previous fuel s with
  | nil =>
      rcases fuel with - | fuel
      · exact absurd hFuel (Nat.not_lt_zero _)
      rw [List.append_nil] at hSplit
      subst hSplit
      have hStop := hRow.stop_eq
      rw [Nat.zero_add] at hStop
      have hEnd : total row + dirEntrySize > G.blockSize := by
        rw [hStop]
        exact Nat.lt_add_of_pos_right (by decide)
      rw [loop, removeAtRecord, ensures_bind_iff,
        ensures_bind_iff, ensures_get_iff, hHolds.blockSize,
        if_pos hEnd, ensures_pure_iff, ensures_pure_iff]
      exact .inl ⟨rfl, hHolds, hFree⟩
  | cons record rest ih =>
      rcases fuel with - | fuel
      · exact absurd hFuel (Nat.not_lt_zero _)
      subst hSplit
      have hHere := tiles_append_iff.mp hRow
      rw [Nat.zero_add] at hHere
      have hStop := hHere.2.stop_eq
      rw [total_cons] at hStop
      have hPrevious :
          ∀ place, previous = some place →
            place < total before := by
        rintro place rfl
        cases hLast with
        | @inUse first unused last hBefore hInUse hUnused =>
            have hFits := hHere.1.fits last (by
              rw [hBefore]
              simp)
            have hLong := hFits.1
            rw [hBefore, total_append, total_cons]
            omega
      have hNext :
          total (before ++ [record]) =
            total before + record.size := by
        rw [total_append, total_cons, total_nil, Nat.add_zero]
      rw [loop, ensures_bind_iff]
      apply (hHolds.ensures_removeAtRecord hSane hData hInode
        hDir hHere.2.1 hHere.2.2.1 (by omega) hPrevious
        name).mono
      rintro step middle
        (⟨hEntry, rfl, hMiddle⟩ |
          ⟨entry, hEntry, hName, rfl, hMiddle⟩ |
          ⟨value, hEntry, rfl, hFinal⟩)
      · have hFree' : name ∉ keys (before ++ [record]) := by
          unfold keys at hFree ⊢
          rw [entries_append, entries_cons, hEntry]
          simpa [entries] using hFree
        have hRest :=
          @ih middle hMiddle (before ++ [record])
            (by rw [List.append_assoc]; rfl) previous
            (hLast.skip hEntry) hFree' fuel
            (Nat.lt_of_succ_lt_succ hFuel)
        rw [hNext] at hRest
        exact hRest
      · have hFree' : name ∉ keys (before ++ [record]) := by
          unfold keys at hFree ⊢
          rw [entries_append, entries_cons, hEntry,
            List.map_append, List.mem_append]
          rintro (hOld | hNew)
          · exact hFree hOld
          · have hSame : name = entry.1 := by
              simpa [entries] using hNew
            exact hName hSame.symm
        have hRest :=
          @ih middle hMiddle (before ++ [record])
            (by rw [List.append_assoc]; rfl)
            (some (total before))
            (LastInUse.next (by
              rw [hEntry]
              exact Option.some_ne_none _))
            hFree' fuel (Nat.lt_of_succ_lt_succ hFuel)
        rw [hNext] at hRest
        exact hRest
      · rw [ensures_pure_iff]
        have hKey : name ∈ keys (before ++ record :: rest) := by
          unfold keys
          rw [entries_append, entries_cons, hEntry]
          simp
        rcases tiles_unlinked hRow hLast hFree hEntry
            (hMergeable hKey) hBlockSize with
          ⟨row', hRemoval, hTiles⟩
        exact .inr ⟨value, row', _, rfl, hRemoval, hTiles,
          hFinal⟩

end Holds

end Ext2

end Whirliscope

------------------------------------------------------------
-- Removing from a Directory
------------------------------------------------------------

namespace Whirliscope

namespace Ext2

open ByteMemory FaultProgram Records

/-
  All that `remove_dir_entry` can do to a directory: an entry
  is taken out of a row, or no row has the name.
-/
inductive Removed
    (G : Geometry)
    (V : Volume)
    (dir : Inode)
    (rows : List (List DirRecord))
    (name : List UInt8) :
    Option Nat → Volume → List (List DirRecord) → Prop
| taken
    {first last : List (List DirRecord)}
    {row row' : List DirRecord}
    {value : Nat × Nat}
    {bytes : Bytes}
    (hRows : rows = first ++ row :: last)
    (hRow : Removal name value row row')
    (hTiles : Tiles bytes 0 row' G.blockSize) :
    Removed G V dir rows name (some value.1)
      (V.setBlock (V.fileBlock G dir first.length) bytes)
      (first ++ row' :: last)
| missing
    (hFree : name ∉ keys rows.flatten) :
    Removed G V dir rows name none V rows

namespace Holds

variable {G : Geometry} {V : Volume} {s : State}
variable {stops : Fault → Prop} {number : Nat}
variable {dir : Inode} {rows : List (List DirRecord)}
variable {name : List UInt8}

/- One block of the search for a name. -/
theorem ensures_removeInBlock
    (hSane : Sane G)
    (hHolds : Holds G V s)
    (hEditing : Editing G V number dir)
    (hDir : V.inodes number = dir)
    (hCatalog : Catalog G V dir rows)
    {index : Nat}
    {row : List DirRecord}
    (hRow : rows[index]? = some row)
    (hMergeable : name ∈ keys row → Mergeable name row) :
    Ensures stops
      (removeInBlock dir number name (index * G.blockSize)) s
      fun step final =>
        step = .inl ((index + 1) * G.blockSize) ∧
            Holds G V final ∧ name ∉ keys row ∨
          ∃ value row' bytes,
            step = .inr (some value.1) ∧
              Removal name value row row' ∧
              Tiles bytes 0 row' G.blockSize ∧
              Holds G
                (V.setBlock (V.fileBlock G dir index) bytes)
                final := by
  have hPos := hSane.blockSize_pos
  have hIndex : index < rows.length :=
    (List.getElem?_eq_some_iff.mp hRow).1
  have hMapped := hCatalog.mapped index hIndex
  have hData : G.IsData (V.fileBlock G dir index) :=
    hEditing.blocksAreData _ hMapped
  have hTiles := hCatalog.tiled index row hRow
  have hMore : ¬ index * G.blockSize ≥ dir.size := by
    rw [hCatalog.size]
    exact Nat.not_le_of_lt
      (Nat.mul_lt_mul_of_pos_right hIndex hPos)
  have hSmall : index < 2 ^ 32 := by
    have hLess := Volume.fileBlock_size_lt hSane hMapped
    have hMany := Nat.le_mul_of_pos_right (index + 1) hPos
    omega
  have hFuel : row.length < G.blockSize + 1 := by
    have hFew := length_le_total hTiles.fits
    have hStop := hTiles.stop_eq
    omega
  have hFirst : LastInUse [] none :=
    .unused fun _ hNever => absurd hNever List.not_mem_nil
  unfold removeInBlock
  simp only [ensures_bind_iff, ensures_get_iff, if_neg hMore,
    hHolds.blockSize, divide_of_pos hPos,
    Nat.mul_div_cancel _ hPos, ensures_lift_iff, yields_ok_iff,
    wrap_of_lt hSmall,
    hHolds.blockIdAt_eq hSane hEditing.blocksAreData.indirect,
    if_neg hMapped]
  have hPointer := hHolds.blockPtr_eq hSane hData
  rw [hHolds.blockSize] at hPointer
  simp only [hPointer, ensures_bind_iff]
  apply (@ensures_removeInRow _ _ _ _ _ _ _ name hSane hHolds
    hData hEditing.allocated.1 hDir row [] row hTiles hMergeable
    rfl none hFirst List.not_mem_nil _ hFuel).mono
  rintro found final
    (⟨rfl, hFinal, hFree⟩ |
      ⟨value, row', bytes, rfl, hRow', hTiles', hFinal⟩)
  · rw [ensures_pure_iff, Nat.succ_mul]
    exact .inl ⟨rfl, hFinal, hFree⟩
  · rw [ensures_pure_iff]
    exact .inr ⟨value, row', bytes, rfl, hRow', hTiles',
      hFinal⟩

/- The blocks from one of them on. -/
theorem ensures_removeInBlocks
    (hSane : Sane G)
    (hHolds : Holds G V s)
    (hEditing : Editing G V number dir)
    (hDir : V.inodes number = dir)
    (hCatalog : Catalog G V dir rows)
    (hMergeable :
      ∀ row ∈ rows, name ∈ keys row → Mergeable name row)
    {first rest : List (List DirRecord)}
    (hRows : rows = first ++ rest)
    (hFree : name ∉ keys first.flatten)
    {fuel : Nat}
    (hFuel : rest.length < fuel) :
    Ensures stops
      (loop (throw .noReturn) (removeInBlock dir number name)
        fuel (first.length * G.blockSize))
      s
      fun result final =>
        ∃ V' rows', Holds G V' final ∧
          Removed G V dir rows name result V' rows' := by
  induction rest generalizing first fuel s with
  | nil =>
      rcases fuel with - | fuel
      · exact absurd hFuel (Nat.not_lt_zero _)
      rw [List.append_nil] at hRows
      subst hRows
      have hEnd : rows.length * G.blockSize ≥ dir.size := by
        rw [hCatalog.size]
      rw [loop, removeInBlock, ensures_bind_iff,
        ensures_bind_iff, ensures_get_iff, if_pos hEnd,
        ensures_pure_iff, ensures_pure_iff]
      exact ⟨V, rows, hHolds, .missing hFree⟩
  | cons row rest ih =>
      rcases fuel with - | fuel
      · exact absurd hFuel (Nat.not_lt_zero _)
      have hRow : rows[first.length]? = some row := by
        rw [hRows, List.getElem?_append_right (Nat.le_refl _),
          Nat.sub_self, List.getElem?_cons_zero]
      rw [loop, ensures_bind_iff]
      apply (hHolds.ensures_removeInBlock hSane hEditing hDir
        hCatalog hRow
        (hMergeable row (by rw [hRows]; simp))).mono
      rintro step middle
        (⟨rfl, hMiddle, hNone⟩ |
          ⟨value, row', bytes, rfl, hRow', hTiles, hFinal⟩)
      · have hFree' :
            name ∉ keys (first ++ [row]).flatten := by
          unfold keys at hFree hNone ⊢
          rw [List.flatten_append, List.flatten_singleton,
            entries_append, List.map_append, List.mem_append]
          exact not_or.mpr ⟨hFree, hNone⟩
        have hRest :=
          @ih middle hMiddle (first ++ [row])
            (by rw [hRows, List.append_assoc]; rfl) hFree' fuel
            (Nat.lt_of_succ_lt_succ hFuel)
        rw [List.length_append, List.length_singleton] at hRest
        exact hRest
      · rw [ensures_pure_iff]
        exact ⟨_, _, hFinal, .taken hRows hRow' hTiles⟩

/- `remove_dir_entry` on a directory made of rows. -/
theorem ensures_removeDirEntry
    (hSane : Sane G)
    (hHolds : Holds G V s)
    (hEditing : Editing G V number dir)
    (hDir : V.inodes number = dir)
    (hCatalog : Catalog G V dir rows)
    (hMergeable :
      ∀ row ∈ rows, name ∈ keys row → Mergeable name row)
    (hName : name ≠ [])
    (hShort : name.length ≤ nameLen) :
    Ensures stops (removeDirEntry dir number name) s
      fun result final =>
        ∃ V' rows', Holds G V' final ∧
          Removed G V dir rows name result V' rows' := by
  have hAccepted :
      ¬ ((!dir.isDir) = true ∨ name.length = 0 ∨
        name.length > nameLen) := by
    rw [hCatalog.kind]
    simp only [Bool.not_true, Bool.false_eq_true,
      List.length_eq_zero_iff, hName, false_or]
    omega
  have hFuel : rows.length < dir.size + 1 := by
    have hMany :=
      Nat.le_mul_of_pos_right rows.length hSane.blockSize_pos
    rw [hCatalog.size]
    omega
  have hLoop :=
    @ensures_removeInBlocks G V s stops number dir rows name
      hSane hHolds hEditing hDir hCatalog hMergeable [] rows rfl
      List.not_mem_nil _ hFuel
  rw [List.length_nil, Nat.zero_mul] at hLoop
  unfold removeDirEntry
  rw [if_neg hAccepted]
  exact hLoop

end Holds

namespace Removed

variable {G : Geometry} {V V' : Volume} {number : Nat}
variable {dir : Inode} {rows rows' : List (List DirRecord)}
variable {name : List UInt8} {result : Option Nat}

theorem catalog
    (hEditing : Editing G V number dir)
    (hDir : V.inodes number = dir)
    (hCatalog : Catalog G V dir rows)
    (hRemoved : Removed G V dir rows name result V' rows') :
    Catalog G V' (V'.inodes number) rows' := by
  cases hRemoved with
  | @taken first last row row' value bytes hRows hRow hTiles =>
      change Catalog G _ (V.inodes number) _
      rw [hDir]
      subst hRows
      exact hCatalog.replace hEditing hTiles
  | missing hFree =>
      rw [hDir]
      exact hCatalog

theorem touched
    (hEditing : Editing G V number dir)
    (hDir : V.inodes number = dir)
    (hCatalog : Catalog G V dir rows)
    (hRemoved : Removed G V dir rows name result V' rows') :
    Touched G V number V' := by
  cases hRemoved with
  | @taken first last row row' value bytes hRows hRow hTiles =>
      have hMapped : V.fileBlock G dir first.length ≠ 0 := by
        apply hCatalog.mapped
        rw [hRows]
        simp
      refine ⟨hEditing.keepsOthers_setBlock _ bytes,
        (V.setBlock_sameInodes _ bytes).sameModes, ?_⟩
      change Editing G _ number (V.inodes number)
      rw [hDir]
      exact hEditing.setBlock hMapped bytes
  | missing hFree =>
      refine ⟨.refl G V number, .refl V, ?_⟩
      rw [hDir]
      exact hEditing

/- The entry was there besides the entries that are left. -/
theorem entries_perm
    {inode : Nat}
    (hRemoved :
      Removed G V dir rows name (some inode) V' rows') :
    ∃ fileType,
      (entries rows.flatten).Perm
        ((name, inode, fileType) :: entries rows'.flatten) := by
  cases hRemoved with
  | @taken first last row row' value bytes hRows hRow hTiles =>
      refine ⟨value.2, ?_⟩
      rw [hRows, List.flatten_append, List.flatten_append,
        List.flatten_cons, List.flatten_cons]
      exact perm_cons_of_part hRow.entries_perm _ _

theorem rows_eq
    (hRemoved : Removed G V dir rows name none V' rows') :
    name ∉ keys rows.flatten ∧ rows' = rows := by
  cases hRemoved with
  | missing hFree => exact ⟨hFree, rfl⟩

end Removed

end Ext2

end Whirliscope
