import Whirliscope.Library.Components
import Whirliscope.Fs.Ext2.Directory

/-
  The records that a scan of a directory comes to.

  Every reader of a directory walks the same records in the
  same order; only what it does at a record differs.

  Key definitions include:
    * `directoryRecords`
    * `Record.Named`, `Record.HasRoom`

  Main theorems:
    * `scanDirectory_eq`
    * `findInDir_of_named`
    * `findInDir_eq`
-/

------------------------------------------------------------
-- Walking the Records of a Directory
------------------------------------------------------------

namespace Whirliscope

namespace Ext2

open ByteMemory FaultProgram Components

/- How the scan of a directory can end. -/
inductive ScanEnd where
| unreadable
| broken
| finished
deriving DecidableEq, Repr

/- What a reader returns at the end of a scan. -/
def ScanEnd.exit
    {β γ : Type}
    (unreadable broken finished : β → γ) :
    ScanEnd → β → γ
| .unreadable => unreadable
| .broken => broken
| .finished => finished

/- A record as its reader sees it, and its position. -/
abbrev Record :=
  View × Nat

/- Note a record and go on. -/
def noteRecord
    (view : View)
    (records : List Record)
    (pos : Nat) :
    Except Fault
      (List Record ⊕ List Record × ScanEnd) :=
  .ok (.inl (records ++ [(view, pos)]))

/- The records that a scan comes to, and how it ends. -/
def directoryRecords
    (s : State)
    (dir : Inode) :
    Except Fault (List Record × ScanEnd) :=
  scanDirectory s dir
    (fun records => (records, .unreadable))
    (fun records => (records, .broken))
    (fun records => (records, .finished))
    noteRecord []

section

variable {β γ : Type}

/- What a reader does at a record. -/
def visitRecord
    (visit : View → β → Nat → Except Fault (β ⊕ γ))
    (accumulator : β)
    (record : Record) : Except Fault (β ⊕ γ) :=
  visit record.1 accumulator record.2

variable (unreadable broken finished : β → γ)
variable (visit : View → β → Nat → Except Fault (β ⊕ γ))

/- One block: the reader walks the records noted in it. -/
theorem loop_scanRecords
    {view : View}
    {chunk fuel pos : Nat}
    {records : List Record}
    {scanned : List Record ⊕ List Record × ScanEnd}
    (hNoted :
      loop (throw .noReturn)
          (scanRecords view chunk
            (fun records => (records, ScanEnd.broken))
            (noteRecord view))
          fuel (pos, records) =
        .ok scanned) :
    ∃ more,
      (scanned = .inl (records ++ more) ∧
        ∀ start : β,
          loop (throw .noReturn)
              (scanRecords view chunk broken (visit view))
              fuel (pos, start) =
            walk (visitRecord visit) more start) ∨
      (scanned = .inr (records ++ more, .broken) ∧
        ∀ start : β,
          loop (throw .noReturn)
              (scanRecords view chunk broken (visit view))
              fuel (pos, start) =
            walk (visitRecord visit) more start >>=
              Sum.elim (fun last => .ok (.inr (broken last)))
                fun result => .ok (.inr result)) := by
  induction fuel generalizing pos records with
  | zero => cases hNoted
  | succ fuel ih =>
      rw [loop] at hNoted
      simp only [loop]
      unfold scanRecords at hNoted ⊢
      dsimp only at hNoted ⊢
      by_cases hEnd : pos + dirEntrySize > chunk
      · simp only [hEnd, if_true] at hNoted ⊢
        cases hNoted
        exact ⟨[], .inl ⟨by simp, fun _ => rfl⟩⟩
      simp only [hEnd, if_false] at hNoted ⊢
      cases hLen : view.entryRecLen pos with
      | error fault =>
          rw [hLen] at hNoted
          cases hNoted
      | ok recLen =>
          simp only [hLen, bind, Except.bind] at hNoted ⊢
          by_cases hBroken : recLen < 8 ∨ pos + recLen > chunk
          · simp only [hBroken, if_true] at hNoted ⊢
            cases hNoted
            exact ⟨[], .inr ⟨by simp, fun _ => rfl⟩⟩
          simp only [hBroken, if_false, noteRecord] at hNoted ⊢
          rcases ih hNoted with ⟨more, hMore⟩
          refine ⟨(view, pos) :: more, ?_⟩
          rw [List.append_cons]
          refine hMore.imp (And.imp_right fun hWalk start => ?_)
            (And.imp_right fun hWalk start => ?_)
          · rw [walk, visitRecord]
            cases visit view start pos with
            | error fault => rfl
            | ok step =>
                cases step with
                | inl next => exact hWalk next
                | inr result => rfl
          · rw [walk, visitRecord]
            cases visit view start pos with
            | error fault => rfl
            | ok step =>
                cases step with
                | inl next => exact hWalk next
                | inr result => rfl

/- The blocks of a directory, one after the other. -/
theorem loop_scanBlocks
    {s : State}
    {dir : Inode}
    {fuel offset : Nat}
    {buffer : Bytes}
    {records : List Record}
    {noted : List Record × ScanEnd}
    (hNoted :
      loop (throw .noReturn)
          (scanBlocks s dir
            (fun records => (records, ScanEnd.unreadable))
            (fun records => (records, ScanEnd.broken))
            (fun records => (records, ScanEnd.finished))
            noteRecord)
          fuel (offset, buffer, records) =
        .ok noted) :
    ∃ more,
      noted.1 = records ++ more ∧
        ∀ start : β,
          loop (throw .noReturn)
              (scanBlocks s dir unreadable broken finished
                visit)
              fuel (offset, buffer, start) =
            walk (visitRecord visit) more start >>=
              Sum.elim
                (fun last =>
                  .ok (noted.2.exit unreadable broken finished
                    last))
                .ok := by
  induction fuel generalizing offset buffer records with
  | zero => cases hNoted
  | succ fuel ih =>
      rw [loop] at hNoted
      simp only [loop]
      unfold scanBlocks at hNoted ⊢
      dsimp only at hNoted ⊢
      by_cases hEnd : offset ≥ dir.size
      · simp only [hEnd, if_true] at hNoted ⊢
        cases hNoted
        exact ⟨[], by simp, fun _ => rfl⟩
      simp only [hEnd, if_false] at hNoted ⊢
      cases hRead :
          readInodeBytes s dir offset buffer
            (min (dir.size - offset) s.blockSize) with
      | error fault =>
          rw [hRead] at hNoted
          cases hNoted
      | ok read =>
          rcases read with ⟨readable, filled⟩
          simp only [hRead, bind, Except.bind] at hNoted ⊢
          cases readable with
          | false =>
              cases hNoted
              exact ⟨[], by simp, fun _ => rfl⟩
          | true =>
              simp only [Bool.not_true, Bool.false_eq_true,
                if_false] at hNoted ⊢
              cases hScan :
                  loop (throw .noReturn)
                    (scanRecords (bufferView filled)
                      (min (dir.size - offset) s.blockSize)
                      (fun records =>
                        (records, ScanEnd.broken))
                      (noteRecord (bufferView filled)))
                    (min (dir.size - offset) s.blockSize + 1)
                    (0, records) with
              | error fault =>
                  rw [hScan] at hNoted
                  cases hNoted
              | ok scanned =>
                  rw [hScan] at hNoted
                  rcases loop_scanRecords broken visit hScan with
                    ⟨more, ⟨hMore, hWalk⟩ | ⟨hMore, hWalk⟩⟩
                  · subst hMore
                    rcases ih hNoted with ⟨rest, hRest, hScans⟩
                    refine ⟨more ++ rest, ?_, fun start => ?_⟩
                    · rw [hRest, List.append_assoc]
                    · rw [hWalk, walk_append]
                      cases walk (visitRecord visit) more
                          start with
                      | error fault => rfl
                      | ok walked =>
                          cases walked with
                          | inl next => exact hScans next
                          | inr result => rfl
                  · subst hMore
                    cases hNoted
                    refine ⟨more, rfl, fun start => ?_⟩
                    rw [hWalk]
                    cases walk (visitRecord visit) more
                        start with
                    | error fault => rfl
                    | ok walked =>
                        cases walked with
                        | inl next => rfl
                        | inr result => rfl

/-
  A reader of a directory does its visits at the records of
  the directory, in their order, until one of them ends it.
-/
theorem scanDirectory_eq
    {s : State}
    {dir : Inode}
    {records : List Record}
    {ending : ScanEnd}
    (hRecords :
      directoryRecords s dir = .ok (records, ending))
    (start : β) :
    scanDirectory s dir unreadable broken finished visit
        start =
      walk (visitRecord visit) records start >>=
        Sum.elim
          (fun last =>
            .ok (ending.exit unreadable broken finished last))
          .ok := by
  rcases loop_scanBlocks unreadable broken finished visit
      hRecords with
    ⟨more, hMore, hScan⟩
  rw [List.nil_append] at hMore
  cases hMore
  exact hScan start

end

end Ext2

end Whirliscope

------------------------------------------------------------
-- Finding a Name
------------------------------------------------------------

namespace Whirliscope

namespace Ext2

open ByteMemory FaultProgram Components

namespace Record

def inode (record : Record) :=
  getLE record.1.bytes record.2 4
def nameLength (record : Record) :=
  getLE record.1.bytes (record.2 + 6) 1

/- The name that a record holds. -/
def name
    (record : Record) : List UInt8 :=
  (List.range record.nameLength).map
    (slice record.1.bytes (record.2 + 8))

/- A live record with a name. -/
def Named
    (record : Record)
    (name : List UInt8) : Prop :=
  record.inode ≠ 0 ∧ record.name = name

end Record

theorem View.load_eq_ok
    {view : View}
    {offset width value : Nat}
    (hLoad : view.load offset width = .ok value) :
    getLE view.bytes offset width = value := by
  unfold View.load at hLoad
  split_ifs at hLoad
  cases hLoad
  rfl

/- A comparison that ends tells whether the bytes agree. -/
theorem View.matchesBytes_eq_ok
    {view : View}
    {offset : Nat}
    {expected : List UInt8}
    {same : Bool}
    (hMatches : view.matchesBytes offset expected = .ok same) :
    same = true ↔
      (List.range expected.length).map
          (slice view.bytes offset) =
        expected := by
  induction expected generalizing offset with
  | nil =>
      cases hMatches
      simp
  | cons byte rest ih =>
      rw [matchesBytes, bind_eq_ok_iff] at hMatches
      rcases hMatches with ⟨value, hLoad, hRest⟩
      have hValue : (view.bytes offset).toNat = value := by
        rw [← View.load_eq_ok hLoad]
        simp [getLE]
      have hList :
          (List.range (byte :: rest).length).map
              (slice view.bytes offset) =
            view.bytes offset ::
              (List.range rest.length).map
                (slice view.bytes (offset + 1)) := by
        rw [List.length_cons, List.range_succ_eq_map,
          List.map_cons, List.map_map]
        congr 1
        apply List.map_congr_left
        intro i _
        change view.bytes (offset + (i + 1)) =
          view.bytes (offset + 1 + i)
        congr 1
        omega
      rw [hList, List.cons.injEq]
      split_ifs at hRest with hDiffers
      · cases hRest
        simp only [Bool.false_eq_true, false_iff, not_and]
        intro hByte
        exact absurd (by rw [← hValue, hByte]) hDiffers
      · have hByte : view.bytes offset = byte := by
          apply UInt8.toNat_inj.mp
          rw [hValue]
          exact not_not.mp hDiffers
        rw [ih hRest]
        exact ⟨fun hTail => ⟨hByte, hTail⟩, And.right⟩

theorem View.namesEqual_eq_ok
    {record : Record}
    {name : List UInt8}
    {same : Bool}
    (hSame :
      record.1.namesEqual record.2 name = .ok same) :
    same = true ↔ record.name = name := by
  unfold View.namesEqual at hSame
  rw [bind_eq_ok_iff] at hSame
  rcases hSame with ⟨length, hLength, hRest⟩
  have hLength : record.nameLength = length :=
    View.load_eq_ok hLength
  split_ifs at hRest with hDiffers
  · cases hRest
    simp only [Bool.false_eq_true, false_iff]
    intro hName
    apply hDiffers
    rw [← hLength, ← hName, Record.name, List.length_map,
      List.length_range]
  · rw [View.matchesBytes_eq_ok hRest, Record.name, hLength,
      not_not.mp hDiffers]

/- What `find_in_dir` does at a record it can read. -/
theorem findVisit_eq_ok
    {record : Record}
    {name : List UInt8}
    {step : Unit ⊕ Option Nat}
    (hStep : findVisit name record.1 record.2 = .ok step) :
    (record.Named name ∧ step = .inr (some record.inode)) ∨
      (¬ record.Named name ∧ step = .inl ()) := by
  unfold findVisit at hStep
  rw [bind_eq_ok_iff] at hStep
  rcases hStep with ⟨inode, hInode, hRest⟩
  have hInode : record.inode = inode :=
    View.load_eq_ok hInode
  split_ifs at hRest with hUnused
  · cases hRest
    exact .inr ⟨fun hNamed => hNamed.1
      (hInode.trans hUnused), rfl⟩
  · rw [bind_eq_ok_iff] at hRest
    rcases hRest with ⟨same, hSame, hRest⟩
    have hName := View.namesEqual_eq_ok hSame
    split_ifs at hRest with hEqual
    · cases hRest
      exact .inl ⟨⟨hInode ▸ hUnused, hName.mp hEqual⟩,
        by rw [hInode]⟩
    · cases hRest
      exact .inr ⟨fun hNamed => hEqual (hName.mpr hNamed.2),
        rfl⟩

/- A search that ends stops at the first record it seeks. -/
theorem walk_findVisit
    {name : List UInt8}
    {records : List Record}
    {record : Record}
    {walked : Unit ⊕ Option Nat}
    (hMem : record ∈ records)
    (hNamed : record.Named name)
    (hWalk :
      walk
          (visitRecord fun view _ => findVisit name view)
          records () =
        .ok walked) :
    ∃ first ∈ records, first.Named name ∧
      walked = .inr (some first.inode) := by
  induction records with
  | nil => exact absurd hMem List.not_mem_nil
  | cons head rest ih =>
      rw [walk, bind_eq_ok_iff] at hWalk
      rcases hWalk with ⟨step, hStep, hRest⟩
      rcases findVisit_eq_ok hStep with
        ⟨hHead, hExit⟩ | ⟨hHead, hGo⟩
      · rw [hExit] at hRest
        cases hRest
        exact ⟨head, List.mem_cons_self, hHead, rfl⟩
      · rw [hGo] at hRest
        rcases List.mem_cons.mp hMem with rfl | hLater
        · exact absurd hNamed hHead
        · rcases ih hLater hRest with
            ⟨first, hFirst, hFound⟩
          exact ⟨first, List.mem_cons_of_mem _ hFirst, hFound⟩

/- A live record with a name keeps the name from being free. -/
theorem findInDir_of_named
    {s : State}
    {dir : Inode}
    {name : List UInt8}
    {records : List Record}
    {ending : ScanEnd}
    {record : Record}
    {found : Option Nat}
    (hDir : dir.isDir = true)
    (hName : name ≠ [])
    (hShort : name.length ≤ nameLen)
    (hSize : s.blockSize ≤ directoryBufferSize)
    (hRecords :
      directoryRecords s dir = .ok (records, ending))
    (hMem : record ∈ records)
    (hNamed : record.Named name)
    (hFound : findInDir s dir name = .ok found) :
    ∃ first ∈ records, first.Named name ∧
      found = some first.inode := by
  unfold findInDir at hFound
  rw [if_neg (by
      simp only [hDir, Bool.not_true, Bool.false_eq_true,
        List.length_eq_zero_iff, hName, false_or]
      omega),
    if_neg (by omega), scanDirectory_eq _ _ _ _ hRecords,
    bind_eq_ok_iff] at hFound
  rcases hFound with ⟨walked, hWalk, hExit⟩
  rcases walk_findVisit hMem hNamed hWalk with
    ⟨first, hFirst, hFirstNamed, hWalked⟩
  rw [hWalked] at hExit
  cases hExit
  exact ⟨first, hFirst, hFirstNamed, rfl⟩

end Ext2

end Whirliscope

------------------------------------------------------------
-- Records With Room for Their Names
------------------------------------------------------------

namespace Whirliscope

namespace Ext2

open ByteMemory FaultProgram Components

namespace Record

def recordLength (record : Record) :=
  getLE record.1.bytes (record.2 + 4) 2
def fileType (record : Record) :=
  getLE record.1.bytes (record.2 + 7) 1

/- A record of a length that the readers accept. -/
structure InBuffer (record : Record) : Prop where
  extent : record.1.extent = directoryBufferSize
  length : 8 ≤ record.recordLength
  inside :
    record.2 + record.recordLength ≤ directoryBufferSize

/- A live record is long enough for its name. -/
def HasRoom
    (record : Record) : Prop :=
  record.inode ≠ 0 →
    8 + record.nameLength ≤ record.recordLength

instance (record : Record) (name : List UInt8) :
    Decidable (record.Named name) :=
  inferInstanceAs (Decidable (_ ∧ _))

end Record

/- The records noted in one block. -/
theorem yields_noteRecords
    {buffer : Bytes}
    {chunk fuel pos : Nat}
    {records : List Record}
    (hChunk : chunk ≤ directoryBufferSize)
    (hRecords : ∀ record ∈ records, record.InBuffer) :
    Yields (fun _ => True)
      (loop (throw Fault.noReturn)
        (scanRecords (bufferView buffer) chunk
          (fun records => (records, ScanEnd.broken))
          (noteRecord (bufferView buffer)))
        fuel (pos, records))
      (Sum.elim (fun noted => ∀ record ∈ noted, record.InBuffer)
        fun result => ∀ record ∈ result.1, record.InBuffer) := by
  apply yields_loop
    (fun _ (accumulator : Nat × List Record) =>
      ∀ record ∈ accumulator.2, record.InBuffer)
    (fun _ _ => Yields.error trivial) ?_ hRecords
  rintro _ ⟨pos, records⟩ hRecords
  unfold scanRecords
  dsimp only at hRecords ⊢
  by_cases hEnd : pos + dirEntrySize > chunk
  · rw [if_pos hEnd]
    exact Yields.ok hRecords
  rw [if_neg hEnd]
  cases hLen : (bufferView buffer).entryRecLen pos with
  | error fault => exact Yields.error trivial
  | ok recLen =>
      simp only [bind, Except.bind]
      by_cases hBroken : recLen < 8 ∨ pos + recLen > chunk
      · rw [if_pos hBroken]
        exact Yields.ok hRecords
      rw [if_neg hBroken]
      have hLength : getLE buffer (pos + 4) 2 = recLen :=
        View.load_eq_ok hLen
      apply Yields.ok
      intro record hRecord
      rcases List.mem_append.mp hRecord with hOld | hNew
      · exact hRecords record hOld
      · rw [List.mem_singleton.mp hNew]
        refine ⟨rfl, ?_, ?_⟩
        · change 8 ≤ getLE buffer (pos + 4) 2
          omega
        · change pos + getLE buffer (pos + 4) 2 ≤ _
          omega

theorem inBuffer_of_mem
    {s : State}
    {dir : Inode}
    {records : List Record}
    {ending : ScanEnd}
    (hSize : s.blockSize ≤ directoryBufferSize)
    (hRecords :
      directoryRecords s dir = .ok (records, ending)) :
    ∀ record ∈ records, record.InBuffer := by
  have hNone : ∀ record ∈ ([] : List Record), record.InBuffer :=
    fun _ hMem => absurd hMem List.not_mem_nil
  have hScan :
      Yields (fun _ => True) (directoryRecords s dir)
        fun result =>
          ∀ record ∈ result.1, record.InBuffer := by
    unfold directoryRecords scanDirectory
    apply yields_loop
      (fun _ (accumulator : Nat × Bytes × List Record) =>
        ∀ record ∈ accumulator.2.2, record.InBuffer)
      (fun _ _ => Yields.error trivial) ?_ hNone
    rintro _ ⟨offset, buffer, records⟩ hRecords
    unfold scanBlocks
    dsimp only at hRecords ⊢
    by_cases hEnd : offset ≥ dir.size
    · rw [if_pos hEnd]
      exact Yields.ok hRecords
    rw [if_neg hEnd]
    cases readInodeBytes s dir offset buffer
        (min (dir.size - offset) s.blockSize) with
    | error fault => exact Yields.error trivial
    | ok read =>
        rcases read with ⟨readable, filled⟩
        simp only [bind, Except.bind]
        cases readable with
        | false => exact Yields.ok hRecords
        | true =>
            simp only [Bool.not_true, Bool.false_eq_true,
              if_false]
            have hChunk :
                min (dir.size - offset) s.blockSize ≤
                  directoryBufferSize :=
              (Nat.min_le_right _ _).trans hSize
            cases hScan :
                loop (throw Fault.noReturn)
                  (scanRecords (bufferView filled)
                    (min (dir.size - offset) s.blockSize)
                    (fun records => (records, ScanEnd.broken))
                    (noteRecord (bufferView filled)))
                  (min (dir.size - offset) s.blockSize + 1)
                  (0, records) with
            | error fault => exact Yields.error trivial
            | ok scanned =>
                have hNoted :=
                  (yields_noteRecords hChunk
                    hRecords).of_eq_ok hScan
                cases scanned with
                | inl next => exact Yields.ok hNoted
                | inr result => exact Yields.ok hNoted
  exact hScan.of_eq_ok hRecords

/- A comparison inside the buffer ends. -/
theorem View.matchesBytes_ok
    {view : View}
    {offset : Nat}
    {expected : List UInt8}
    (hInside : offset + expected.length ≤ view.extent) :
    ∃ same, view.matchesBytes offset expected = .ok same := by
  induction expected generalizing offset with
  | nil => exact ⟨true, rfl⟩
  | cons byte rest ih =>
      rw [List.length_cons] at hInside
      rw [matchesBytes, View.load, if_pos (by omega)]
      simp only [bind, Except.bind]
      split_ifs
      · exact ⟨false, rfl⟩
      · exact ih (by omega)

namespace Record

variable {record : Record}

theorem InBuffer.load_eq
    (hBuffer : record.InBuffer)
    {offset width : Nat}
    (hRange : offset + width ≤ record.recordLength) :
    record.1.load (record.2 + offset) width =
      .ok (getLE record.1.bytes (record.2 + offset) width) := by
  have hInside := hBuffer.inside
  unfold View.load
  rw [hBuffer.extent, if_pos (by omega)]

theorem InBuffer.entryInode_eq
    (hBuffer : record.InBuffer) :
    record.1.entryInode record.2 = .ok record.inode := by
  have hLength := hBuffer.length
  have hLoad :
      record.1.load (record.2 + 0) 4 =
        .ok (getLE record.1.bytes (record.2 + 0) 4) :=
    hBuffer.load_eq (by omega)
  exact hLoad

theorem InBuffer.entryNameLen_eq
    (hBuffer : record.InBuffer) :
    record.1.entryNameLen record.2 =
      .ok record.nameLength := by
  have hLength := hBuffer.length
  exact hBuffer.load_eq (by omega)

theorem InBuffer.entryFileType_eq
    (hBuffer : record.InBuffer) :
    record.1.entryFileType record.2 =
      .ok record.fileType := by
  have hLength := hBuffer.length
  exact hBuffer.load_eq (by omega)

@[simp] theorem length_name
    (record : Record) :
    record.name.length = record.nameLength := by
  rw [name, List.length_map, List.length_range]

/- Comparing the name of a live record. -/
theorem InBuffer.namesEqual_eq
    (hBuffer : record.InBuffer)
    (hRoom : record.HasRoom)
    (hLive : record.inode ≠ 0)
    (expected : List UInt8) :
    record.1.namesEqual record.2 expected =
      .ok (decide (record.name = expected)) := by
  have hInside := hBuffer.inside
  have hFits := hRoom hLive
  have hEnds :
      ∃ same,
        record.1.namesEqual record.2 expected = .ok same := by
    unfold View.namesEqual
    rw [hBuffer.entryNameLen_eq]
    simp only [bind, Except.bind]
    split_ifs with hLength
    · exact ⟨false, rfl⟩
    · apply View.matchesBytes_ok
      rw [hBuffer.extent]
      omega
  rcases hEnds with ⟨same, hSame⟩
  rw [hSame, Except.ok.injEq]
  have hName := View.namesEqual_eq_ok hSame
  by_cases hEqual : record.name = expected
  · rw [hName.mpr hEqual, decide_eq_true hEqual]
  · rw [decide_eq_false hEqual]
    exact Bool.eq_false_iff.mpr fun hTrue =>
      hEqual (hName.mp hTrue)

end Record

/- What `find_in_dir` does at a record with room. -/
theorem findVisit_eq
    {record : Record}
    (hBuffer : record.InBuffer)
    (hRoom : record.HasRoom)
    (name : List UInt8) :
    findVisit name record.1 record.2 =
      .ok (if record.Named name then
        .inr (some record.inode)
      else
        .inl ()) := by
  unfold findVisit
  rw [hBuffer.entryInode_eq]
  simp only [bind, Except.bind]
  by_cases hLive : record.inode = 0
  · rw [if_pos hLive, if_neg fun hNamed => hNamed.1 hLive]
    rfl
  rw [if_neg hLive, hBuffer.namesEqual_eq hRoom hLive]
  by_cases hName : record.name = name
  · rw [if_pos (show record.Named name from ⟨hLive, hName⟩)]
    simp only [hName, decide_true, if_true]
    rfl
  · rw [if_neg fun hNamed : record.Named name =>
      hName hNamed.2]
    simp only [hName, decide_false, Bool.false_eq_true,
      if_false]
    rfl

theorem walk_findVisit_eq
    {records : List Record}
    (hRecords :
      ∀ record ∈ records, record.InBuffer ∧ record.HasRoom)
    (name : List UInt8) :
    walk (visitRecord fun view _ => findVisit name view)
        records () =
      .ok
        (match records.find? (·.Named name) with
        | some record => .inr (some record.inode)
        | none => .inl ()) := by
  induction records with
  | nil => rfl
  | cons head rest ih =>
      rcases hRecords head List.mem_cons_self with
        ⟨hBuffer, hRoom⟩
      have hRest := ih fun record hMem =>
        hRecords record (List.mem_cons_of_mem _ hMem)
      rw [walk, visitRecord, findVisit_eq hBuffer hRoom]
      by_cases hNamed : head.Named name
      · rw [if_pos hNamed,
          List.find?_cons_of_pos (by simpa using hNamed)]
        rfl
      · rw [if_neg hNamed,
          List.find?_cons_of_neg (by simpa using hNamed)]
        exact hRest

/-
  A search comes to the first live record with the name, when
  every live record has room for its name.
-/
theorem findInDir_eq
    {s : State}
    {dir : Inode}
    {name : List UInt8}
    {records : List Record}
    (hDir : dir.isDir = true)
    (hName : name ≠ [])
    (hShort : name.length ≤ nameLen)
    (hSize : s.blockSize ≤ directoryBufferSize)
    (hRecords :
      directoryRecords s dir = .ok (records, .finished))
    (hRoom : ∀ record ∈ records, record.HasRoom) :
    findInDir s dir name =
      .ok ((records.find? (·.Named name)).map
        Record.inode) := by
  unfold findInDir
  rw [if_neg (by
      simp only [hDir, Bool.not_true, Bool.false_eq_true,
        List.length_eq_zero_iff, hName, false_or]
      omega),
    if_neg (by omega), scanDirectory_eq _ _ _ _ hRecords,
    walk_findVisit_eq fun record hMem =>
      ⟨inBuffer_of_mem hSize hRecords record hMem,
        hRoom record hMem⟩]
  cases records.find? (·.Named name) with
  | none => rfl
  | some record => rfl

end Ext2

end Whirliscope
