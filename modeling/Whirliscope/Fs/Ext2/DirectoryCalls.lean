import Whirliscope.Fs.Ext2.EntryInsertion
import Whirliscope.Fs.Ext2.EntryRemoval
import Whirliscope.Fs.Ext2.Listing
import Whirliscope.Fs.Ext2.VolumeImage

/-
  A directory as a finite map from names to inodes, over runs
  of searches, checks for emptiness, additions and removals.

  Key definitions include:
    * `DirCall`
    * `DirServes`, `DirServesAll`
    * `OrderlyRun`

  Main theorems:
    * `Holds.dirIsEmpty_eq`
    * `runDirCalls_serves`
-/

------------------------------------------------------------
-- Empty Directories
------------------------------------------------------------

namespace Whirliscope

namespace Ext2

open ByteMemory Components FaultProgram Records

/- What `dir_is_empty` does at a record with room. -/
theorem emptyVisit_eq
    {record : Record}
    (hBuffer : record.InBuffer)
    (hRoom : record.HasRoom) :
    emptyVisit record.1 record.2 =
      .ok (if record.Listed then .inr false else .inl ()) := by
  unfold emptyVisit
  rw [hBuffer.entryInode_eq]
  simp only [bind, Except.bind]
  by_cases hLive : record.inode = 0
  · rw [if_pos hLive,
      if_neg fun hListed : record.Listed => hListed.1 hLive]
    rfl
  rw [if_neg hLive, hBuffer.entryIsDots_eq hRoom hLive]
  by_cases hDots : record.name = dot ∨ record.name = dotDot
  · rw [if_neg fun hListed : record.Listed =>
      hDots.elim hListed.2.1 hListed.2.2]
    simp only [hDots, decide_true, if_true]
    rfl
  · rw [if_pos (show record.Listed from
      ⟨hLive, not_or.mp hDots⟩)]
    simp only [hDots, decide_false, Bool.false_eq_true,
      if_false]
    rfl

theorem walk_emptyVisit_eq
    {records : List Record}
    (hRecords :
      ∀ record ∈ records, record.InBuffer ∧ record.HasRoom) :
    walk (visitRecord fun view _ => emptyVisit view) records
        () =
      .ok (if ∀ record ∈ records, ¬ record.Listed then .inl ()
        else .inr false) := by
  induction records with
  | nil => rfl
  | cons head rest ih =>
      rw [List.forall_mem_cons] at hRecords
      rw [walk, visitRecord,
        emptyVisit_eq hRecords.1.1 hRecords.1.2]
      simp only [List.forall_mem_cons]
      by_cases hListed : head.Listed
      · rw [if_pos hListed, if_neg fun hNone =>
          hNone.1 hListed]
        rfl
      · simp only [hListed, if_false, not_false_eq_true,
          true_and]
        exact ih hRecords.2

theorem listed_of_live
    {record : Record}
    (hLive : record.inode ≠ 0) :
    ¬ record.Listed ↔
      record.name = dot ∨ record.name = dotDot := by
  unfold Record.Listed
  tauto

/- No record is listed when every name is one of the dots. -/
theorem forall_not_listed_iff
    (records : List Record) :
    (∀ record ∈ records, ¬ record.Listed) ↔
      ∀ name ∈ keys (records.map Record.read),
        name = dot ∨ name = dotDot := by
  induction records with
  | nil => simp [keys, entries]
  | cons record rest ih =>
      unfold keys at ih ⊢
      rw [List.map_cons, entries_cons, List.map_append,
        List.forall_mem_cons, ih]
      by_cases hLive : record.inode = 0
      · have hEntry : record.read.entry = none := if_pos hLive
        have hNot : ¬ record.Listed := fun hListed =>
          hListed.1 hLive
        simp [hEntry, hNot]
      · have hEntry :
            record.read.entry =
              some
                (record.name, record.inode,
                  record.fileType) :=
          if_neg hLive
        rw [hEntry, listed_of_live hLive, Option.toList_some,
          List.map_singleton, List.singleton_append,
          List.forall_mem_cons]

/- A directory is empty when only the dots are in it. -/
theorem Holds.dirIsEmpty_eq
    {G : Geometry}
    {V : Volume}
    {s : State}
    {dir : Inode}
    {rows : List (List DirRecord)}
    (hSane : Sane G)
    (hHolds : Holds G V s)
    (hBlocks : BlocksAreData G V dir)
    (hCatalog : Catalog G V dir rows) :
    dirIsEmpty s dir =
      .ok (decide (∀ name ∈ keys rows.flatten,
        name = dot ∨ name = dotDot)) := by
  rcases hHolds.directoryRecords_eq hSane hBlocks hCatalog with
    ⟨records, hRecords, hRead⟩
  have hSize : s.blockSize ≤ directoryBufferSize := by
    rw [hHolds.blockSize]
    exact hSane.blockSize_le_buffer
  have hRoom := hCatalog.hasRoom hRead
  rw [← hRead]
  have hWalk :=
    walk_emptyVisit_eq fun record hMem =>
      ⟨inBuffer_of_mem hSize hRecords record hMem,
        hRoom record hMem⟩
  unfold dirIsEmpty
  rw [hCatalog.kind, if_neg (by decide), if_neg (by omega),
    scanDirectory_eq _ _ _ _ hRecords, hWalk]
  simp only [forall_not_listed_iff]
  by_cases hDots :
      ∀ name ∈ keys (records.map Record.read),
        name = dot ∨ name = dotDot
  · rw [if_pos hDots, decide_eq_true hDots]
    rfl
  · rw [if_neg hDots, decide_eq_false hDots]
    rfl

end Ext2

end Whirliscope

------------------------------------------------------------
-- Calls on a Directory
------------------------------------------------------------

namespace Whirliscope

namespace Ext2

open ByteMemory FaultProgram Records

inductive DirCall
| find (name : List UInt8)
| isEmpty
| add (name : List UInt8) (child fileType : Nat)
| remove (name : List UInt8)

inductive DirReply
| found (inode : Option Nat)
| empty (yes : Bool)
| added (ok : Bool)
| removed (inode : Option Nat)
| unreadable
deriving DecidableEq

/-
  A call on a directory that was read. A name that is taken is
  refused before the addition, as in `ext2_create_file`.
-/
def DirCall.runOn
    (number : Nat)
    (dir : Inode) : DirCall → Ext2M DirReply
| .find name => do
    return .found (← findInDir (← get) dir name)
| .isEmpty => do
    return .empty (← dirIsEmpty (← get) dir)
| .add name child fileType => do
    if (← findInDir (← get) dir name).isSome then
      return .added false
    let (ok, _) ←
      addDirEntry dir number child name fileType
    return .added ok
| .remove name => do
    return .removed (← removeDirEntry dir number name)

/- Every call reads the inode of the directory anew. -/
def DirCall.run
    (number : Nat)
    (call : DirCall) : Ext2M DirReply := do
  let some dir ← readInode (← get) number
    | return .unreadable
  call.runOn number dir

/- Calls on directories, each with its inode number. -/
def runDirCalls :
    List (Nat × DirCall) → Ext2M (List DirReply)
| [] => pure []
| (number, call) :: calls => do
    let reply ← call.run number
    let replies ← runDirCalls calls
    return reply :: replies

/- A name that a path can have. -/
def ProperName
    (name : List UInt8) : Prop :=
  name ≠ [] ∧ name.length ≤ nameLen

/- The arguments that the callers of the edits pass. -/
def DirCall.Proper : DirCall → Prop
| .find name => ProperName name
| .isEmpty => True
| .add name child fileType =>
    ProperName name ∧ child ≠ 0 ∧ child < 2 ^ 32 ∧
      fileType < 256
| .remove name => ProperName name

/- The records of a directory, as a scan comes to them. -/
def ReadsRecords
    (s : State)
    (number : Nat)
    (records : List DirRecord) : Prop :=
  ∃ dir scanned,
    readInode s number = .ok (some dir) ∧
      directoryRecords s dir = .ok (scanned, .finished) ∧
      scanned.map Record.read = records

theorem ReadsRecords.unique
    {s : State}
    {number : Nat}
    {records records' : List DirRecord}
    (hReads : ReadsRecords s number records)
    (hReads' : ReadsRecords s number records') :
    records = records' := by
  rcases hReads with ⟨dir, scanned, hDir, hScanned, rfl⟩
  rcases hReads' with ⟨dir', scanned', hDir', hScanned', rfl⟩
  rw [hDir] at hDir'
  injection hDir' with hSome
  injection hSome with hSame
  subst hSame
  rw [hScanned] at hScanned'
  injection hScanned' with hBoth
  injection hBoth with hSame
  rw [hSame]

/-
  A removal in order: no unused record lies between the record
  of the name and the last record in use before it, which
  `remove_dir_entry` gives the space to. A record of another
  block counts as well.
-/
def DirCall.Orderly
    (s : State)
    (number : Nat) : DirCall → Prop
| .remove name =>
    ∃ records, ReadsRecords s number records ∧
      Mergeable name records
| _ => True

/- Every call of the run is in order when it is made. -/
def OrderlyRun : List (Nat × DirCall) → State → Prop
| [], _ => True
| (number, call) :: calls, s =>
    call.Orderly s number ∧
      ∀ reply middle,
        Returns (call.run number) s reply middle →
          OrderlyRun calls middle

end Ext2

end Whirliscope

------------------------------------------------------------
-- A Map from Names to Inodes
------------------------------------------------------------

namespace Whirliscope

namespace Ext2

open ByteMemory FaultProgram Records

/- No record of the directory has room for the name. -/
def Crowded
    (s : State)
    (number : Nat)
    (name : List UInt8) : Prop :=
  ∃ records, ReadsRecords s number records ∧
    ∀ record ∈ records,
      record.size <
        record.used neededSize 8 + neededSize name

/-
  No block for a file at an index: nothing is free, or the
  index is past the single indirect block, or nothing is left
  for that block itself.
-/
def NoBlock
    (G : Geometry)
    (V : Volume)
    (file : Inode)
    (fileBlock : Nat) : Prop :=
  Exhausted G V ∨
    directBlocks ≤ fileBlock ∧
      (G.entries ≤ fileBlock - directBlocks ∨
        file.block 12 = 0 ∧
          ∃ block, Fresh G V block ∧
            Exhausted G (V.takeBlock G block))

/- The directory cannot grow by a block. -/
def CannotGrow
    (G : Geometry)
    (s : State)
    (number : Nat) : Prop :=
  ∃ V, Holds G V s ∧
    NoBlock G V (V.inodes number)
      ((V.inodes number).size / G.blockSize)

theorem Ensured.noBlock
    {G : Geometry}
    {V V' : Volume}
    {file copy : Inode}
    {fileBlock : Nat}
    (hEnsured :
      Ensured G V file fileBlock (none, copy) V') :
    NoBlock G V file fileBlock := by
  cases hEnsured with
  | full hHole hFull => exact .inl hFull
  | unlinked hHole hFresh hLinked =>
      cases hLinked with
      | full hFar hEntry hNone hFull =>
          exact .inr ⟨hFar, .inr ⟨hNone, _, hFresh, hFull⟩⟩
      | tooFar hFar hEntry => exact .inr ⟨hFar, .inl hEntry⟩

/- What a map from names to inodes answers to a call. -/
inductive DirServes
    (G : Geometry)
    (s : State)
    (number : Nat)
    (names : List UInt8 → Option Nat) :
    DirCall → DirReply → (List UInt8 → Option Nat) → Prop
| found
    (name : List UInt8) :
    DirServes G s number names (.find name)
      (.found (names name)) names
| empty
    {yes : Bool}
    (hYes :
      yes = true ↔
        ∀ name, names name ≠ none →
          name = dot ∨ name = dotDot) :
    DirServes G s number names .isEmpty (.empty yes) names
| taken
    {name : List UInt8}
    {child fileType : Nat}
    (hTaken : names name ≠ none) :
    DirServes G s number names (.add name child fileType)
      (.added false) names
| full
    {name : List UInt8}
    {child fileType : Nat}
    (hFree : names name = none)
    (hCrowded : Crowded s number name)
    (hGrow : CannotGrow G s number) :
    DirServes G s number names (.add name child fileType)
      (.added false) names
| added
    {name : List UInt8}
    {child fileType : Nat}
    (hFree : names name = none) :
    DirServes G s number names (.add name child fileType)
      (.added true) (Function.update names name (some child))
| removed
    (name : List UInt8) :
    DirServes G s number names (.remove name)
      (.removed (names name)) (Function.update names name none)

/- What a map for each directory answers to a run. -/
inductive DirServesAll
    (G : Geometry) :
    State → (Nat → List UInt8 → Option Nat) →
      List (Nat × DirCall) → List DirReply → State →
        (Nat → List UInt8 → Option Nat) → Prop
| nil
    (s : State)
    (names : Nat → List UInt8 → Option Nat) :
    DirServesAll G s names [] [] s names
| cons
    {s middle final : State}
    {names names' : Nat → List UInt8 → Option Nat}
    {found : List UInt8 → Option Nat}
    {number : Nat}
    {call : DirCall}
    {calls : List (Nat × DirCall)}
    {reply : DirReply}
    {replies : List DirReply}
    (hReturns : Returns (call.run number) s reply middle)
    (hServes :
      DirServes G s number (names number) call reply found)
    (hRest :
      DirServesAll G middle
        (Function.update names number found) calls replies
        final names') :
    DirServesAll G s names ((number, call) :: calls)
      (reply :: replies) final names'

/- The names that the records hold. -/
def namesOf
    (records : List DirRecord)
    (name : List UInt8) : Option Nat :=
  (lookup name records).map Prod.fst

/- The names that each directory holds. -/
def allNames
    (rows : Nat → List (List DirRecord))
    (number : Nat) : List UInt8 → Option Nat :=
  namesOf (rows number).flatten

theorem allNames_update
    (rows : Nat → List (List DirRecord))
    (number : Nat)
    (rows' : List (List DirRecord)) :
    allNames (Function.update rows number rows') =
      Function.update (allNames rows) number
        (namesOf rows'.flatten) := by
  funext other
  unfold allNames
  by_cases hSame : other = number
  · subst hSame
    rw [Function.update_self, Function.update_self]
  · rw [Function.update_of_ne hSame,
      Function.update_of_ne hSame]

section

variable {records records' : List DirRecord}
variable {name : List UInt8} {child fileType : Nat}

theorem namesOf_larger
    (hDistinct : (keys records').Nodup)
    (hPerm :
      (entries records').Perm
        ((name, child, fileType) :: entries records)) :
    namesOf records' =
      Function.update (namesOf records) name (some child) := by
  funext other
  unfold namesOf
  rw [lookup_larger hDistinct hPerm, Function.update_apply]
  split_ifs
  · rfl
  · rfl

theorem namesOf_smaller
    (hDistinct : (keys records').Nodup)
    (hPerm :
      (entries records').Perm
        ((name, child, fileType) :: entries records)) :
    namesOf records =
      Function.update (namesOf records') name none := by
  funext other
  unfold namesOf
  rw [lookup_smaller hDistinct hPerm, Function.update_apply]
  split_ifs
  · rfl
  · rfl

theorem namesOf_eq_none_iff :
    namesOf records name = none ↔ name ∉ keys records := by
  unfold namesOf
  rw [Option.map_eq_none_iff, lookup_eq_none_iff]

end

end Ext2

end Whirliscope

------------------------------------------------------------
-- One Call
------------------------------------------------------------

namespace Whirliscope

namespace Ext2

open ByteMemory FaultProgram Records

/- A directory on a volume that has no name twice. -/
structure DirShows
    (G : Geometry)
    (V : Volume)
    (s : State)
    (number : Nat)
    (rows : List (List DirRecord)) : Prop where
  holds : Holds G V s
  editing : Editing G V number (V.inodes number)
  catalog : Catalog G V (V.inodes number) rows
  distinct : (keys rows.flatten).Nodup

/- What a call leaves, and what it answers. -/
def DirFollows
    (G : Geometry)
    (V : Volume)
    (s : State)
    (number : Nat)
    (rows : List (List DirRecord))
    (call : DirCall)
    (reply : DirReply)
    (final : State) : Prop :=
  ∃ V' rows',
    DirShows G V' final number rows' ∧
      KeepsOthers G V V' number ∧
      DirServes G s number (namesOf rows.flatten) call reply
        (namesOf rows'.flatten)

namespace DirShows

variable {G : Geometry} {V : Volume} {s : State}
variable {number : Nat} {rows : List (List DirRecord)}
variable {name : List UInt8} {stops : Fault → Prop}

theorem readInode_eq
    (hSane : Sane G)
    (hShows : DirShows G V s number rows) :
    readInode s number = .ok (some (V.inodes number)) := by
  rw [hShows.holds.readInode_eq hSane,
    if_pos hShows.editing.allocated.1]

theorem readsRecords
    (hSane : Sane G)
    (hShows : DirShows G V s number rows) :
    ReadsRecords s number rows.flatten := by
  rcases hShows.holds.directoryRecords_eq hSane
      hShows.editing.blocksAreData hShows.catalog with
    ⟨records, hRecords, hRead⟩
  exact ⟨_, records, hShows.readInode_eq hSane, hRecords,
    hRead⟩

theorem findInDir_eq
    (hSane : Sane G)
    (hShows : DirShows G V s number rows)
    (hName : ProperName name) :
    findInDir s (V.inodes number) name =
      .ok (namesOf rows.flatten name) :=
  hShows.holds.findInDir_eq hSane
    hShows.editing.blocksAreData hShows.catalog hName.1
    hName.2

/- A removal in order is one in the block of the name. -/
theorem mergeable
    (hSane : Sane G)
    (hShows : DirShows G V s number rows)
    (hOrderly : (DirCall.remove name).Orderly s number) :
    ∀ row ∈ rows, name ∈ keys row → Mergeable name row := by
  intro row hRow hKey
  rcases hOrderly with ⟨records, hReads, hMergeable⟩
  rw [hReads.unique (hShows.readsRecords hSane)] at hMergeable
  have hDistinct := hShows.distinct
  rcases List.append_of_mem hRow with ⟨first, last, rfl⟩
  rw [List.flatten_append, List.flatten_cons]
    at hMergeable hDistinct
  apply hMergeable.of_part _ hKey
  intro hEarlier
  unfold keys at hDistinct hKey hEarlier
  rw [entries_append, List.map_append, List.nodup_append]
    at hDistinct
  have hLater :
      name ∈ (entries (row ++ last.flatten)).map Prod.fst := by
    rw [entries_append, List.map_append]
    exact List.mem_append_left _ hKey
  exact hDistinct.2.2 name hEarlier name hLater rfl

theorem ensures_find
    (hSane : Sane G)
    (hShows : DirShows G V s number rows)
    (hName : ProperName name) :
    Ensures stops
      ((DirCall.find name).runOn number (V.inodes number)) s
      fun reply final =>
        DirFollows G V s number rows (.find name) reply
          final := by
  unfold DirCall.runOn
  rw [ensures_bind_iff, ensures_get_iff, ensures_bind_iff,
    ensures_lift_iff, hShows.findInDir_eq hSane hName,
    yields_ok_iff, ensures_pure_iff]
  exact ⟨V, rows, hShows, .refl G V number, .found name⟩

theorem ensures_isEmpty
    (hSane : Sane G)
    (hShows : DirShows G V s number rows) :
    Ensures stops
      (DirCall.isEmpty.runOn number (V.inodes number)) s
      fun reply final =>
        DirFollows G V s number rows .isEmpty reply final := by
  unfold DirCall.runOn
  rw [ensures_bind_iff, ensures_get_iff, ensures_bind_iff,
    ensures_lift_iff,
    hShows.holds.dirIsEmpty_eq hSane
      hShows.editing.blocksAreData hShows.catalog,
    yields_ok_iff, ensures_pure_iff]
  refine ⟨V, rows, hShows, .refl G V number, .empty ?_⟩
  simp only [decide_eq_true_eq, ne_eq, namesOf_eq_none_iff,
    not_not]

theorem ensures_add
    (hSane : Sane G)
    (hShows : DirShows G V s number rows)
    (hName : ProperName name)
    {child fileType : Nat}
    (hSome : child ≠ 0)
    (hChild : child < 2 ^ 32)
    (hType : fileType < 256) :
    Ensures stops
      ((DirCall.add name child fileType).runOn number
        (V.inodes number))
      s
      fun reply final =>
        DirFollows G V s number rows
          (.add name child fileType) reply final := by
  unfold DirCall.runOn
  rw [ensures_bind_iff, ensures_get_iff, ensures_bind_iff,
    ensures_lift_iff, hShows.findInDir_eq hSane hName,
    yields_ok_iff]
  cases hFound : namesOf rows.flatten name with
  | some inode =>
      have hTaken : namesOf rows.flatten name ≠ none := by
        rw [hFound]
        exact Option.some_ne_none inode
      simp only [Option.isSome_some, if_true, ensures_pure_iff]
      exact ⟨V, rows, hShows, .refl G V number, .taken hTaken⟩
  | none =>
      simp only [Option.isSome_none, Bool.false_eq_true,
        if_false]
      rw [ensures_bind_iff]
      apply (hShows.holds.ensures_addDirEntry hSane
        hShows.editing hShows.catalog hSome hChild hName.1
        hName.2 hType).mono
      rintro ⟨ok, copy⟩ final
        ⟨V', rows', hFinal, hInserted⟩
      rw [ensures_pure_iff]
      have hTouched :=
        hInserted.touched hSane hShows.editing rfl
          hShows.catalog
      have hCatalog :=
        hInserted.catalog hSane hShows.editing rfl
          hShows.catalog
      cases ok with
      | true =>
          have hPerm := hInserted.entries_perm rfl
          have hDistinct : (keys rows'.flatten).Nodup :=
            (distinct_iff hPerm).mpr
              ⟨namesOf_eq_none_iff.mp hFound, hShows.distinct⟩
          refine ⟨V', rows',
            ⟨hFinal, hTouched.editing, hCatalog, hDistinct⟩,
            hTouched.keeps, ?_⟩
          rw [namesOf_larger hDistinct hPerm]
          exact .added hFound
      | false =>
          rcases hInserted.full rfl with
            ⟨rfl, hFull, copy, hEnsured⟩
          have hBlocks :
              (V.inodes number).size / G.blockSize =
                rows'.length := by
            rw [hShows.catalog.size,
              Nat.mul_div_cancel _ hSane.blockSize_pos]
          have hGrow : CannotGrow G s number :=
            ⟨V, hShows.holds, hBlocks ▸ hEnsured.noBlock⟩
          refine ⟨V', rows',
            ⟨hFinal, hTouched.editing, hCatalog,
              hShows.distinct⟩,
            hTouched.keeps, .full hFound
              ⟨_, hShows.readsRecords hSane, ?_⟩ hGrow⟩
          intro record hMem
          rw [List.mem_flatten] at hMem
          rcases hMem with ⟨row, hRow, hRecord⟩
          exact insert_eq_none_iff.mp (hFull row hRow) record
            hRecord

theorem ensures_remove
    (hSane : Sane G)
    (hShows : DirShows G V s number rows)
    (hName : ProperName name)
    (hOrderly : (DirCall.remove name).Orderly s number) :
    Ensures stops
      ((DirCall.remove name).runOn number (V.inodes number)) s
      fun reply final =>
        DirFollows G V s number rows (.remove name) reply
          final := by
  unfold DirCall.runOn
  rw [ensures_bind_iff]
  apply (hShows.holds.ensures_removeDirEntry hSane
    hShows.editing rfl hShows.catalog
    (hShows.mergeable hSane hOrderly) hName.1 hName.2).mono
  rintro result final ⟨V', rows', hFinal, hRemoved⟩
  rw [ensures_pure_iff]
  have hTouched :=
    hRemoved.touched hShows.editing rfl hShows.catalog
  have hCatalog :=
    hRemoved.catalog hShows.editing rfl hShows.catalog
  cases result with
  | none =>
      rcases hRemoved.rows_eq with ⟨hFree, rfl⟩
      have hNone := namesOf_eq_none_iff.mpr hFree
      have hSame :
          Function.update (namesOf rows'.flatten) name none =
            namesOf rows'.flatten := by
        rw [← hNone, Function.update_eq_self]
      have hServes :=
        @DirServes.removed G s number
          (namesOf rows'.flatten) name
      rw [hNone, hSame] at hServes
      exact ⟨V', rows',
        ⟨hFinal, hTouched.editing, hCatalog,
          hShows.distinct⟩,
        hTouched.keeps, hServes⟩
  | some inode =>
      rcases hRemoved.entries_perm with ⟨fileType, hPerm⟩
      have hDistinct :=
        (distinct_iff hPerm).mp hShows.distinct
      have hServes :=
        @DirServes.removed G s number
          (namesOf rows.flatten) name
      have hHere : namesOf rows.flatten name = some inode := by
        rw [namesOf_larger hShows.distinct hPerm,
          Function.update_self]
      rw [hHere, ← namesOf_smaller hShows.distinct hPerm]
        at hServes
      exact ⟨V', rows',
        ⟨hFinal, hTouched.editing, hCatalog, hDistinct.2⟩,
        hTouched.keeps, hServes⟩

/- Every proper call in order is served by the map. -/
theorem ensures_call
    (hSane : Sane G)
    (hShows : DirShows G V s number rows)
    {call : DirCall}
    (hProper : call.Proper)
    (hOrderly : call.Orderly s number) :
    Ensures stops (call.run number) s fun reply final =>
      DirFollows G V s number rows call reply final := by
  unfold DirCall.run
  rw [ensures_bind_iff, ensures_get_iff, ensures_bind_iff,
    ensures_lift_iff, hShows.readInode_eq hSane, yields_ok_iff]
  cases call with
  | find name => exact hShows.ensures_find hSane hProper
  | isEmpty => exact hShows.ensures_isEmpty hSane
  | add name child fileType =>
      exact hShows.ensures_add hSane hProper.1 hProper.2.1
        hProper.2.2.1 hProper.2.2.2
  | remove name =>
      exact hShows.ensures_remove hSane hProper hOrderly

end DirShows

end Ext2

end Whirliscope

------------------------------------------------------------
-- Runs of Calls
------------------------------------------------------------

namespace Whirliscope

namespace Ext2

open ByteMemory FaultProgram Records

section

variable {G : Geometry} {V V' V'' : Volume} {s final : State}
variable {dirs : Nat → Prop} {number other : Nat}
variable {rows : Nat → List (List DirRecord)}

/- An edit of one inode can go on at another one. -/
theorem Editing.elsewhere
    (hEditing : Editing G V number (V.inodes number))
    (hAllocated : Allocated G V other) :
    Editing G V other (V.inodes other) where
  allocated := hAllocated
  metadata := hEditing.metadata
  separates := by
    have hSeparates := hEditing.separates
    rw [Volume.refsWith_inodes] at hSeparates ⊢
    exact hSeparates

/- A directory besides the one that a call is on. -/
theorem DirShows.elsewhere
    {row : List (List DirRecord)}
    (hShows : DirShows G V s other row)
    (hKeeps : KeepsOthers G V V' number)
    (hOther : other ≠ number)
    (hHolds : Holds G V' final)
    (hEditing : Editing G V' number (V'.inodes number)) :
    DirShows G V' final other row where
  holds := hHolds
  editing :=
    hEditing.elsewhere (hKeeps.allocated hShows.editing.allocated)
  catalog := by
    have hInode := hKeeps.inodes other hOther
    apply hShows.catalog.congr
    · rw [hInode]
    · rw [hInode]
    · intro index hIndex
      exact ⟨hKeeps.pointer hOther hShows.editing.allocated _,
        hKeeps.contents other hOther hShows.editing.allocated
          _ (hShows.catalog.mapped index hIndex)⟩
  distinct := hShows.distinct

/- The inodes outside of some directories, and their bytes. -/
structure KeepsOutside
    (G : Geometry)
    (V V' : Volume)
    (dirs : Nat → Prop) : Prop where
  inodeUsed : V'.inodeUsed = V.inodeUsed
  inodes :
    ∀ other, ¬ dirs other → V'.inodes other = V.inodes other
  bytes :
    ∀ other, ¬ dirs other → Allocated G V other →
      ∀ offset,
        V'.fileByte G (V'.inodes other) offset =
          V.fileByte G (V.inodes other) offset

theorem KeepsOthers.outside
    (hKeeps : KeepsOthers G V V' number)
    (hDir : dirs number) :
    KeepsOutside G V V' dirs where
  inodeUsed := hKeeps.inodeUsed
  inodes := fun other hOutside =>
    hKeeps.inodes other fun hSame => hOutside (hSame ▸ hDir)
  bytes := fun _ hOutside hAllocated =>
    hKeeps.fileByte (fun hSame => hOutside (hSame ▸ hDir))
      hAllocated

theorem KeepsOutside.trans
    (hFirst : KeepsOutside G V V' dirs)
    (hSecond : KeepsOutside G V' V'' dirs) :
    KeepsOutside G V V'' dirs where
  inodeUsed := hSecond.inodeUsed.trans hFirst.inodeUsed
  inodes := fun other hOutside =>
    (hSecond.inodes other hOutside).trans
      (hFirst.inodes other hOutside)
  bytes := by
    intro other hOutside hAllocated offset
    have hAllocated' : Allocated G V' other := by
      unfold Allocated
      rw [hFirst.inodeUsed]
      exact hAllocated
    exact (hSecond.bytes other hOutside hAllocated'
      offset).trans (hFirst.bytes other hOutside hAllocated
        offset)

/- Directories of a volume side by side. -/
structure DirsShow
    (G : Geometry)
    (V : Volume)
    (s : State)
    (dirs : Nat → Prop)
    (rows : Nat → List (List DirRecord)) : Prop where
  holds : Holds G V s
  shows :
    ∀ number, dirs number →
      DirShows G V s number (rows number)

namespace DirsShow

/- A call on one of the directories. -/
theorem follow
    {rows' : List (List DirRecord)}
    (hShows : DirsShow G V s dirs rows)
    (hShows' : DirShows G V' final number rows')
    (hKeeps : KeepsOthers G V V' number) :
    DirsShow G V' final dirs
      (Function.update rows number rows') where
  holds := hShows'.holds
  shows := by
    intro other hDir
    by_cases hSame : other = number
    · subst hSame
      rw [Function.update_self]
      exact hShows'
    · rw [Function.update_of_ne hSame]
      exact (hShows.shows other hDir).elsewhere hKeeps hSame
        hShows'.holds hShows'.editing

/- A run on the directories, by induction on the calls. -/
theorem runs
    (hSane : Sane G)
    (hShows : DirsShow G V s dirs rows)
    {calls : List (Nat × DirCall)}
    (hProper :
      ∀ call ∈ calls, dirs call.1 ∧ call.2.Proper)
    (hOrderly : OrderlyRun calls s) :
    ∃ replies final V' rows',
      Returns (runDirCalls calls) s replies final ∧
        DirsShow G V' final dirs rows' ∧
        KeepsOutside G V V' dirs ∧
        DirServesAll G s (allNames rows) calls replies final
          (allNames rows') := by
  induction calls generalizing s V rows with
  | nil =>
      exact ⟨[], s, V, rows, rfl, hShows,
        ⟨rfl, fun _ _ => rfl, fun _ _ _ _ => rfl⟩, .nil s _⟩
  | cons head calls ih =>
      rcases head with ⟨number, call⟩
      rw [List.forall_mem_cons] at hProper
      rcases hProper with ⟨⟨hDir, hCall⟩, hProper⟩
      rcases ((hShows.shows number hDir).ensures_call hSane
          hCall hOrderly.1).exists_returns with
        ⟨reply, middle, hReturns, V₁, rows₁, hShows₁, hKeeps,
          hServes⟩
      rcases ih (hShows.follow hShows₁ hKeeps) hProper
          (hOrderly.2 reply middle hReturns) with
        ⟨replies, final, V₂, rows₂, hRun, hShows₂, hKeeps',
          hRest⟩
      rw [allNames_update] at hRest
      refine ⟨reply :: replies, final, V₂, rows₂, ?_, hShows₂,
        (hKeeps.outside hDir).trans hKeeps',
        .cons hReturns hServes hRest⟩
      unfold runDirCalls
      rw [returns_bind_iff]
      refine ⟨reply, middle, hReturns, ?_⟩
      rw [returns_bind_iff]
      exact ⟨replies, final, hRun, rfl⟩

end DirsShow

/-
  On a well-owned volume every run of searches, checks for
  emptiness, additions and removals in order acts on the
  directories as on finite maps from names to inodes, one for
  each of them. The records keep tiling the blocks, and no
  other file changes.
-/
theorem runDirCalls_serves
    (hSane : Sane G)
    (hHolds : Holds G V s)
    (hWell : WellOwned G V)
    (hAllocated :
      ∀ number, dirs number → Allocated G V number)
    (hCatalog :
      ∀ number, dirs number →
        Catalog G V (V.inodes number) (rows number))
    (hDistinct :
      ∀ number, dirs number →
        (keys (rows number).flatten).Nodup)
    {calls : List (Nat × DirCall)}
    (hProper :
      ∀ call ∈ calls, dirs call.1 ∧ call.2.Proper)
    (hOrderly : OrderlyRun calls s) :
    ∃ replies final V' rows',
      Returns (runDirCalls calls) s replies final ∧
        Holds G V' final ∧
        (∀ number, dirs number →
          Catalog G V' (V'.inodes number) (rows' number) ∧
            (keys (rows' number).flatten).Nodup) ∧
        KeepsOutside G V V' dirs ∧
        DirServesAll G s (allNames rows) calls replies final
          (allNames rows') := by
  have hShows : DirsShow G V s dirs rows :=
    ⟨hHolds, fun number hDir =>
      ⟨hHolds, hWell.editing (hAllocated number hDir),
        hCatalog number hDir, hDistinct number hDir⟩⟩
  rcases hShows.runs hSane hProper hOrderly with
    ⟨replies, final, V', rows', hRun, hShows', hKeeps, hAll⟩
  exact ⟨replies, final, V', rows', hRun, hShows'.holds,
    fun number hDir =>
      ⟨(hShows'.shows number hDir).catalog,
        (hShows'.shows number hDir).distinct⟩,
    hKeeps, hAll⟩

end

/- The records of the root directory of the small volume. -/
def smallRow : List DirRecord :=
  [{ size := 12, entry := some ([46], 2, 2) },
    { size := 12, entry := some ([46, 46], 2, 2) },
    { size := 12, entry := some ([102], 11, 1) },
    { size := 988, entry := some ([103], 11, 1) }]

theorem smallRow_catalog :
    Catalog smallGeometry smallVolume (smallVolume.inodes 2)
      [smallRow] where
  kind := by decide
  filled := by decide
  size := by decide
  mapped := by
    intro index hIndex
    rw [Nat.lt_one_iff.mp hIndex]
    decide
  tiled := by
    intro index row hRow
    have hZero : index = 0 := by
      have hLess := (List.getElem?_eq_some_iff.mp hRow).1
      exact Nat.lt_one_iff.mp hLess
    subst hZero
    injection hRow with hRow
    subst hRow
    unfold smallRow
    refine ⟨rfl, ⟨by decide, ?_⟩, rfl, ⟨by decide, ?_⟩, rfl,
      ⟨by decide, ?_⟩, rfl, ⟨by decide, ?_⟩, rfl⟩ <;>
      · intro entry hEntry
        injection hEntry with hEntry
        subst hEntry
        decide

/- A removal, an addition, a search and a check. -/
def smallDirCalls : List (Nat × DirCall) :=
  [(2, .remove [103]), (2, .add [104] 11 1),
    (2, .find [104]), (2, .isEmpty)]

theorem smallDirCalls_orderly :
    OrderlyRun smallDirCalls smallState := by
  have hShows :
      DirShows smallGeometry smallVolume smallState 2
        [smallRow] :=
    ⟨smallState_holds,
      smallState_wellOwned.editing smallVolume_root,
      smallRow_catalog, by decide⟩
  refine ⟨⟨_, hShows.readsRecords smallGeometry_sane, ?_⟩,
    ?_⟩
  · decide
  · intro _ _ _
    refine ⟨trivial, ?_⟩
    intro _ _ _
    refine ⟨trivial, ?_⟩
    intro _ _ _
    refine ⟨trivial, ?_⟩
    intro _ _ _
    exact trivial

theorem smallDirCalls_proper :
    ∀ call ∈ smallDirCalls, call.1 = 2 ∧ call.2.Proper := by
  intro call hMem
  simp only [smallDirCalls, List.mem_cons, List.not_mem_nil,
    or_false] at hMem
  rcases hMem with rfl | rfl | rfl | rfl
  · exact ⟨rfl, by decide, by decide⟩
  · exact ⟨rfl, ⟨by decide, by decide⟩, by decide, by decide,
      by decide⟩
  · exact ⟨rfl, by decide, by decide⟩
  · exact ⟨rfl, trivial⟩

theorem smallDirCalls_serve :
    ∃ replies final V' rows',
      Returns (runDirCalls smallDirCalls) smallState replies
          final ∧
        Holds smallGeometry V' final ∧
        (∀ number, number = 2 →
          Catalog smallGeometry V' (V'.inodes number)
              (rows' number) ∧
            (keys (rows' number).flatten).Nodup) ∧
        KeepsOutside smallGeometry smallVolume V' (· = 2) ∧
        DirServesAll smallGeometry smallState
          (allNames fun _ => [smallRow]) smallDirCalls replies
          final (allNames rows') := by
  refine runDirCalls_serves smallGeometry_sane smallState_holds
    smallState_wellOwned ?_ ?_ ?_ smallDirCalls_proper
    smallDirCalls_orderly
  · rintro number rfl
    exact smallVolume_root
  · rintro number rfl
    exact smallRow_catalog
  · rintro number -
    decide

/-
  Out of order: the record of ".." is unused, and that of "f"
  comes after it. The space of "f" goes to ".", whose record
  then ends where that of "f" begins, and "f" is still there.
-/
def strayState : State :=
  { smallState with
    image := putLE smallImage (7 * 1024 + 12) 4 0 }

example :
    ((runDirCalls
          [(2, .remove [102]), (2, .find [102])]).run
        strayState).toOption.map Prod.fst =
      some [.removed (some 11), .found (some 11)] := by
  decide +kernel

end Ext2

end Whirliscope
