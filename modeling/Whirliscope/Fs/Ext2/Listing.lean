import Mathlib.Data.List.Pairwise
import Whirliscope.Fs.Ext2.PathNames

/-
  Listing a directory, against what its names resolve to.

  The listing and the lookup of a path are separate walks
  over the records of a directory. With well-formed records
  they agree on the entries and on what each entry is.

  Key definitions include:
    * `WellFormedDir`
    * `listedRecords`, `direntOf`
    * `NamesChild`

  Main theorem:
    * `listDir_agrees_stat`
-/

------------------------------------------------------------
-- Types of Entries
------------------------------------------------------------

namespace Whirliscope

namespace Ext2

open ByteMemory FaultProgram Components

/- The entry type that the format has for an inode. -/
def Inode.entryType
    (inode : Inode) : Nat :=
  match inode.mode &&& 0xf000 with
  | 0x8000 => 1
  | 0x4000 => 2
  | 0x2000 => 3
  | 0x6000 => 4
  | 0x1000 => 5
  | 0xc000 => 6
  | 0xa000 => 7
  | _ => 0

/- The type that `ext2_stat` reports. -/
def Inode.statType
    (inode : Inode) : Nat :=
  if inode.isDir then userFsTypeDir
  else if inode.isFile then userFsTypeFile
  else userFsTypeUnknown

/- Bits of the mode below the format's type bits. -/
theorem mode_and
    (mode : Nat)
    {bit : Nat}
    (hBit : 0xf000 &&& bit = bit) :
    mode &&& bit = (mode &&& 0xf000) &&& bit := by
  rw [Nat.and_assoc, hBit]

theorem Inode.isDir_of_entryType
    {inode : Inode}
    (hType : inode.entryType = userFsTypeDir) :
    inode.isDir = true := by
  unfold entryType userFsTypeDir at hType
  have hMode : inode.mode &&& 0xf000 = 0x4000 := by
    split at hType <;> first | assumption | cases hType
  unfold isDir sIfdir
  rw [mode_and inode.mode (by decide), hMode]
  decide

theorem Inode.isFile_of_entryType
    {inode : Inode}
    (hType : inode.entryType = userFsTypeFile) :
    inode.isDir = false ∧ inode.isFile = true := by
  unfold entryType userFsTypeFile at hType
  have hMode : inode.mode &&& 0xf000 = 0x8000 := by
    split at hType <;> first | assumption | cases hType
  unfold isDir isFile sIfdir sIfreg
  constructor
  · rw [mode_and inode.mode (by decide), hMode]
    decide
  · rw [mode_and inode.mode (by decide), hMode]
    decide

/-
  A listing takes the type from the entry first and from the
  inode second. It is the inode's own type when the entry
  leaves the type open or has it right.
-/
theorem userFileType_eq
    {inode : Inode}
    {direntType : Nat}
    (hType : direntType = 0 ∨ direntType = inode.entryType) :
    userFileType inode direntType = inode.statType := by
  unfold userFileType Inode.statType
  by_cases hDir : inode.isDir = true
  · simp [hDir]
  have hNotDir : direntType ≠ userFsTypeDir := by
    rintro rfl
    rcases hType with hZero | hSame
    · cases hZero
    · exact hDir (Inode.isDir_of_entryType hSame.symm)
  by_cases hFile : inode.isFile = true
  · simp [hDir, hNotDir, hFile]
  have hNotFile : direntType ≠ userFsTypeFile := by
    rintro rfl
    rcases hType with hZero | hSame
    · cases hZero
    · exact hFile (Inode.isFile_of_entryType hSame.symm).2
  simp [hDir, hNotDir, hFile, hNotFile]

end Ext2

end Whirliscope

------------------------------------------------------------
-- Well-Formed Directories
------------------------------------------------------------

namespace Whirliscope

namespace Ext2

open ByteMemory FaultProgram Components

/- `.` and `..`. -/
def dot : List UInt8 := [46]
def dotDot : List UInt8 := [46, 46]

/- Two live records have different names. -/
def Record.Apart
    (first second : Record) : Prop :=
  first.inode ≠ 0 → second.inode ≠ 0 →
    first.name ≠ second.name

instance : Std.Symm Record.Apart where
  symm := fun _ _ hApart hSecond hFirst hSame =>
    hApart hFirst hSecond hSame.symm

instance (record : Record) : Decidable record.HasRoom :=
  inferInstanceAs (Decidable (_ → _))

instance : DecidableRel Record.Apart :=
  fun _ _ => inferInstanceAs (Decidable (_ → _))

/-
  A directory whose records can all be read: a live record is
  long enough for its name, no two of them have the same
  name, names are names of a path that fit into an entry of a
  listing, and the entries name inodes of their types.
-/
structure WellFormedDir
    (s : State)
    (dir : Inode)
    (records : List Record) : Prop where
  isDir : dir.isDir = true
  scanned : directoryRecords s dir = .ok (records, .finished)
  room : ∀ record ∈ records, record.HasRoom
  unique : records.Pairwise Record.Apart
  names :
    ∀ record ∈ records, record.inode ≠ 0 →
      record.name ≠ [] ∧ slash ∉ record.name ∧
        0 ∉ record.name ∧
        record.name.length < userFsNameSize
  children :
    ∀ record ∈ records, record.inode ≠ 0 →
      ∃ child,
        readInode s record.inode = .ok (some child) ∧
          (record.fileType = 0 ∨
            record.fileType = child.entryType)

/- A live record that a listing shows. -/
def Record.Listed
    (record : Record) : Prop :=
  record.inode ≠ 0 ∧ record.name ≠ dot ∧
    record.name ≠ dotDot

instance (record : Record) : Decidable record.Listed :=
  inferInstanceAs (Decidable (_ ∧ _))

/- The records that a listing shows, in their order. -/
def listedRecords
    (records : List Record) : List Record :=
  records.filter fun record => record.Listed

/- What a listing has for a record. -/
def direntOf
    (s : State)
    (record : Record) : UserFsDirent :=
  let child :=
    match readInode s record.inode with
    | .ok (some child) => child
    | _ => Inode.zero
  { inode := record.inode
    type := child.statType
    size := child.size
    name := record.name }

/- A path of a name in the directory of a path. -/
def NamesChild
    (path : CString)
    (name : List UInt8)
    (full : CString) : Prop :=
  full.1.head? = some slash ∧
    components slash full.1 =
      components slash path.1 ++ [name]

section

variable {s : State} {dir : Inode} {records : List Record}

/- A live record is the one that its name is found at. -/
theorem WellFormedDir.find_name
    (hFormed : WellFormedDir s dir records)
    {record : Record}
    (hMem : record ∈ records)
    (hLive : record.inode ≠ 0) :
    records.find? (·.Named record.name) = some record := by
  have hSome :
      (records.find? (·.Named record.name)).isSome := by
    rw [List.find?_isSome]
    exact ⟨record, hMem, decide_eq_true ⟨hLive, rfl⟩⟩
  rcases Option.isSome_iff_exists.mp hSome with
    ⟨first, hFirst⟩
  have hNamed : first.Named record.name := by
    simpa using List.find?_some hFirst
  have hFirstMem := List.mem_of_find?_eq_some hFirst
  rw [hFirst, Option.some.injEq]
  by_contra hDiffer
  have hApart :=
    hFormed.unique.forall hFirstMem hMem hDiffer
  exact hApart hNamed.1 hLive hNamed.2

/- A name of the directory resolves to its record's inode. -/
theorem WellFormedDir.findInDir_name
    (hFormed : WellFormedDir s dir records)
    (hSize : BlockSizeAccepted s)
    {record : Record}
    (hMem : record ∈ records)
    (hLive : record.inode ≠ 0) :
    findInDir s dir record.name =
      .ok (some record.inode) := by
  rcases hFormed.names record hMem hLive with
    ⟨hName, -, -, hShort⟩
  unfold userFsNameSize at hShort
  rw [findInDir_eq hFormed.isDir hName
    (by unfold nameLen; omega) hSize.le_directoryBuffer
    hFormed.scanned hFormed.room, hFormed.find_name hMem hLive]
  rfl

/- The record of a name that is found. -/
theorem WellFormedDir.of_findInDir
    (hFormed : WellFormedDir s dir records)
    (hSize : BlockSizeAccepted s)
    {name : List UInt8}
    {number : Nat}
    (hName : name ≠ [])
    (hFound : findInDir s dir name = .ok (some number)) :
    ∃ record ∈ records, record.Named name ∧
      record.inode = number := by
  rw [findInDir_eq hFormed.isDir hName
    (findInDir_eq_some hFound).2 hSize.le_directoryBuffer
    hFormed.scanned hFormed.room, Except.ok.injEq,
    Option.map_eq_some_iff] at hFound
  rcases hFound with ⟨record, hFind, hNumber⟩
  refine ⟨record, List.mem_of_find?_eq_some hFind, ?_,
    hNumber⟩
  simpa using List.find?_some hFind

end

end Ext2

end Whirliscope

------------------------------------------------------------
-- The Walk of a Listing
------------------------------------------------------------

namespace Whirliscope

namespace Ext2

open ByteMemory FaultProgram Components

section

variable {s : State} {dir : Inode} {records : List Record}

/- Whether a live record is one of the dots. -/
theorem Record.InBuffer.entryIsDots_eq
    {record : Record}
    (hBuffer : record.InBuffer)
    (hRoom : record.HasRoom)
    (hLive : record.inode ≠ 0) :
    record.1.entryIsDots record.2 =
      .ok (decide (record.name = dot ∨
        record.name = dotDot)) := by
  have hDots :
      ∀ expected,
        record.nameLength = expected.length →
          record.1.matchesBytes (record.2 + 8) expected =
            .ok (decide (record.name = expected)) := by
    intro expected hLength
    have hEqual := hBuffer.namesEqual_eq hRoom hLive expected
    unfold View.namesEqual at hEqual
    rw [hBuffer.entryNameLen_eq] at hEqual
    simp only [bind, Except.bind, hLength, ne_eq,
      not_true_eq_false, if_false] at hEqual
    exact hEqual
  have hName := record.length_name
  unfold View.entryIsDots
  rw [hBuffer.entryNameLen_eq]
  simp only [bind, Except.bind]
  by_cases hOne : record.nameLength = 1
  · have hNotTwo : record.name ≠ dotDot := by
      intro hSame
      rw [hSame, hOne] at hName
      cases hName
    simp only [hOne, if_true, hNotTwo, or_false]
    exact hDots dot hOne
  have hNotOne : record.name ≠ dot := by
    intro hSame
    rw [hSame] at hName
    exact hOne hName.symm
  by_cases hTwo : record.nameLength = 2
  · simp only [hOne, hTwo, if_true, if_false, hNotOne,
      false_or]
    exact hDots dotDot hTwo
  have hNotTwo : record.name ≠ dotDot := by
    intro hSame
    rw [hSame] at hName
    exact hTwo hName.symm
  simp [hOne, hTwo, hNotOne, hNotTwo]
  rfl

/- The entry that the listing writes for a record. -/
theorem WellFormedDir.listEntry_eq
    (hFormed : WellFormedDir s dir records)
    (hSize : BlockSizeAccepted s)
    {record : Record}
    (hMem : record ∈ records)
    (hLive : record.inode ≠ 0) :
    listEntry s record.1 record.2 record.inode =
      .ok (direntOf s record) := by
  have hBuffer :=
    inBuffer_of_mem hSize.le_directoryBuffer hFormed.scanned
      record hMem
  have hInside := hBuffer.inside
  have hFits := hFormed.room record hMem hLive
  have hShort := (hFormed.names record hMem hLive).2.2.2
  rw [record.length_name] at hShort
  rcases hFormed.children record hMem hLive with
    ⟨child, hChild, hType⟩
  have hLength :
      min record.nameLength (userFsNameSize - 1) =
        record.nameLength := by
    omega
  have hBytes :
      record.1.loadBytes (record.2 + 8) record.nameLength =
        .ok (slice record.1.bytes (record.2 + 8)) := by
    unfold View.loadBytes
    rw [hBuffer.extent, if_pos (by omega)]
  unfold listEntry direntOf
  simp only [hChild, hBuffer.entryNameLen_eq,
    hBuffer.entryFileType_eq, bind, Except.bind, hLength,
    hBytes, Option.getD_some, userFileType_eq hType]
  rfl

/- What the listing does at a record. -/
theorem WellFormedDir.listVisit_eq
    (hFormed : WellFormedDir s dir records)
    (hSize : BlockSizeAccepted s)
    {record : Record}
    (hMem : record ∈ records)
    (maxEntries : Nat)
    (written : List UserFsDirent) :
    listVisit s maxEntries record.1 written record.2 =
      .ok (if record.Listed then
        if written.length ≥ maxEntries then
          .inr ((written.length : Int), written)
        else
          .inl (written ++ [direntOf s record])
      else
        .inl written) := by
  have hBuffer :=
    inBuffer_of_mem hSize.le_directoryBuffer hFormed.scanned
      record hMem
  unfold listVisit
  rw [hBuffer.entryInode_eq]
  simp only [bind, Except.bind]
  by_cases hLive : record.inode = 0
  · have hNot : ¬ record.Listed := fun hListed =>
      hListed.1 hLive
    rw [if_pos hLive, if_neg hNot]
    rfl
  rw [if_neg hLive,
    hBuffer.entryIsDots_eq (hFormed.room record hMem) hLive]
  by_cases hDots : record.name = dot ∨ record.name = dotDot
  · have hNot : ¬ record.Listed := fun hListed =>
      hDots.elim hListed.2.1 hListed.2.2
    rw [if_neg hNot]
    simp only [hDots, decide_true, if_true]
    rfl
  · have hListed : record.Listed := by
      rw [not_or] at hDots
      exact ⟨hLive, hDots.1, hDots.2⟩
    rw [if_pos hListed]
    simp only [hDots, decide_false, Bool.false_eq_true,
      if_false]
    split_ifs with hFull
    · rfl
    · rw [hFormed.listEntry_eq hSize hMem hLive]
      rfl

/-
  The walk writes an entry for each listed record until the
  entries are used up.
-/
theorem WellFormedDir.walk_listVisit
    (hFormed : WellFormedDir s dir records)
    (hSize : BlockSizeAccepted s)
    {maxEntries : Nat}
    {suffix : List Record}
    (hSuffix : ∀ record ∈ suffix, record ∈ records)
    {written : List UserFsDirent}
    (hRoom : written.length ≤ maxEntries) :
    ∃ entries,
      entries =
          written ++
            ((listedRecords suffix).take
              (maxEntries - written.length)).map
                (direntOf s) ∧
        (walk (visitRecord (listVisit s maxEntries)) suffix
              written = .ok (.inl entries) ∨
          walk (visitRecord (listVisit s maxEntries)) suffix
              written =
            .ok (.inr ((entries.length : Int), entries))) := by
  induction suffix generalizing written with
  | nil => exact ⟨written, by simp [listedRecords], .inl rfl⟩
  | cons record rest ih =>
      have hRest :
          ∀ other ∈ rest, other ∈ records := fun other hMem =>
        hSuffix other (List.mem_cons_of_mem _ hMem)
      have hVisit :=
        hFormed.listVisit_eq hSize
          (hSuffix record List.mem_cons_self) maxEntries
          written
      rw [walk, visitRecord, hVisit]
      unfold listedRecords
      by_cases hListed : record.Listed
      · rw [if_pos hListed,
          List.filter_cons_of_pos (by simpa using hListed)]
        by_cases hFull : written.length ≥ maxEntries
        · have hNone : maxEntries - written.length = 0 := by
            omega
          rw [if_pos hFull]
          refine ⟨written, by simp [hNone], .inr ?_⟩
          rfl
        · rw [if_neg hFull]
          have hLess :
              (written ++ [direntOf s record]).length ≤
                maxEntries := by
            rw [List.length_append, List.length_singleton]
            omega
          have hLeft :
              maxEntries - written.length =
                maxEntries -
                    (written ++ [direntOf s record]).length +
                  1 := by
            rw [List.length_append, List.length_singleton]
            omega
          rcases ih hRest hLess with ⟨entries, hEntries, hWalk⟩
          refine ⟨entries, ?_, hWalk⟩
          rw [hEntries, hLeft, List.take_succ_cons,
            List.map_cons, List.append_assoc]
          rfl
      · rw [if_neg hListed,
          List.filter_cons_of_neg (by simpa using hListed)]
        exact ih hRest hRoom

/- The entries that a listing writes. -/
theorem WellFormedDir.ext2ListDir_eq
    (hFormed : WellFormedDir s dir records)
    (hSize : BlockSizeAccepted s)
    {path : CString}
    {number : Nat}
    (hDir :
      pathLookup s (some path.1) = .ok (some (dir, number)))
    (maxEntries : Nat) :
    ∃ entries,
      entries =
          ((listedRecords records).take maxEntries).map
            (direntOf s) ∧
        ext2ListDir s (some path) maxEntries =
          .ok ((entries.length : Int), entries) := by
  have hNone :
      ([] : List UserFsDirent).length ≤ maxEntries :=
    Nat.zero_le maxEntries
  rcases hFormed.walk_listVisit hSize
      (fun _ hMem => hMem) hNone with
    ⟨entries, hEntries, hWalk⟩
  refine ⟨entries, hEntries, ?_⟩
  unfold ext2ListDir
  rw [Option.map_some, hDir]
  simp only [bind, Except.bind, hFormed.isDir, Bool.not_true,
    Bool.false_eq_true, if_false,
    Nat.not_lt.mpr hSize.le_directoryBuffer, gt_iff_lt]
  rw [scanDirectory_eq _ _ _ _ hFormed.scanned]
  rcases hWalk with hWalk | hWalk
  · rw [hWalk]
    rfl
  · rw [hWalk]
    rfl

end

end Ext2

end Whirliscope

------------------------------------------------------------
-- Listing Against Looking Up
------------------------------------------------------------

namespace Whirliscope

namespace Ext2

open ByteMemory FaultProgram Components

/- A path that resolves is absolute, on a mounted image. -/
theorem absolute_of_pathLookup
    {s : State}
    {chars : List UInt8}
    {found : Inode × Nat}
    (hFound : pathLookup s (some chars) = .ok (some found)) :
    ext2Mounted s = true ∧ chars.head? = some slash := by
  unfold pathLookup at hFound
  by_cases hMounted : ext2Mounted s = true
  · by_cases hAbsolute : chars.head? = some slash
    · exact ⟨hMounted, hAbsolute⟩
    · rw [if_neg (by simp [hMounted])] at hFound
      dsimp only at hFound
      rw [if_pos hAbsolute] at hFound
      cases hFound
  · rw [if_pos (by simpa using hMounted)] at hFound
    cases hFound

/- What `ext2_stat` reports for a path that resolves. -/
theorem ext2Stat_eq_some_iff
    {s : State}
    {path : CString}
    {found : UserFsDirent} :
    ext2Stat s (some path) = .ok (0, some found) ↔
      ∃ inode,
        pathLookup s (some path.1) =
            .ok (some (inode, found.inode)) ∧
          found.type = inode.statType ∧
          found.size = inode.size ∧ found.name = [] := by
  unfold ext2Stat
  rw [Option.map_some, bind_eq_ok_iff]
  constructor
  · rintro ⟨looked, hLooked, hRest⟩
    cases looked with
    | none => cases hRest
    | some last =>
        cases hRest
        exact ⟨last.1, hLooked, rfl, rfl, rfl⟩
  · rintro ⟨inode, hLooked, hType, hSize, hName⟩
    refine ⟨_, hLooked, ?_⟩
    rcases found with ⟨number, type, size, name⟩
    dsimp only at hType hSize hName
    rw [hType, hSize, hName]
    rfl

/- The path of a name in a directory, with a slash between. -/
theorem namesChild_append
    {path full : CString}
    {name : List UInt8}
    (hAbsolute : path.1.head? = some slash)
    (hName : name ≠ [])
    (hSlash : slash ∉ name)
    (hFull : full.1 = path.1 ++ slash :: name) :
    NamesChild path name full := by
  unfold NamesChild
  rw [hFull, components_append,
    components_of_not_mem hSlash hName]
  refine ⟨?_, rfl⟩
  rw [List.head?_append_of_ne_nil _ (by
    intro hEmpty
    rw [hEmpty] at hAbsolute
    cases hAbsolute)]
  exact hAbsolute

/-
  A listing of a directory agrees with what the paths of the
  names in the directory resolve to.
-/
structure ListingAgrees
    (s : State)
    (path : CString)
    (records : List Record)
    (maxEntries : Nat)
    (result : Int)
    (entries : List UserFsDirent) : Prop where
  result : result = entries.length
  count :
    entries.length =
      min maxEntries (listedRecords records).length
  ordered :
    (entries.map fun entry => (entry.inode, entry.name)) =
      ((listedRecords records).take maxEntries).map
        fun record => (record.inode, record.name)
  unique : (entries.map (·.name)).Nodup
  stat :
    ∀ entry ∈ entries, ∀ full,
      NamesChild path entry.name full →
        ∃ found,
          ext2Stat s (some full) = .ok (0, some found) ∧
            found.inode = entry.inode ∧
            found.type = entry.type ∧
            found.size = entry.size
  complete :
    entries.length < maxEntries →
      ∀ name full found, NamesChild path name full →
        name ≠ dot → name ≠ dotDot →
          ext2Stat s (some full) = .ok (0, some found) →
            ∃ entry ∈ entries, entry.name = name

section

variable {s : State} {dir : Inode} {records : List Record}
variable {path : CString} {number : Nat}

/- What a path of a name in the directory resolves to. -/
theorem NamesChild.pathLookup_iff
    {full : CString}
    {name : List UInt8}
    {last : Inode × Nat}
    (hChild : NamesChild path name full)
    (hDir :
      pathLookup s (some path.1) = .ok (some (dir, number))) :
    pathLookup s (some full.1) = .ok (some last) ↔
      findInDir s dir name = .ok (some last.2) ∧
        readInode s last.2 = .ok (some last.1) := by
  rcases absolute_of_pathLookup hDir with
    ⟨hMounted, hAbsolute⟩
  rw [pathLookup_eq_some_iff hMounted hAbsolute] at hDir
  rcases hDir with ⟨root, hRoot, hNames⟩
  rw [pathLookup_eq_some_iff hMounted hChild.1, hChild.2]
  simp only [lookupNames_concat_iff]
  constructor
  · rintro ⟨other, hOther, middle, hMiddle, hFound⟩
    rw [hRoot] at hOther
    cases hOther
    rw [hNames] at hMiddle
    cases hMiddle
    exact hFound
  · intro hFound
    exact ⟨root, hRoot, _, hNames, hFound⟩

theorem WellFormedDir.nodup_names
    (hFormed : WellFormedDir s dir records) :
    ((listedRecords records).map Record.name).Nodup := by
  unfold List.Nodup
  rw [List.pairwise_map, listedRecords, List.pairwise_filter]
  apply hFormed.unique.imp
  intro first second hApart hFirst hSecond
  exact hApart (of_decide_eq_true hFirst).1
    (of_decide_eq_true hSecond).1

/- An entry that is written is as `ext2_stat` has it. -/
theorem WellFormedDir.stat_direntOf
    (hFormed : WellFormedDir s dir records)
    (hSize : BlockSizeAccepted s)
    (hDir :
      pathLookup s (some path.1) = .ok (some (dir, number)))
    {record : Record}
    (hMem : record ∈ records)
    (hLive : record.inode ≠ 0)
    {full : CString}
    (hChild : NamesChild path record.name full) :
    ext2Stat s (some full) =
      .ok (0, some { direntOf s record with name := [] }) := by
  rcases hFormed.children record hMem hLive with
    ⟨child, hRead, -⟩
  rw [ext2Stat_eq_some_iff]
  refine ⟨child, ?_, ?_, ?_, rfl⟩
  · exact (hChild.pathLookup_iff hDir).mpr
      ⟨hFormed.findInDir_name hSize hMem hLive, hRead⟩
  · simp only [direntOf, hRead]
  · simp only [direntOf, hRead]

/-
  A listing and the lookups of the names in the directory
  agree, for every limit on the number of entries.
-/
theorem listDir_agrees_stat
    (hSize : BlockSizeAccepted s)
    (hDir :
      pathLookup s (some path.1) = .ok (some (dir, number)))
    (hFormed : WellFormedDir s dir records)
    (maxEntries : Nat) :
    ∃ result entries,
      ext2ListDir s (some path) maxEntries =
          .ok (result, entries) ∧
        ListingAgrees s path records maxEntries result
          entries := by
  rcases hFormed.ext2ListDir_eq hSize hDir maxEntries with
    ⟨entries, hEntries, hList⟩
  have hCount :
      entries.length =
        min maxEntries (listedRecords records).length := by
    rw [hEntries, List.length_map, List.length_take]
  have hLive :
      ∀ record ∈ (listedRecords records).take maxEntries,
        record ∈ records ∧ record.inode ≠ 0 := by
    intro record hMem
    rcases List.mem_filter.mp (List.mem_of_mem_take hMem) with
      ⟨hRecord, hListed⟩
    exact ⟨hRecord, (of_decide_eq_true hListed).1⟩
  refine ⟨_, entries, hList, ?_⟩
  exact
    { result := rfl
      count := hCount
      ordered := by
        rw [hEntries, List.map_map]
        rfl
      unique := by
        have hNames :
            entries.map (·.name) =
              ((listedRecords records).map
                Record.name).take maxEntries := by
          rw [hEntries, List.map_map, List.map_take]
          rfl
        rw [hNames]
        exact hFormed.nodup_names.sublist
          (List.take_sublist _ _)
      stat := by
        intro entry hEntry full hChild
        rw [hEntries] at hEntry
        rcases List.mem_map.mp hEntry with
          ⟨record, hRecord, rfl⟩
        rcases hLive record hRecord with ⟨hMem, hInode⟩
        exact ⟨_, hFormed.stat_direntOf hSize hDir hMem
          hInode hChild, rfl, rfl, rfl⟩
      complete := by
        intro hRoom name full found hChild hDot hDotDot hStat
        rcases ext2Stat_eq_some_iff.mp hStat with
          ⟨inode, hLooked, -⟩
        have hFound :=
          ((hChild.pathLookup_iff hDir).mp hLooked).1
        have hComponent : name ∈ components slash full.1 := by
          rw [hChild.2]
          exact List.mem_append_right _ List.mem_cons_self
        have hName := ne_nil_of_mem_components hComponent
        rcases hFormed.of_findInDir hSize hName hFound with
          ⟨record, hMem, hNamed, -⟩
        have hListed : record ∈ listedRecords records := by
          apply List.mem_filter.mpr
          refine ⟨hMem, decide_eq_true ⟨hNamed.1, ?_, ?_⟩⟩
          · rw [hNamed.2]
            exact hDot
          · rw [hNamed.2]
            exact hDotDot
        refine ⟨direntOf s record, ?_, hNamed.2⟩
        rw [hEntries, List.take_of_length_le (by omega)]
        exact List.mem_map_of_mem hListed }

/- The inode of an entry is there and of the entry's type. -/
def matchesChild
    (s : State)
    (record : Record) : Bool :=
  match readInode s record.inode with
  | .ok (some child) =>
      record.fileType = 0 ∨ record.fileType = child.entryType
  | _ => false

/- The checks of a well-formed directory. -/
def checkDir
    (s : State)
    (dir : Inode) : Bool :=
  match directoryRecords s dir with
  | .ok (records, .finished) =>
      decide (dir.isDir = true) &&
        decide (∀ record ∈ records, record.HasRoom) &&
        decide (records.Pairwise Record.Apart) &&
        decide (∀ record ∈ records, record.inode ≠ 0 →
          record.name ≠ [] ∧ slash ∉ record.name ∧
            0 ∉ record.name ∧
            record.name.length < userFsNameSize) &&
        decide (∀ record ∈ records, record.inode ≠ 0 →
          matchesChild s record = true)
  | _ => false

theorem wellFormedDir_of_checkDir
    (hCheck : checkDir s dir = true) :
    ∃ records, WellFormedDir s dir records := by
  unfold checkDir at hCheck
  split at hCheck
  · rename_i records hScanned
    simp only [Bool.and_eq_true, decide_eq_true_eq] at hCheck
    rcases hCheck with
      ⟨⟨⟨⟨hDir, hRoom⟩, hUnique⟩, hNames⟩, hChildren⟩
    refine ⟨records, hDir, hScanned, hRoom, hUnique, hNames,
      fun record hMem hLive => ?_⟩
    have hMatches := hChildren record hMem hLive
    unfold matchesChild at hMatches
    split at hMatches
    · rename_i child hChild
      exact ⟨child, hChild, by simpa using hMatches⟩
    · cases hMatches
  · cases hCheck

/- A path leads to a directory that passes the check. -/
def checkPath
    (s : State)
    (path : List UInt8) : Bool :=
  match pathLookup s (some path) with
  | .ok (some (dir, _)) => checkDir s dir
  | _ => false

theorem exists_of_checkPath
    {path : List UInt8}
    (hCheck : checkPath s path = true) :
    ∃ dir number records,
      pathLookup s (some path) = .ok (some (dir, number)) ∧
        WellFormedDir s dir records := by
  unfold checkPath at hCheck
  split at hCheck
  · rename_i dir number hDir
    rcases wellFormedDir_of_checkDir hCheck with
      ⟨records, hFormed⟩
    exact ⟨dir, number, records, hDir, hFormed⟩
  · cases hCheck

/- The directory `/` with the file `/f`. -/
def sampleDirPath : CString :=
  ⟨[slash], by decide⟩

theorem sampleState_lists :
    ∃ records result entries,
      ext2ListDir sampleState (some sampleDirPath) 1 =
          .ok (result, entries) ∧
        ListingAgrees sampleState sampleDirPath records 1
          result entries := by
  have hCheck :
      checkPath sampleState sampleDirPath.1 = true := by
    decide
  rcases exists_of_checkPath hCheck with
    ⟨dir, number, records, hDir, hFormed⟩
  exact ⟨records,
    listDir_agrees_stat ⟨0, by decide, rfl⟩ hDir hFormed 1⟩

end

end Ext2

end Whirliscope
