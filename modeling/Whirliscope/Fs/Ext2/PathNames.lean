import Mathlib.Data.List.Induction
import Whirliscope.Fs.Ext2.BlockFormat
import Whirliscope.Fs.Ext2.DirectoryScan
import Whirliscope.Fs.Ext2.Operations

/-
  Paths and the names on them.

  A lookup scans its path forwards, name by name; the parent
  of a path is found by a scan backwards. Both agree on what
  the last name is and on where it is looked for.

  Key definitions include:
    * `lookupNames`
    * `Splits`
    * `Refuses`

  Main theorem:
    * `lookups_agree`
-/

------------------------------------------------------------
-- Looking Up Names
------------------------------------------------------------

namespace Whirliscope

namespace Ext2

open ByteMemory FaultProgram Components

/- Go from an inode to the entry of a name in it. -/
def lookupVisit
    (s : State)
    (current : Inode × Nat)
    (name : List UInt8) :
    Except Fault ((Inode × Nat) ⊕ Option (Inode × Nat)) := do
  let some nextInode ← findInDir s current.1 name
    | return .inr none
  let some next ← readInode s nextInode
    | return .inr none
  return .inl (next, nextInode)

/- Go from an inode along a list of names. -/
def lookupNames
    (s : State)
    (names : List (List UInt8))
    (start : Inode × Nat) :
    Except Fault (Option (Inode × Nat)) :=
  walk (lookupVisit s) names start >>=
    Sum.elim (fun last => pure (some last)) pure

/- A step that goes on found a readable inode. -/
theorem lookupVisit_eq_inl_iff
    {s : State}
    {current next : Inode × Nat}
    {name : List UInt8} :
    lookupVisit s current name = .ok (.inl next) ↔
      findInDir s current.1 name = .ok (some next.2) ∧
        readInode s next.2 = .ok (some next.1) := by
  unfold lookupVisit
  rw [bind_eq_ok_iff]
  constructor
  · rintro ⟨found, hFound, hRest⟩
    cases found with
    | none => cases hRest
    | some nextInode =>
        dsimp only at hRest
        rw [bind_eq_ok_iff] at hRest
        rcases hRest with ⟨inode, hInode, hRest⟩
        cases inode with
        | none => cases hRest
        | some inode =>
            cases hRest
            exact ⟨hFound, hInode⟩
  · rintro ⟨hFound, hInode⟩
    refine ⟨some next.2, hFound, ?_⟩
    dsimp only
    rw [hInode]
    rfl

/- A step that ends the walk found nothing. -/
theorem lookupVisit_inr
    {s : State}
    {current : Inode × Nat}
    {name : List UInt8}
    {result : Option (Inode × Nat)}
    (hStep :
      lookupVisit s current name = .ok (.inr result)) :
    result = none := by
  unfold lookupVisit at hStep
  rw [bind_eq_ok_iff] at hStep
  rcases hStep with ⟨found, _, hStep⟩
  cases found with
  | none =>
      cases hStep
      rfl
  | some nextInode =>
      dsimp only at hStep
      rw [bind_eq_ok_iff] at hStep
      rcases hStep with ⟨next, _, hStep⟩
      cases next with
      | none =>
          cases hStep
          rfl
      | some next => cases hStep

theorem walk_lookupVisit_inr
    {s : State}
    {names : List (List UInt8)}
    {start : Inode × Nat}
    {result : Option (Inode × Nat)}
    (hWalk :
      walk (lookupVisit s) names start =
        .ok (.inr result)) :
    result = none := by
  induction names generalizing start with
  | nil => cases hWalk
  | cons name names ih =>
      rw [walk, bind_eq_ok_iff] at hWalk
      rcases hWalk with ⟨step, hStep, hRest⟩
      cases step with
      | inl next => exact ih hRest
      | inr exit =>
          cases hRest
          exact lookupVisit_inr hStep

theorem lookupNames_eq_some_iff
    {s : State}
    {names : List (List UInt8)}
    {start last : Inode × Nat} :
    lookupNames s names start = .ok (some last) ↔
      walk (lookupVisit s) names start =
        .ok (.inl last) := by
  unfold lookupNames
  rw [bind_eq_ok_iff]
  constructor
  · rintro ⟨walked, hWalk, hRest⟩
    cases walked with
    | inl found =>
        cases hRest
        exact hWalk
    | inr result =>
        cases hRest
        cases walk_lookupVisit_inr hWalk
  · intro hWalk
    exact ⟨_, hWalk, rfl⟩

/- The last name is looked for where the others lead. -/
theorem lookupNames_concat_iff
    {s : State}
    {names : List (List UInt8)}
    {name : List UInt8}
    {start last : Inode × Nat} :
    lookupNames s (names ++ [name]) start =
        .ok (some last) ↔
      ∃ dir, lookupNames s names start = .ok (some dir) ∧
        findInDir s dir.1 name = .ok (some last.2) ∧
        readInode s last.2 = .ok (some last.1) := by
  simp only [lookupNames_eq_some_iff]
  rw [walk_append, bind_eq_ok_iff]
  constructor
  · rintro ⟨walked, hWalk, hRest⟩
    cases walked with
    | inr result => cases hRest
    | inl dir =>
        rw [Sum.elim_inl, walk, bind_eq_ok_iff] at hRest
        rcases hRest with ⟨step, hStep, hRest⟩
        cases step with
        | inr result => cases hRest
        | inl next =>
            cases hRest
            exact ⟨dir, hWalk,
              lookupVisit_eq_inl_iff.mp hStep⟩
  · rintro ⟨dir, hWalk, hStep⟩
    refine ⟨_, hWalk, ?_⟩
    rw [Sum.elim_inl, walk, lookupVisit_eq_inl_iff.mpr hStep]
    rfl

theorem lookupNames_append
    {s : State}
    {first second : List (List UInt8)}
    {start middle : Inode × Nat}
    (hFirst :
      lookupNames s first start = .ok (some middle)) :
    lookupNames s (first ++ second) start =
      lookupNames s second middle := by
  unfold lookupNames
  rw [walk_append, lookupNames_eq_some_iff.mp hFirst]
  rfl

/- A name whose inode can be read is found. -/
theorem isSome_of_lookupNames_singleton
    {s : State}
    {name : List UInt8}
    {start : Inode × Nat}
    {looked : Option (Inode × Nat)}
    (hFound :
      ∀ found, findInDir s start.1 name = .ok found →
        ∃ number inode, found = some number ∧
          readInode s number = .ok (some inode))
    (hLooked : lookupNames s [name] start = .ok looked) :
    looked.isSome = true := by
  unfold lookupNames walk lookupVisit at hLooked
  rw [bind_eq_ok_iff] at hLooked
  rcases hLooked with ⟨walked, hWalk, hEnd⟩
  rw [bind_eq_ok_iff] at hWalk
  rcases hWalk with ⟨step, hStep, hWalk⟩
  rw [bind_eq_ok_iff] at hStep
  rcases hStep with ⟨found, hFind, hStep⟩
  rcases hFound found hFind with
    ⟨number, inode, hNumber, hRead⟩
  subst hNumber
  dsimp only at hStep
  rw [hRead] at hStep
  cases hStep
  cases hWalk
  cases hEnd
  rfl

/- One pass of the lookup loop is one step of the walk. -/
theorem lookupComponent_eq
    (s : State)
    {cursor : List UInt8}
    (hFirst : cursor.takeWhile (· != slash) ≠ [])
    (accumulator : Inode × Nat) :
    lookupComponent s (cursor, accumulator) =
      lookupVisit s accumulator
          (cursor.takeWhile (· != slash)) >>=
        Sum.elim
          (fun next =>
            pure (.inl
              ((cursor.dropWhile (· != slash)).dropWhile
                (· == slash), next)))
          fun result => pure (.inr result) := by
  rcases accumulator with ⟨current, currentInode⟩
  have hCursor : cursor.isEmpty = false := by
    cases cursor with
    | nil => exact absurd rfl hFirst
    | cons char rest => rfl
  unfold lookupComponent lookupVisit
  simp only [hCursor, Bool.false_eq_true, if_false,
    List.length_eq_zero_iff, hFirst]
  cases findInDir s current
      (cursor.takeWhile (· != slash)) with
  | error fault => rfl
  | ok found =>
      cases found with
      | none => rfl
      | some nextInode =>
          cases hNext : readInode s nextInode with
          | error fault =>
              simp only [bind, Except.bind, hNext]
          | ok next =>
              simp only [bind, Except.bind, hNext]
              cases next with
              | none => rfl
              | some next => rfl

/- A path names the inode that its components lead to. -/
theorem pathLookup_eq
    {s : State}
    {chars : List UInt8}
    (hMounted : ext2Mounted s = true)
    (hAbsolute : chars.head? = some slash) :
    pathLookup s (some chars) = (do
      let some root ← readInode s rootInode
        | return none
      lookupNames s (components slash chars)
        (root, rootInode)) := by
  unfold pathLookup
  simp only [hMounted, Bool.not_true, Bool.false_eq_true,
    if_false, hAbsolute, ne_eq, not_true_eq_false]
  cases readInode s rootInode with
  | error fault => rfl
  | ok found =>
      cases found with
      | none => rfl
      | some root =>
          change loop _ (lookupComponent s) _
              (chars.dropWhile (· == slash), root,
                rootInode) =
            lookupNames s (components slash chars)
              (root, rootInode)
          refine loop_walk slash (lookupVisit s) some ?_ ?_ chars
            (root, rootInode) (Nat.lt_succ_self _)
          · intro accumulator
            rfl
          · intro cursor accumulator hFirst
            exact lookupComponent_eq s hFirst accumulator

end Ext2

end Whirliscope

------------------------------------------------------------
-- The Last Name of a Path
------------------------------------------------------------

namespace Whirliscope

namespace Ext2

open ByteMemory FaultProgram Components

/-
  A path is its parent, a slash, its last name, and slashes
  that do not count.
-/
def Splits
    (chars parent name : List UInt8) : Prop :=
  slash ∉ name ∧ name ≠ [] ∧
    ∃ count,
      chars =
        parent ++ slash :: name ++
          List.replicate count slash

/- The last slash of a text and what follows it. -/
theorem exists_last_slash
    {chars : List UInt8}
    (hSlash : slash ∈ chars) :
    ∃ front tail,
      chars = front ++ slash :: tail ∧ slash ∉ tail := by
  rcases List.eq_append_cons_of_mem
      (List.mem_reverse.mpr hSlash) with
    ⟨tail, front, hEq, hTail⟩
  refine ⟨front.reverse, tail.reverse, ?_, by simpa using hTail⟩
  have hBack := congrArg List.reverse hEq
  simpa using hBack

/- Every path with a component has a last name. -/
theorem exists_splits
    {chars : List UInt8}
    (hAbsolute : chars.head? = some slash)
    (hNames : components slash chars ≠ []) :
    ∃ parent name, Splits chars parent name := by
  induction chars using List.reverseRecOn with
  | nil => cases hAbsolute
  | append_singleton front char ih =>
      by_cases hFront : front = []
      · subst hFront
        have hChar : char = slash := by
          simpa using hAbsolute
        subst hChar
        exact absurd (components_cons slash []) hNames
      · have hHead : front.head? = some slash := by
          rwa [List.head?_append_of_ne_nil _ hFront]
            at hAbsolute
        by_cases hChar : char = slash
        · subst hChar
          have hBefore : components slash front ≠ [] := by
            simpa using hNames
          rcases ih hHead hBefore with
            ⟨parent, name, hSlash, hName, count, hEq⟩
          refine ⟨parent, name, hSlash, hName, count + 1, ?_⟩
          rw [List.replicate_succ', ← List.append_assoc,
            ← hEq]
        · rcases exists_last_slash
              (List.mem_of_mem_head? hHead) with
            ⟨parent, tail, hEq, hTail⟩
          refine ⟨parent, tail ++ [char], ?_, by simp, 0, ?_⟩
          · simp [hTail, Ne.symm hChar]
          · simp [hEq]

section

variable {chars parent name : List UInt8}

/- The last name comes after the names of the parent. -/
theorem Splits.components_eq
    (hSplits : Splits chars parent name) :
    components slash chars =
      components slash parent ++ [name] := by
  rcases hSplits with ⟨hSlash, hName, count, rfl⟩
  cases count with
  | zero =>
      rw [List.replicate_zero, List.append_nil,
        components_append, components_of_not_mem hSlash hName]
  | succ count =>
      rw [List.replicate_succ, components_append,
        components_append, components_of_not_mem hSlash hName,
        components_replicate, List.append_nil]

/- The path of a parent; the root is a slash. -/
def pathOfParent
    (parent : List UInt8) : List UInt8 :=
  if parent = [] then [slash] else parent

theorem Splits.pathOfParent_head
    (hSplits : Splits chars parent name)
    (hAbsolute : chars.head? = some slash) :
    (pathOfParent parent).head? = some slash := by
  rcases hSplits with ⟨_, _, count, rfl⟩
  unfold pathOfParent
  split_ifs with hParent
  · rfl
  · rwa [List.append_assoc,
      List.head?_append_of_ne_nil _ hParent] at hAbsolute

theorem pathOfParent_components
    (parent : List UInt8) :
    components slash (pathOfParent parent) =
      components slash parent := by
  unfold pathOfParent
  split_ifs with hParent
  · rw [hParent, components_cons]
  · rfl

/- The scan from the end stops behind the last name. -/
theorem Splits.trimLength_eq
    (hSplits : Splits chars parent name) :
    trimLength chars chars.length =
      parent.length + 1 + name.length := by
  rcases hSplits with ⟨hSlash, hName, count, hEq⟩
  have hLength :
      chars.length =
        parent.length + 1 + name.length + count := by
    simp [hEq]
    omega
  have hPos : 0 < name.length :=
    List.length_pos_iff.mpr hName
  have hLast :
      chars[parent.length + name.length]? ≠ some slash := by
    intro hChar
    rw [hEq, List.append_assoc,
      List.getElem?_append_right (by omega),
      Nat.add_sub_cancel_left, List.cons_append,
      List.getElem?_cons, if_neg (by omega),
      List.getElem?_append_left (by omega)] at hChar
    exact hSlash (List.mem_of_getElem? hChar)
  have hSlashes :
      ∀ extra, extra < count →
        chars[parent.length + 1 + name.length + extra]? =
          some slash := by
    intro extra hExtra
    rw [hEq, List.getElem?_append_right (by simp; omega)]
    simp only [List.length_append, List.length_cons]
    rw [List.getElem?_replicate, if_pos (by omega)]
  have hTrim :
      ∀ extra, extra ≤ count →
        trimLength chars
            (parent.length + 1 + name.length + extra) =
          parent.length + 1 + name.length := by
    intro extra
    induction extra with
    | zero =>
        intro _
        rw [Nat.add_zero]
        obtain ⟨short, hShort⟩ :
            ∃ short,
              parent.length + 1 + name.length = short + 2 :=
          ⟨parent.length + name.length - 1, by omega⟩
        have hIndex :
            short + 1 = parent.length + name.length := by
          omega
        rw [hShort, trimLength, if_neg (by rwa [hIndex])]
    | succ extra ih =>
        intro hExtra
        obtain ⟨short, hShort⟩ :
            ∃ short,
              parent.length + 1 + name.length + extra =
                short + 1 :=
          ⟨parent.length + name.length + extra, by omega⟩
        have hChar := hSlashes extra (by omega)
        rw [hShort] at hChar ih
        rw [← Nat.add_assoc, hShort, trimLength,
          if_pos hChar]
        exact ih (by omega)
  rw [hLength]
  exact hTrim count (Nat.le_refl count)

/- The scan on from there stops at the last slash. -/
theorem Splits.lastSlash_eq
    (hSplits : Splits chars parent name) :
    lastSlash chars (parent.length + name.length) =
      parent.length := by
  rcases hSplits with ⟨hSlash, hName, count, hEq⟩
  have hAt : chars[parent.length]? = some slash := by
    simp [hEq]
  have hInside :
      ∀ index, index < name.length →
        chars[parent.length + index + 1]? ≠ some slash := by
    intro index hIndex hChar
    rw [hEq, List.append_assoc,
      List.getElem?_append_right (by omega)] at hChar
    have hOffset :
        parent.length + index + 1 - parent.length =
          index + 1 := by
      omega
    rw [hOffset, List.cons_append, List.getElem?_cons_succ,
      List.getElem?_append_left hIndex] at hChar
    exact hSlash (List.mem_of_getElem? hChar)
  have hScan :
      ∀ index, index ≤ name.length →
        lastSlash chars (parent.length + index) =
          parent.length := by
    intro index
    induction index with
    | zero =>
        intro _
        rw [Nat.add_zero]
        cases hLength : parent.length with
        | zero => rfl
        | succ short =>
            rw [hLength] at hAt
            rw [lastSlash, if_neg (by simpa using hAt)]
    | succ index ih =>
        intro hIndex
        rw [← Nat.add_assoc, lastSlash,
          if_pos (hInside index (by omega))]
        exact ih (by omega)
  exact hScan name.length (Nat.le_refl _)

/- What `split_parent_path` makes of such a path. -/
theorem Splits.splitParentPath_eq
    (hSplits : Splits chars parent name)
    (hAbsolute : chars.head? = some slash)
    (hFits : parent.length < userFsPathSize) :
    splitParentPath (some chars) =
      if name.length > nameLen then none
      else
        some (pathOfParent parent, name) := by
  have hTrim := hSplits.trimLength_eq
  have hLast := hSplits.lastSlash_eq
  rcases hSplits with ⟨hSlash, hName, count, hEq⟩
  have hPos : 0 < name.length :=
    List.length_pos_iff.mpr hName
  have hTake :
      (chars.take (parent.length + 1 + name.length)).drop
          (parent.length + 1) =
        name := by
    rw [List.drop_take, hEq]
    simp
  have hParent : chars.take parent.length = parent := by
    rw [hEq]
    simp
  have hBefore :
      parent.length + 1 + name.length - 1 =
        parent.length + name.length := by
    omega
  unfold splitParentPath
  have hLong : ¬ parent.length + 1 + name.length ≤ 1 := by
    omega
  have hRoom : ¬ parent.length + 1 > userFsPathSize := by
    omega
  simp only [Option.bind_eq_bind, Option.bind_some,
    hAbsolute, hTrim, hBefore, hLast, hTake, hParent, hLong,
    hRoom, List.length_eq_zero_iff, hName, false_or, ne_eq,
    not_true_eq_false, if_false]
  by_cases hName : name.length > nameLen
  · simp [hName]
  · by_cases hRoot : parent = []
    · simp [hName, hRoot, pathOfParent]
    · simp [hName, hRoot, pathOfParent]

end

end Ext2

end Whirliscope

------------------------------------------------------------
-- Two Ways to Look Up a Path
------------------------------------------------------------

namespace Whirliscope

namespace Ext2

open ByteMemory FaultProgram Components

section

variable {s : State}
variable {chars parent name : List UInt8}

theorem pathLookup_eq_some_iff
    {last : Inode × Nat}
    (hMounted : ext2Mounted s = true)
    (hAbsolute : chars.head? = some slash) :
    pathLookup s (some chars) = .ok (some last) ↔
      ∃ root, readInode s rootInode = .ok (some root) ∧
        lookupNames s (components slash chars)
          (root, rootInode) = .ok (some last) := by
  rw [pathLookup_eq hMounted hAbsolute, bind_eq_ok_iff]
  constructor
  · rintro ⟨found, hRoot, hNames⟩
    cases found with
    | none => cases hNames
    | some root => exact ⟨root, hRoot, hNames⟩
  · rintro ⟨root, hRoot, hNames⟩
    exact ⟨some root, hRoot, hNames⟩

/- Only a directory is searched, for a name that fits. -/
theorem findInDir_eq_some
    {dir : Inode}
    {number : Nat}
    (hFound : findInDir s dir name = .ok (some number)) :
    dir.isDir = true ∧ name.length ≤ nameLen := by
  unfold findInDir at hFound
  split_ifs at hFound with hReject
  · cases hFound
  · cases hFound
  · simp only [not_or] at hReject
    exact ⟨by simpa using hReject.1, by omega⟩

theorem parentLookup_eq_some_iff
    {found : ParentLookup}
    (hAbsolute : chars.head? = some slash)
    (hSplits : Splits chars parent name)
    (hFits : parent.length < userFsPathSize) :
    parentLookup s (some chars) = .ok (some found) ↔
      name.length ≤ nameLen ∧ found.name = name ∧
        found.parent.isDir = true ∧
        pathLookup s (some (pathOfParent parent)) =
          .ok (some (found.parent, found.parentInode)) := by
  unfold parentLookup
  rw [hSplits.splitParentPath_eq hAbsolute hFits]
  by_cases hLong : name.length > nameLen
  · simp only [hLong, if_true]
    constructor
    · intro hNone
      cases hNone
    · rintro ⟨hShort, _⟩
      omega
  simp only [hLong, if_false]
  rw [bind_eq_ok_iff]
  constructor
  · rintro ⟨looked, hLooked, hRest⟩
    cases looked with
    | none => cases hRest
    | some dir =>
        rcases dir with ⟨dir, number⟩
        dsimp only at hRest
        split_ifs at hRest with hDir
        · cases hRest
        · cases hRest
          exact ⟨by omega, rfl, by simpa using hDir, hLooked⟩
  · rintro ⟨_, hName, hDir, hLooked⟩
    refine ⟨_, hLooked, ?_⟩
    dsimp only
    rw [if_neg (by simpa using hDir)]
    rcases found with ⟨dir, number, foundName⟩
    cases hName
    rfl

/- The forward and the backward scan find the same inode. -/
theorem Splits.pathLookup_iff
    {inode : Inode}
    {number : Nat}
    (hSplits : Splits chars parent name)
    (hMounted : ext2Mounted s = true)
    (hAbsolute : chars.head? = some slash)
    (hFits : parent.length < userFsPathSize) :
    pathLookup s (some chars) = .ok (some (inode, number)) ↔
      ∃ found,
        parentLookup s (some chars) = .ok (some found) ∧
          findInDir s found.parent found.name =
            .ok (some number) ∧
          readInode s number = .ok (some inode) := by
  simp only [pathLookup_eq_some_iff hMounted hAbsolute,
    hSplits.components_eq, lookupNames_concat_iff,
    parentLookup_eq_some_iff hAbsolute hSplits hFits,
    pathLookup_eq_some_iff hMounted
      (hSplits.pathOfParent_head hAbsolute),
    pathOfParent_components]
  constructor
  · rintro ⟨root, hRoot, dir, hDir, hFound, hInode⟩
    rcases findInDir_eq_some hFound with ⟨hIsDir, hLength⟩
    exact ⟨⟨dir.1, dir.2, name⟩,
      ⟨hLength, rfl, hIsDir, root, hRoot, hDir⟩, hFound,
      hInode⟩
  · rintro ⟨found, ⟨_, hName, _, root, hRoot, hDir⟩, hFound,
      hInode⟩
    rw [hName] at hFound
    exact ⟨root, hRoot, _, hDir, hFound, hInode⟩

end

end Ext2

end Whirliscope

------------------------------------------------------------
-- Names Already Present
------------------------------------------------------------

namespace Whirliscope

namespace Ext2

open ByteMemory FaultProgram Components

/-
  Every run of a call that returns reports bad arguments and
  leaves the state as it was.
-/
def Refuses
    (call : Ext2M Int)
    (s : State) : Prop :=
  Ensures (fun _ => True) call s fun result final =>
    result = userErrInval ∧ final = s

section

variable {s : State} {path : CString}

/- A creation that finds its path goes no further. -/
theorem creation_refuses
    {next : Ext2M Int}
    (hFound :
      ∀ looked,
        pathLookup s (some path.1) = .ok looked →
          looked.isSome = true) :
    Refuses (do
      if (← pathLookup (← get)
          ((some path).map (·.1))).isSome then
        return userErrInval
      next) s := by
  unfold Refuses
  rw [ensures_bind_iff, ensures_get_iff, Option.map_some,
    ensures_bind_iff, ensures_lift_iff]
  cases hLooked : pathLookup s (some path.1) with
  | error fault => exact Yields.error trivial
  | ok looked =>
      rw [yields_ok_iff, if_pos (hFound looked hLooked),
        ensures_pure_iff]
      exact ⟨rfl, rfl⟩

theorem createFile_refuses
    (hFound :
      ∀ looked,
        pathLookup s (some path.1) = .ok looked →
          looked.isSome = true) :
    Refuses (ext2CreateFile (some path)) s :=
  creation_refuses hFound

theorem mkdir_refuses
    (hFound :
      ∀ looked,
        pathLookup s (some path.1) = .ok looked →
          looked.isSome = true) :
    Refuses (ext2Mkdir (some path)) s :=
  creation_refuses hFound

/-
  A live record with the last name of the path, whose inode
  can be read, makes the path resolve.
-/
theorem Splits.pathLookup_of_named
    {parent name : List UInt8}
    {found : ParentLookup}
    {records : List Record}
    {ending : ScanEnd}
    {record : Record}
    {looked : Option (Inode × Nat)}
    (hSplits : Splits path.1 parent name)
    (hMounted : ext2Mounted s = true)
    (hSize : BlockSizeAccepted s)
    (hAbsolute : path.1.head? = some slash)
    (hFits : parent.length < userFsPathSize)
    (hParent :
      parentLookup s (some path.1) = .ok (some found))
    (hRecords :
      directoryRecords s found.parent =
        .ok (records, ending))
    (hReadable :
      ∀ other ∈ records, other.Named found.name →
        ∃ inode,
          readInode s other.inode = .ok (some inode))
    (hMem : record ∈ records)
    (hNamed : record.Named found.name)
    (hLooked : pathLookup s (some path.1) = .ok looked) :
    looked.isSome = true := by
  have hBuffer := hSize.le_directoryBuffer
  rcases (parentLookup_eq_some_iff hAbsolute hSplits
      hFits).mp hParent with
    ⟨hShort, hName, hDir, hDirLooked⟩
  have hNonempty : name ≠ [] := hSplits.2.1
  rw [hName] at hNamed hReadable
  rcases (pathLookup_eq_some_iff hMounted
      (hSplits.pathOfParent_head hAbsolute)).mp hDirLooked with
    ⟨root, hRoot, hDirNames⟩
  rw [pathOfParent_components] at hDirNames
  rw [pathLookup_eq hMounted hAbsolute, hRoot,
    hSplits.components_eq] at hLooked
  change lookupNames s _ (root, rootInode) = _ at hLooked
  rw [lookupNames_append hDirNames] at hLooked
  apply isSome_of_lookupNames_singleton _ hLooked
  intro result hResult
  rcases findInDir_of_named hDir hNonempty hShort hBuffer
      hRecords hMem hNamed hResult with
    ⟨first, hFirst, hFirstNamed, hFound⟩
  rcases hReadable first hFirst hFirstNamed with
    ⟨inode, hInode⟩
  exact ⟨first.inode, inode, hFound, hInode⟩

/-
  A directory holds a name: the search finds a readable inode
  under it, or the records that the search comes to have it,
  all with readable inodes.
-/
def Taken
    (s : State)
    (dir : Inode)
    (name : List UInt8) : Prop :=
  (∃ number inode,
    findInDir s dir name = .ok (some number) ∧
      readInode s number = .ok (some inode)) ∨
  (∃ records ending,
    directoryRecords s dir = .ok (records, ending) ∧
      (∃ record ∈ records, record.Named name) ∧
      ∀ record ∈ records, record.Named name →
        ∃ inode,
          readInode s record.inode = .ok (some inode))

/-
  Both ways to look up a path agree, whatever its slashes,
  and a name that is taken is not given a second time.
-/
theorem lookups_agree
    (hMounted : ext2Mounted s = true)
    (hSize : BlockSizeAccepted s)
    (hAbsolute : path.1.head? = some slash)
    (hNames : components slash path.1 ≠ [])
    (hFits :
      ∀ parent name, Splits path.1 parent name →
        parent.length < userFsPathSize) :
    (∀ number,
      (∃ inode,
        pathLookup s (some path.1) =
          .ok (some (inode, number))) ↔
        ∃ found,
          parentLookup s (some path.1) = .ok (some found) ∧
            findInDir s found.parent found.name =
              .ok (some number) ∧
            ∃ inode,
              readInode s number = .ok (some inode)) ∧
      ∀ found,
        parentLookup s (some path.1) = .ok (some found) →
          Taken s found.parent found.name →
            Refuses (ext2CreateFile (some path)) s ∧
              Refuses (ext2Mkdir (some path)) s := by
  rcases exists_splits hAbsolute hNames with
    ⟨parent, name, hSplits⟩
  have hRoom := hFits parent name hSplits
  constructor
  · intro number
    constructor
    · rintro ⟨inode, hLooked⟩
      rcases (hSplits.pathLookup_iff hMounted hAbsolute
          hRoom).mp hLooked with
        ⟨found, hParent, hFound, hInode⟩
      exact ⟨found, hParent, hFound, inode, hInode⟩
    · rintro ⟨found, hParent, hFound, inode, hInode⟩
      exact ⟨inode, (hSplits.pathLookup_iff hMounted
        hAbsolute hRoom).mpr
          ⟨found, hParent, hFound, hInode⟩⟩
  intro found hParent hTaken
  have hFound :
      ∀ looked,
        pathLookup s (some path.1) = .ok looked →
          looked.isSome = true := by
    intro looked hLooked
    rcases hTaken with
      ⟨number, inode, hFind, hInode⟩ |
      ⟨records, ending, hRecords, ⟨record, hMem, hNamed⟩,
        hReadable⟩
    · have hSome :=
        (hSplits.pathLookup_iff hMounted hAbsolute hRoom).mpr
          ⟨found, hParent, hFind, hInode⟩
      rw [hSome] at hLooked
      cases hLooked
      rfl
    · exact hSplits.pathLookup_of_named hMounted hSize
        hAbsolute hRoom hParent hRecords hReadable hMem
        hNamed hLooked
  exact ⟨createFile_refuses hFound, mkdir_refuses hFound⟩

/- The file `/f` is there already. -/
theorem sampleState_refuses :
    Refuses (ext2CreateFile (some samplePath)) sampleState ∧
      Refuses (ext2Mkdir (some samplePath)) sampleState := by
  have hAgree :=
    @lookups_agree sampleState samplePath rfl
      ⟨0, by decide, rfl⟩ rfl (by decide)
      (by
        rintro parent name ⟨_, _, count, hEq⟩
        have hLength := congrArg List.length hEq
        simp only [List.length_append, List.length_cons]
          at hLength
        have hTwo : samplePath.1.length = 2 := rfl
        unfold userFsPathSize
        omega)
  rcases (hAgree.1 12).mp ⟨sampleFile, sampleState_lookup⟩ with
    ⟨found, hParent, hFound, inode, hInode⟩
  exact hAgree.2 found hParent
    (.inl ⟨12, inode, hFound, hInode⟩)

end

end Ext2

end Whirliscope
