import Whirliscope.Fs.Ext2.Results
import Whirliscope.Fs.Ext2.VolumeImage
import Whirliscope.Fs.Ext2.VolumePaths

/-
  `ext2_write_file` and `ext2_truncate_file` in terms of the
  volume: what they can do to a file, and when they succeed.

  Key definitions include:
    * `Written`
    * `WritebackSucceeds`

  Main theorems:
    * `Holds.ensures_ext2WriteFile`
    * `Holds.ensures_ext2TruncateFile`
    * `sizing_succeeds_iff`
-/

------------------------------------------------------------
-- The Driver Besides the Image
------------------------------------------------------------

namespace Whirliscope

namespace Ext2

open ByteMemory FaultProgram

/- The medium takes every image that it is given. -/
def WritebackSucceeds
    (s : State) : Prop :=
  ∀ writeback, s.writeback = some writeback →
    ∀ image size medium,
      (writeback image size medium).1 = true

/- What no call on a mounted image changes. -/
structure SameDriver
    (s s' : State) : Prop where
  writeback : s'.writeback = s.writeback
  stackBytes : s'.stackBytes = s.stackBytes

theorem SameDriver.refl
    (s : State) :
    SameDriver s s :=
  ⟨rfl, rfl⟩

theorem SameDriver.trans
    {s s' s'' : State}
    (hFirst : SameDriver s s')
    (hSecond : SameDriver s' s'') :
    SameDriver s s'' where
  writeback := hSecond.writeback.trans hFirst.writeback
  stackBytes := hSecond.stackBytes.trans hFirst.stackBytes

theorem WritebackSucceeds.of_same
    {s s' : State}
    (hSucceeds : WritebackSucceeds s)
    (hSame : SameDriver s s') :
    WritebackSucceeds s' := by
  intro writeback hWriteback
  rw [hSame.writeback] at hWriteback
  exact hSucceeds writeback hWriteback

/- Syncing changes nothing but the medium. -/
theorem ensures_ext2Sync
    {stops : Fault → Prop}
    {G : Geometry}
    {V : Volume}
    {s : State}
    (hHolds : Holds G V s) :
    Ensures stops ext2Sync s fun ok final =>
      Holds G V final ∧
        (WritebackSucceeds s → ok = true) := by
  unfold ext2Sync
  rw [ensures_bind_iff, ensures_get_iff, ensures_ite_iff]
  constructor
  · intro hNot
    rw [hHolds.mounted] at hNot
    exact absurd hNot (by decide)
  · intro _
    split
    · rw [ensures_pure_iff]
      exact ⟨hHolds, fun _ => rfl⟩
    · next writeback hWriteback =>
        rw [ensures_bind_iff, ensures_set_iff, ensures_pure_iff]
        refine ⟨?_, fun hSucceeds =>
          hSucceeds writeback hWriteback _ _ _⟩
        exact
          { fsImage := hHolds.fsImage
            superblock := hHolds.superblock
            fsSize := hHolds.fsSize
            blockSize := hHolds.blockSize
            groupCount := hHolds.groupCount
            header := hHolds.header
            descriptors := hHolds.descriptors
            cells := hHolds.cells
            outside := hHolds.outside }

theorem stable_sameDriver
    (s : State) :
    Stable (SameDriver s) fun _ => True where
  image := fun _ _ hSame => ⟨hSame.writeback, hSame.stackBytes⟩
  sync := by
    intro s' hSame
    unfold ext2Sync
    rw [ensures_bind_iff, ensures_get_iff, ensures_ite_iff]
    constructor
    · intro _
      rw [ensures_pure_iff]
      exact ⟨hSame, fun _ => trivial⟩
    · intro _
      split
      · rw [ensures_pure_iff]
        exact ⟨hSame, fun _ => trivial⟩
      · rw [ensures_bind_iff, ensures_set_iff,
          ensures_pure_iff]
        exact ⟨⟨hSame.writeback, hSame.stackBytes⟩,
          fun _ => trivial⟩

/- A fact about a run, and what the run leaves alone. -/
theorem ensures_sameDriver
    {stops : Fault → Prop}
    {α : Type}
    {program : Ext2M α}
    {s : State}
    {post : α → State → Prop}
    (hKeeps : Keeps (SameDriver s) program)
    (hEnsures : Ensures stops program s post) :
    Ensures stops program s fun value final =>
      post value final ∧ SameDriver s final :=
  hEnsures.and (hKeeps s (.refl s))

end Ext2

end Whirliscope

------------------------------------------------------------
-- What the Calls Do
------------------------------------------------------------

namespace Whirliscope

namespace Ext2

open ByteMemory FaultProgram

/-
  All that `ext2_write_file` can do to a regular file, and
  whether the bytes are written.
-/
inductive Written
    (G : Geometry)
    (V : Volume)
    (number : Nat)
    (file : Inode)
    (source : Bytes)
    (len offset : Nat) : Bool → Volume → Prop
| refused
    (hRange : ¬ (offset ≤ file.size ∧ offset + len < 2 ^ 64)) :
    Written G V number file source len offset false V
| full
    {copy : Inode}
    {V' : Volume}
    (hStart : offset ≤ file.size)
    (hRange : offset + len < 2 ^ 64)
    (hMore : file.size < offset + len)
    (hResized :
      Resized G V number file (offset + len) (false, copy)
        V') :
    Written G V number file source len offset false V'
| inside
    {contents : Nat → Bytes}
    (hStop : offset + len ≤ file.size)
    (hStored : Stored G V file source offset len contents) :
    Written G V number file source len offset true
      (V.withContents contents)
| beyond
    {copy : Inode}
    {V' : Volume}
    {contents : Nat → Bytes}
    (hStart : offset ≤ file.size)
    (hRange : offset + len < 2 ^ 64)
    (hMore : file.size < offset + len)
    (hResized :
      Resized G V number file (offset + len) (true, copy) V')
    (hStored : Stored G V' copy source offset len contents) :
    Written G V number file source len offset true
      (V'.withContents contents)

/-
  The result of a call that is done or not. A call that is
  done fails only when the medium does.
-/
def Reports
    (s : State)
    (done : Bool)
    (value code : Int) : Prop :=
  (done = false → code < 0) ∧
    (done = true → code = value ∨ code = userErrFault) ∧
    (done = true → WritebackSucceeds s → code = value)

theorem reports_of_fault
    (s : State)
    (value : Int) :
    Reports s false value userErrFault :=
  ⟨fun _ => by decide, nofun, nofun⟩

theorem reports_of_inval
    (s : State)
    (value : Int) :
    Reports s false value userErrInval :=
  ⟨fun _ => by decide, nofun, nofun⟩

/- Writing an inode back that did not change. -/
theorem Volume.setInode_self
    {V : Volume}
    {number : Nat}
    {file : Inode}
    (hFile : V.inodes number = file) :
    V.setInode number file = V := by
  unfold Volume.setInode
  rw [← hFile, Function.update_eq_self]

section

variable {G : Geometry} {V : Volume} {s s₀ : State}
variable {stops : Fault → Prop}
variable {number : Nat} {file : Inode}

/- The last steps of a call that began in another state. -/
theorem Holds.ensures_syncReply
    (hHolds : Holds G V s)
    (hSame : SameDriver s₀ s)
    (value : Nat) :
    Ensures stops
      (do
        if !(← ext2Sync) then return userErrFault
        return (value : Int))
      s
      fun code final =>
        Holds G V final ∧ Reports s₀ true value code := by
  rw [ensures_bind_iff]
  apply (ensures_ext2Sync hHolds).mono
  rintro ok final ⟨hFinal, hOk⟩
  cases ok with
  | true =>
      simp only [Bool.not_true, Bool.false_eq_true, if_false,
        ensures_pure_iff]
      exact ⟨hFinal, fun hNot => Bool.noConfusion hNot,
        fun _ => .inl rfl, fun _ _ => rfl⟩
  | false =>
      simp only [Bool.not_false, if_true, ensures_pure_iff]
      exact ⟨hFinal, fun hNot => Bool.noConfusion hNot,
        fun _ => .inr rfl, fun _ hSucceeds =>
          absurd (hOk (hSucceeds.of_same hSame)) (by decide)⟩

/- `ext2_write_file` from its copy loop on. -/
theorem Holds.ensures_storeBytes
    (hSane : Sane G)
    (hHolds : Holds G V s)
    (hSame : SameDriver s₀ s)
    (hEditing : Editing G V number file)
    (hFile : V.inodes number = file)
    (hIntact : Intact G V file)
    (source : Bytes)
    {len offset : Nat}
    (hStop : offset + len ≤ file.size) :
    Ensures stops
      (do
        let some file ←
            loop (throw .noReturn)
              (writeChunk source offset len)
              (len + 1) (0, file)
          | return userErrFault
        if !(← writeInode number file) then
          return userErrFault
        if !(← ext2Sync) then return userErrFault
        return (len : Int))
      s
      fun code final =>
        ∃ contents,
          Stored G V file source offset len contents ∧
            Holds G (V.withContents contents) final ∧
            Reports s₀ true len code := by
  have hStable := stable_sameDriver s
  rw [ensures_bind_iff]
  apply (ensures_sameDriver (hStable.keeps_writeLoop _ _ _ _)
    (hHolds.ensures_writeLoop hSane hEditing hIntact source
      hStop)).mono
  rintro result s₁
    ⟨⟨rfl, contents, hStored, hHolds₁⟩, hSame₁⟩
  have hStable₁ := stable_sameDriver s₁
  rw [ensures_bind_iff]
  apply (ensures_sameDriver (hStable₁.keeps_writeInode _ _)
    (hHolds₁.ensures_writeInode hSane hEditing.allocated.1
      file)).mono
  rintro written s₂ ⟨⟨rfl, hHolds₂⟩, hSame₂⟩
  have hUnchanged :
      (V.withContents contents).setInode number file =
        V.withContents contents :=
    Volume.setInode_self hFile
  have hHolds₃ : Holds G (V.withContents contents) s₂ := by
    rw [← hUnchanged]
    exact hHolds₂
  simp only [Bool.not_true, Bool.false_eq_true, if_false]
  apply (hHolds₃.ensures_syncReply
    ((hSame.trans hSame₁).trans hSame₂) len).mono
  rintro code final ⟨hFinal, hReports⟩
  exact ⟨contents, hStored, hFinal, hReports⟩

/- `ext2_write_file` on a path that leads to a file. -/
theorem Holds.ensures_ext2WriteFile
    (hSane : Sane G)
    (hHolds : Holds G V s)
    (hEditing : Editing G V number file)
    (hFile : V.inodes number = file)
    (hIntact : Intact G V file)
    (hRegular : file.isFile = true)
    {path : Option CString}
    (hPath :
      pathLookup s (path.map (·.1)) =
        .ok (some (file, number)))
    {buffer : Option Bytes}
    {len : Nat}
    (hBuffer : buffer = none → len = 0)
    (hLen : len < 2 ^ 64)
    (offset : Nat) :
    Ensures stops (ext2WriteFile path buffer len offset) s
      fun code final =>
        ∃ done V',
          Written G V number file (buffer.getD zeros) len
              offset done V' ∧
            Holds G V' final ∧ Reports s done len code := by
  have hSize := file.size_lt
  have hGiven : ¬ (buffer.isNone = true ∧ len ≠ 0) := by
    rintro ⟨hNone, hSome⟩
    exact hSome (hBuffer (Option.isNone_iff_eq_none.mp hNone))
  unfold ext2WriteFile
  rw [if_neg hGiven]
  simp only [ensures_bind_iff, ensures_get_iff, hPath,
    ensures_lift_iff, yields_ok_iff, hRegular, Bool.not_true,
    Bool.false_eq_true, if_false]
  rw [ensures_ite_iff]
  constructor
  · intro hRefused
    rw [ensures_pure_iff]
    refine ⟨false, V, .refused ?_, hHolds,
      reports_of_inval _ _⟩
    rintro ⟨hStart, hRange⟩
    unfold wrap at hRefused
    rw [Nat.mod_eq_of_lt hRange] at hRefused
    omega
  intro hAccepted
  have hStart : offset ≤ file.size := by omega
  have hRange : offset + len < 2 ^ 64 := by
    by_contra hWraps
    have hWrapped : wrap 64 (offset + len) < offset := by
      unfold wrap
      omega
    exact hAccepted (.inr hWrapped)
  have hFinish : wrap 64 (offset + len) = offset + len :=
    Nat.mod_eq_of_lt hRange
  rw [hFinish]
  by_cases hMore : offset + len > file.size
  · rw [if_pos hMore, ensures_bind_iff]
    apply (ensures_sameDriver
      ((stable_sameDriver s).keeps_resizeInodeData _ _ _)
      (hHolds.ensures_resizeInodeData hSane hEditing
        (fun hRest => hIntact.tail hRest)
        (offset + len))).mono
    rintro ⟨resized, copy⟩ s₁ ⟨⟨V₁, hHolds₁, hResized⟩, hSame₁⟩
    cases resized with
    | false =>
        simp only [Bool.not_false, if_true, ensures_pure_iff]
        exact ⟨false, V₁,
          .full hStart hRange hMore hResized, hHolds₁,
          reports_of_fault _ _⟩
    | true =>
        simp only [Bool.not_true, Bool.false_eq_true, if_false]
        rcases hResized.editing hSane hEditing hIntact with
          ⟨hEditing₁, hFile₁⟩
        have hStop : offset + len ≤ copy.size := by
          rw [(hResized.size_eq hSane).2]
        apply (hHolds₁.ensures_storeBytes hSane hSame₁
          hEditing₁ hFile₁
          (hResized.intact hSane hEditing hIntact)
          (buffer.getD zeros) hStop).mono
        rintro code final ⟨contents, hStored, hFinal, hCode⟩
        exact ⟨true, _,
          .beyond hStart hRange hMore hResized hStored,
          hFinal, hCode⟩
  · rw [if_neg hMore]
    simp only [pure_bind, Bool.not_true, Bool.false_eq_true,
      if_false]
    have hStop : offset + len ≤ file.size := by omega
    apply (hHolds.ensures_storeBytes hSane (.refl s) hEditing
      hFile hIntact (buffer.getD zeros) hStop).mono
    rintro code final ⟨contents, hStored, hFinal, hCode⟩
    exact ⟨true, _, .inside hStop hStored, hFinal, hCode⟩

/- `ext2_truncate_file` on a path that leads to a file. -/
theorem Holds.ensures_ext2TruncateFile
    (hSane : Sane G)
    (hHolds : Holds G V s)
    (hEditing : Editing G V number file)
    (hIntact : Intact G V file)
    (hRegular : file.isFile = true)
    {path : Option CString}
    (hPath :
      pathLookup s (path.map (·.1)) =
        .ok (some (file, number)))
    (size : Nat) :
    Ensures stops (ext2TruncateFile path size) s
      fun code final =>
        ∃ done copy V',
          Resized G V number file size (done, copy) V' ∧
            Holds G V' final ∧ Reports s done 0 code := by
  unfold ext2TruncateFile
  simp only [ensures_bind_iff, ensures_get_iff, hPath,
    ensures_lift_iff, yields_ok_iff, hRegular, Bool.not_true,
    Bool.false_eq_true, if_false]
  apply (ensures_sameDriver
    ((stable_sameDriver s).keeps_resizeInodeData _ _ _)
    (hHolds.ensures_resizeInodeData hSane hEditing
      (fun hRest => hIntact.tail hRest) size)).mono
  rintro ⟨resized, copy⟩ s₁ ⟨⟨V₁, hHolds₁, hResized⟩, hSame₁⟩
  cases resized with
  | false =>
      simp only [Bool.not_false, if_true, ensures_pure_iff]
      exact ⟨false, copy, V₁, hResized, hHolds₁,
        reports_of_fault _ _⟩
  | true =>
      simp only [Bool.not_true, Bool.false_eq_true, if_false,
        ensures_bind_iff]
      apply (ensures_ext2Sync hHolds₁).mono
      rintro ok final ⟨hFinal, hOk⟩
      rw [ensures_pure_iff]
      refine ⟨true, copy, V₁, hResized, hFinal,
        fun hNot => Bool.noConfusion hNot, ?_, ?_⟩
      · intro _
        cases ok with
        | true => exact .inl rfl
        | false => exact .inr rfl
      · intro _ hSucceeds
        rw [hOk (hSucceeds.of_same hSame₁)]
        rfl

end

end Ext2

end Whirliscope

------------------------------------------------------------
-- When the Calls Succeed
------------------------------------------------------------

namespace Whirliscope

namespace Ext2

open ByteMemory FaultProgram Vacancy

/-
  The blocks that growing a file takes: those of its new
  bytes, and the indirect block when it had none.
-/
def Geometry.growthCost
    (G : Geometry)
    (size newSize : Nat) : Nat :=
  G.sizeBlocks newSize - G.sizeBlocks size +
    if G.sizeBlocks size ≤ directBlocks ∧
        directBlocks < G.sizeBlocks newSize then
      1
    else
      0

/- The new size is possible and enough blocks are free. -/
def Volume.HasRoom
    (V : Volume)
    (G : Geometry)
    (size newSize : Nat) : Prop :=
  newSize ≤ G.maxSize ∧
    G.growthCost size newSize ≤ (vacant G.blocks V.used).card

section

variable {G : Geometry} {V : Volume} {s : State}
variable {number : Nat} {file : Inode}

/- A file without holes has an indirect block when it must. -/
theorem Shaped.indirect_eq_zero_iff
    (hSane : Sane G)
    (hShaped : Shaped G V file) :
    file.block 12 = 0 ↔ G.sizeBlocks file.size ≤ directBlocks := by
  constructor
  · intro hNone
    by_contra hMore
    have hLess :=
      (@Sane.lt_sizeBlocks_iff G file.size hSane
        directBlocks).mp (Nat.lt_of_not_le hMore)
    apply (hShaped.mapped directBlocks).mp hLess
    exact Volume.pointer_entry_of_none hNone 0
  · intro hFew
    by_contra hSome
    have hLess := hShaped.indirect hSome
    have hMore :=
      (hSane.lt_sizeBlocks_iff directBlocks).mpr hLess
    omega

theorem Shaped.size_le
    (hShaped : Shaped G V file) :
    file.size ≤ G.maxSize := by
  by_contra hBig
  have hLess : (directBlocks + G.entries) * G.blockSize < file.size :=
    Nat.lt_of_not_le hBig
  apply (hShaped.mapped _).mp hLess
  unfold Volume.fileBlock
  rw [fileSlot_of_le (Nat.le_add_right _ _)]
  exact Volume.pointer_entry_of_le (by omega)

theorem Shaped.spaceNeeded_eq
    (hSane : Sane G)
    (hShaped : Shaped G V file)
    (newSize : Nat) :
    spaceNeeded file (G.sizeBlocks file.size)
        (G.sizeBlocks newSize) =
      G.growthCost file.size newSize := by
  unfold spaceNeeded Geometry.growthCost
  have hIndirect := hShaped.indirect_eq_zero_iff hSane
  congr 1
  apply if_congr _ rfl rfl
  rw [hIndirect]
  constructor
  · rintro ⟨hFew, -, hMany⟩
    exact ⟨hFew, hMany⟩
  · rintro ⟨hFew, hMany⟩
    exact ⟨hFew, by omega, hMany⟩

/- A resize succeeds exactly when there is room for it. -/
theorem Resized.done_iff
    (hSane : Sane G)
    (hEditing : Editing G V number file)
    (hCounts : BlockCounts G V)
    (hShaped : Shaped G V file)
    {newSize : Nat}
    {done : Bool}
    {copy : Inode}
    {V' : Volume}
    (hResized :
      Resized G V number file newSize (done, copy) V') :
    done = true ↔
      newSize ≤ file.size ∨ V.HasRoom G file.size newSize := by
  have hSucceeds :=
    hResized.succeeds_iff hSane hEditing hCounts hShaped.size_le
      fun fileBlock hPast => by
        by_contra hSome
        have hLess := (hShaped.mapped fileBlock).mpr hSome
        omega
  rw [hShaped.spaceNeeded_eq hSane, hCounts.total] at hSucceeds
  exact hSucceeds

theorem Written.done_iff
    (hSane : Sane G)
    (hEditing : Editing G V number file)
    (hCounts : BlockCounts G V)
    (hShaped : Shaped G V file)
    {source : Bytes}
    {len offset : Nat}
    {done : Bool}
    {V' : Volume}
    (hWritten :
      Written G V number file source len offset done V') :
    done = true ↔
      offset ≤ file.size ∧ offset + len < 2 ^ 64 ∧
        (offset + len ≤ file.size ∨
          V.HasRoom G file.size (offset + len)) := by
  have hSmall := file.size_lt
  cases hWritten with
  | refused hRange =>
      refine ⟨nofun, fun hDone => ?_⟩
      exact absurd ⟨hDone.1, hDone.2.1⟩ hRange
  | full hStart hRange hMore hResized =>
      rw [hResized.done_iff hSane hEditing hCounts hShaped]
      exact ⟨fun hRoom => ⟨hStart, hRange, hRoom⟩,
        fun hDone => hDone.2.2⟩
  | inside hStop hStored =>
      exact ⟨fun _ => ⟨by omega, by omega, .inl hStop⟩,
        fun _ => rfl⟩
  | beyond hStart hRange hMore hResized hStored =>
      rw [hResized.done_iff hSane hEditing hCounts hShaped]
      exact ⟨fun hRoom => ⟨hStart, hRange, hRoom⟩,
        fun hDone => hDone.2.2⟩

/- With a medium that works, a call that is done succeeds. -/
theorem Reports.nonneg_iff
    {done : Bool}
    {value : Nat}
    {code : Int}
    (hSucceeds : WritebackSucceeds s)
    (hReports : Reports s done value code) :
    0 ≤ code ↔ done = true := by
  rcases hReports with ⟨hFailed, -, hDone⟩
  cases done with
  | true =>
      rw [hDone rfl hSucceeds]
      exact ⟨fun _ => rfl, fun _ => Int.natCast_nonneg value⟩
  | false =>
      have hNegative := hFailed rfl
      exact ⟨fun hCode => by omega, nofun⟩

theorem Inode.IsRegular.isFile
    (hRegular : file.IsRegular) :
    file.isFile = true := by
  unfold Inode.isFile
  rw [decide_eq_true_eq, ← hRegular]
  unfold Inode.IsRegular at hRegular
  have hMask : 0xf000 &&& sIfreg = sIfreg := by decide
  rw [hRegular]
  calc
    file.mode &&& sIfreg
      = file.mode &&& (0xf000 &&& sIfreg) := by rw [hMask]
    _ = file.mode &&& 0xf000 &&& sIfreg :=
        (Nat.and_assoc _ _ _).symm
    _ = sIfreg := by rw [hRegular, Nat.and_self]

/-
  On a regular file, a write succeeds exactly when its range
  is valid and there is room for the bytes past the end, and a
  truncation exactly when it shrinks the file or there is room
  for the blocks that are missing.
-/
theorem sizing_succeeds_iff
    (hSane : Sane G)
    (hHolds : Holds G V s)
    (hWell : WellOwned G V)
    (hCounts : BlockCounts G V)
    (hSucceeds : WritebackSucceeds s)
    {path : CString}
    (hPath :
      pathLookup s (some path.1) = .ok (some (file, number)))
    (hAllocated : Allocated G V number)
    (hRegular : file.IsRegular)
    {buffer : Option Bytes}
    {len : Nat}
    (hBuffer : buffer = none → len = 0)
    (hLen : len < 2 ^ 64)
    (offset size : Nat) :
    Ensures (fun _ => False)
        (ext2WriteFile (some path) buffer len offset) s
        (fun code _ =>
          0 ≤ code ↔
            offset ≤ file.size ∧ offset + len < 2 ^ 64 ∧
              (offset + len ≤ file.size ∨
                V.HasRoom G file.size (offset + len))) ∧
      Ensures (fun _ => False)
        (ext2TruncateFile (some path) size) s
        (fun code _ =>
          0 ≤ code ↔
            size ≤ file.size ∨
              V.HasRoom G file.size size) := by
  have hFile : file = V.inodes number :=
    hHolds.pathLookup_inode hSane hPath
  have hLookup :
      pathLookup s ((some path).map (·.1)) =
        .ok (some (file, number)) :=
    hPath
  have hShaped : Shaped G V file := by
    rw [hFile]
    exact hWell.shaped number hAllocated
  have hEditing : Editing G V number file := by
    rw [hFile]
    exact hWell.editing hAllocated
  constructor
  · apply (hHolds.ensures_ext2WriteFile hSane hEditing
      hFile.symm hShaped.intact hRegular.isFile hLookup hBuffer
      hLen offset).mono
    rintro code final ⟨done, V', hWritten, -, hReports⟩
    rw [hReports.nonneg_iff hSucceeds]
    exact hWritten.done_iff hSane hEditing hCounts hShaped
  · apply (hHolds.ensures_ext2TruncateFile hSane hEditing
      hShaped.intact hRegular.isFile hLookup size).mono
    rintro code final ⟨done, copy, V', hResized, -, hReports⟩
    rw [@Reports.nonneg_iff s done 0 code hSucceeds hReports]
    exact hResized.done_iff hSane hEditing hCounts hShaped

/- Growing "/f" to 4000 bytes takes three of seven blocks. -/
theorem smallState_sizing :
    Ensures (fun _ => False)
        (ext2WriteFile (some smallPath) (some zeros) 5 3)
        smallState
        (fun code _ => 0 ≤ code ↔ True) ∧
      Ensures (fun _ => False)
        (ext2TruncateFile (some smallPath) 4000) smallState
        (fun code _ => 0 ≤ code ↔ True) := by
  have hSizing :=
    sizing_succeeds_iff smallGeometry_sane smallState_holds
      smallState_wellOwned smallState_blockCounts nofun
      smallState_lookup smallVolume_file smallVolume_regular
      (fun hNone : some zeros = none => nomatch hNone)
      (by decide : 5 < 2 ^ 64) 3 4000
  have hWrite :
      3 ≤ (smallVolume.inodes 11).size ∧ 3 + 5 < 2 ^ 64 ∧
        (3 + 5 ≤ (smallVolume.inodes 11).size ∨
          smallVolume.HasRoom smallGeometry
            (smallVolume.inodes 11).size (3 + 5)) := by
    unfold Volume.HasRoom
    decide
  have hTruncate :
      4000 ≤ (smallVolume.inodes 11).size ∨
        smallVolume.HasRoom smallGeometry
          (smallVolume.inodes 11).size 4000 := by
    unfold Volume.HasRoom
    decide
  constructor
  · apply hSizing.1.mono
    intro code _ hCode
    exact hCode.trans (iff_true_intro hWrite)
  · apply hSizing.2.mono
    intro code _ hCode
    exact hCode.trans (iff_true_intro hTruncate)

end

end Ext2

end Whirliscope
