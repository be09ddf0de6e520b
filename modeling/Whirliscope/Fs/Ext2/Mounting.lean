import Whirliscope.Fs.Ext2.Operations

/-
  What mounting leaves behind.

  After a mount call the driver should be mounted exactly when
  the call reported success. The third rejection of
  `ext2_mount_internal`, a missing first group descriptor,
  returns without undoing the assignments before it.

  Main declarations:
    * `runCalls_of_unmounted`
    * `MountAgrees`, `HalfMounted`
    * `mountAgrees_iff`
-/

------------------------------------------------------------
-- Calls Without a Mounted Image
------------------------------------------------------------

namespace Whirliscope

namespace Ext2

open ByteMemory FaultProgram

/- The status reported when nothing is mounted. -/
def clearedStatus : UserFsStatus where
  abiVersion := 1
  mounted := 0
  blockSize := 0
  blocks := 0
  inodes := 0
  freeBlocks := 0
  freeInodes := 0
  volumeName := List.replicate 16 0

/- The reply of an operation when nothing is mounted. -/
def Call.refusal : Call → Reply
| .getStatus => .status clearedStatus
| .sync => .flag false
| .listDir _ _ => .listing userErrInval []
| .stat _ => .stat userErrInval none
| .readFile _ buffer _ _ => .read userErrInval buffer
| .writeFile _ _ _ _ => .code userErrInval
| .createFile _ => .code userErrInval
| .mkdir _ => .code userErrInval
| .unlink _ => .code userErrInval
| .rmdir _ => .code userErrInval
| .truncateFile _ _ => .code userErrInval

theorem refusal_isError
    (call : Call) :
    call.refusal.IsError := by
  cases call <;>
    simp [Call.refusal, Reply.IsError, userErrInval,
      clearedStatus]

section Unmounted

variable {s : State}

/- Without a mounted image no path resolves. -/
theorem pathLookup_of_unmounted
    (hUnmounted : ext2Mounted s = false)
    (path : Option (List UInt8)) :
    pathLookup s path = .ok none := by
  simp [pathLookup, hUnmounted, pure, Except.pure]

theorem parentLookup_of_unmounted
    (hUnmounted : ext2Mounted s = false)
    (path : Option (List UInt8)) :
    parentLookup s path = .ok none := by
  unfold parentLookup
  cases splitParentPath path with
  | none => rfl
  | some parts =>
      simp only [pathLookup_of_unmounted hUnmounted]
      rfl

/- Each operation refuses and leaves the state alone. -/
theorem call_of_unmounted
    (hUnmounted : ext2Mounted s = false)
    (call : Call) :
    Ensures (fun _ => False) call.run s
      fun reply final =>
        reply = call.refusal ∧ final = s := by
  have hPath := pathLookup_of_unmounted hUnmounted
  have hParent := parentLookup_of_unmounted hUnmounted
  cases call with
  | getStatus =>
      simp [Call.run, Call.refusal, ext2GetStatus,
        hUnmounted, clearedStatus]
  | sync =>
      simp [Call.run, Call.refusal, ext2Sync, hUnmounted]
  | listDir path maxEntries =>
      simp [Call.run, Call.refusal, ext2ListDir, hPath]
  | stat path =>
      simp [Call.run, Call.refusal, ext2Stat, hPath]
  | readFile path buffer len offset =>
      simp [Call.run, Call.refusal, ext2ReadFile, hPath]
  | writeFile path buffer len offset =>
      simp [Call.run, Call.refusal, ext2WriteFile,
        ensures_ite_iff, hPath]
  | createFile path =>
      simp [Call.run, Call.refusal, ext2CreateFile, hPath,
        hParent]
  | mkdir path =>
      simp [Call.run, Call.refusal, ext2Mkdir, hPath,
        hParent]
  | unlink path =>
      simp [Call.run, Call.refusal, ext2Unlink, hParent]
  | rmdir path =>
      simp [Call.run, Call.refusal, ext2Rmdir, hParent]
  | truncateFile path size =>
      simp [Call.run, Call.refusal, ext2TruncateFile, hPath]

/- So does every sequence of operations. -/
theorem runCalls_of_unmounted
    (hUnmounted : ext2Mounted s = false)
    (calls : List Call) :
    Ensures (fun _ => False) (runCalls calls) s
      fun replies final =>
        replies = calls.map Call.refusal ∧ final = s := by
  induction calls with
  | nil => simp [runCalls]
  | cons call calls ih =>
      rw [runCalls, ensures_bind_iff]
      apply (call_of_unmounted hUnmounted call).mono
      rintro reply final ⟨rfl, rfl⟩
      rw [ensures_bind_iff]
      apply ih.mono
      rintro replies final ⟨rfl, rfl⟩
      simp

end Unmounted

end Ext2

end Whirliscope

------------------------------------------------------------
-- The Outcomes of Mounting
------------------------------------------------------------

namespace Whirliscope

namespace Ext2

open ByteMemory FaultProgram

/- A superblock field of an image that is not yet mounted. -/
def headerField
    (bytes : Bytes)
    (offset width : Nat) : Nat :=
  getLE bytes (superblockOffset + offset) width

/- The superblock checks of `ext2_mount_internal`. -/
def HeaderAccepted
    (bytes : Bytes) : Prop :=
  headerField bytes 56 2 = superMagic ∧
    headerField bytes 24 4 ≤ 2 ∧
    headerField bytes 32 4 ≠ 0 ∧
    headerField bytes 40 4 ≠ 0

instance (bytes : Bytes) :
    Decidable (HeaderAccepted bytes) :=
  inferInstanceAs (Decidable (_ ∧ _ ∧ _ ∧ _))

/- The block size that the superblock asks for. -/
def headerBlockSize
    (bytes : Bytes) : Nat :=
  1024 * 2 ^ headerField bytes 24 4

/- The group count, in 32-bit arithmetic. -/
def headerGroupCount
    (bytes : Bytes) : Nat :=
  wrap 32 (headerField bytes 4 4 +
    headerField bytes 32 4 - 1) / headerField bytes 32 4

/- The end of the first group descriptor. -/
def firstDescriptorEnd
    (bytes : Bytes) : Nat :=
  (if headerBlockSize bytes = 1024 then 2 else 1) *
    headerBlockSize bytes + groupDescSize

/- The image has no first group descriptor. -/
def DescriptorMissing
    (bytes : Bytes)
    (imageSize : Nat) : Prop :=
  headerGroupCount bytes = 0 ∨
    imageSize < firstDescriptorEnd bytes

instance
    (bytes : Bytes)
    (imageSize : Nat) :
    Decidable (DescriptorMissing bytes imageSize) :=
  inferInstanceAs (Decidable (_ ∨ _))

/- The state in which a mount call starts its checks. -/
def resetState
    (s : State) : State :=
  { s with
    fsImage := false
    fsSize := 0
    superblock := none
    blockSize := 0
    groupCount := 0
    writeback := none }

/- The state in which the superblock is checked. -/
def headerState
    (s : State)
    (bytes : Bytes)
    (imageSize : Nat) : State :=
  { resetState s with
    fsImage := true
    image := bytes
    fsSize := imageSize
    superblock := some superblockPointer }

/- The state after the geometry was assigned. -/
def geometryState
    (s : State)
    (bytes : Bytes)
    (imageSize : Nat) : State :=
  { headerState s bytes imageSize with
    blockSize := headerBlockSize bytes
    groupCount := headerGroupCount bytes }

/-
  The four outcomes of a mount call: no usable image, a
  rejected superblock, a missing descriptor, success. Only
  the first two leave the driver unmounted.
-/
def MountOutcome
    (image : Option Bytes)
    (imageSize : Nat)
    (writebackFn : Option Writeback)
    (s : State)
    (mounted : Bool)
    (final : State) : Prop :=
  match image with
  | none => mounted = false ∧ final = resetState s
  | some bytes =>
      if imageSize < superblockOffset + superblockSize then
        mounted = false ∧ final = resetState s
      else if ¬ HeaderAccepted bytes then
        mounted = false ∧ ext2Mounted final = false
      else if DescriptorMissing bytes imageSize then
        mounted = false ∧
          final = geometryState s bytes imageSize
      else
        mounted = true ∧
          final =
            { geometryState s bytes imageSize with
              writeback := writebackFn }

/- Reading a header field of the state under mount. -/
theorem superblockField_headerState
    (s : State)
    (bytes : Bytes)
    {imageSize : Nat}
    (hSize : superblockOffset + superblockSize ≤ imageSize)
    {offset width : Nat}
    (hOffset : offset + width ≤ superblockSize) :
    superblockField (headerState s bytes imageSize)
        offset width =
      .ok (headerField bytes offset width) :=
  superblockField_eq ⟨rfl, hSize⟩ hOffset

/- The superblock checks decide `HeaderAccepted`. -/
theorem superblockAccepted_headerState
    (s : State)
    (bytes : Bytes)
    {imageSize : Nat}
    (hSize :
      superblockOffset + superblockSize ≤ imageSize) :
    superblockAccepted (headerState s bytes imageSize) =
      .ok (decide (HeaderAccepted bytes)) := by
  have hPointer :
      (headerState s bytes imageSize).superblock =
        some superblockPointer := rfl
  simp only [superblockAccepted, magic, logBlockSize,
    blocksPerGroup, inodesPerGroup, hPointer,
    superblockField_headerState s bytes hSize
      (by decide : 56 + 2 ≤ superblockSize),
    superblockField_headerState s bytes hSize
      (by decide : 24 + 4 ≤ superblockSize),
    superblockField_headerState s bytes hSize
      (by decide : 32 + 4 ≤ superblockSize),
    superblockField_headerState s bytes hSize
      (by decide : 40 + 4 ≤ superblockSize),
    HeaderAccepted, pure, Except.pure, bind, Except.bind,
    Option.isNone_some]
  split_ifs <;> simp_all

/- The third check fails when there is no descriptor. -/
theorem groupDesc_geometryState_isNone_iff
    (s : State)
    (bytes : Bytes)
    (imageSize : Nat) :
    (groupDesc (geometryState s bytes imageSize)
        0).isNone = true ↔
      DescriptorMissing bytes imageSize := by
  unfold groupDesc
  by_cases hGroups : headerGroupCount bytes = 0
  · have hOutside :
        0 ≥ (geometryState s bytes imageSize).groupCount :=
      Nat.le_of_eq hGroups
    simp [hOutside, DescriptorMissing, hGroups]
  · have hInside :
        ¬ 0 ≥ (geometryState s bytes
          imageSize).groupCount := by
      change ¬ 0 ≥ headerGroupCount bytes
      omega
    rw [if_neg hInside, Option.isNone_iff_eq_none,
      imagePtr_eq_none_iff]
    simp only [DescriptorMissing, hGroups, false_or,
      Nat.zero_mul, Nat.add_zero]
    exact Iff.rfl

/- The last steps, from an accepted superblock on. -/
theorem ensures_assignGeometry
    (s : State)
    (bytes : Bytes)
    {imageSize : Nat}
    (writebackFn : Option Writeback)
    (hSize : superblockOffset + superblockSize ≤ imageSize)
    (hAccepted : HeaderAccepted bytes) :
    Ensures (fun _ => False)
      (assignGeometry writebackFn)
      (headerState s bytes imageSize)
      (MountOutcome (some bytes) imageSize
        writebackFn s) := by
  have hField :=
    fun offset width hOffset =>
      @superblockField_headerState s bytes imageSize hSize
        offset width hOffset
  have hShort :
      ¬ imageSize < superblockOffset + superblockSize := by
    omega
  unfold assignGeometry
  simp only [ensures_bind_iff, ensures_get_iff,
    ensures_lift_iff, ensures_modify_iff, logBlockSize,
    blocksPerGroup, blocksCount, hField 24 4 (by decide),
    hField 32 4 (by decide), hField 4 4 (by decide),
    yields_ok_iff, divide, if_neg hAccepted.2.2.1]
  change Ensures _
    (if (groupDesc (geometryState s bytes imageSize)
        0).isNone = true then _ else _)
    (geometryState s bytes imageSize) _
  by_cases hMissing : DescriptorMissing bytes imageSize
  · rw [if_pos
      ((groupDesc_geometryState_isNone_iff s bytes
        imageSize).mpr hMissing)]
    simp [MountOutcome, hShort, hAccepted, hMissing]
  · rw [if_neg (by
      rw [groupDesc_geometryState_isNone_iff]
      exact hMissing)]
    simp [MountOutcome, hShort, hAccepted, hMissing]

/- Every mount call returns with one of the outcomes. -/
theorem ensures_mountInternal
    (image : Option Bytes)
    (imageSize : Nat)
    (writebackFn : Option Writeback)
    (s : State) :
    Ensures (fun _ => False)
      (ext2MountInternal image imageSize writebackFn) s
      (MountOutcome image imageSize writebackFn s) := by
  unfold ext2MountInternal
  cases image with
  | none => simp [MountOutcome, resetState]
  | some bytes =>
      by_cases hShort :
          imageSize < superblockOffset + superblockSize
      · simp [MountOutcome, resetState, hShort]
      · have hSize :
            superblockOffset + superblockSize ≤ imageSize := by
          omega
        have hPointer :
            imagePtr
                { resetState s with
                  fsImage := true
                  image := bytes
                  fsSize := imageSize }
                superblockOffset superblockSize =
              some superblockPointer :=
          (imagePtr_eq_some_iff _ _ _ _).mpr ⟨hSize, rfl⟩
        unfold resetState at hPointer
        simp only [ensures_bind_iff, ensures_modify_iff,
          ensures_get_iff, ensures_lift_iff, hShort,
          if_false, hPointer]
        change Yields _
          (superblockAccepted
            (headerState s bytes imageSize)) _
        rw [superblockAccepted_headerState s bytes hSize,
          yields_ok_iff]
        by_cases hAccepted : HeaderAccepted bytes
        · have hLast :=
            ensures_assignGeometry s bytes writebackFn
              hSize hAccepted
          simp only [hAccepted, decide_true, Bool.not_true,
            Bool.false_eq_true, if_false]
          exact hLast
        · simp [hAccepted, MountOutcome, hShort,
            ext2Mounted]

end Ext2

end Whirliscope

------------------------------------------------------------
-- Agreement of the Mount Flag
------------------------------------------------------------

namespace Whirliscope

namespace Ext2

open ByteMemory FaultProgram

/-
  The driver is mounted after the call exactly when the call
  returned true. After a refused call, every later sequence of
  operations reports errors only, whatever the refused image
  holds by then, and leaves the image as it is.
-/
def MountAgrees
    (mount : Ext2M Bool)
    (s : State) : Prop :=
  ∃ mounted final,
    Returns mount s mounted final ∧
      ext2Mounted final = mounted ∧
      (mounted = false →
        ∀ calls : List Call,
          ∃ replies : List Reply,
            replies.length = calls.length ∧
              (∀ reply ∈ replies, reply.IsError) ∧
              ∀ bytes,
                Returns (runCalls calls)
                  (final.withImage bytes) replies
                  (final.withImage bytes))

/-
  The images refused by the third check only: the superblock
  is accepted and the first group descriptor is missing.
-/
def HalfMounted
    (image : Option Bytes)
    (imageSize : Nat) : Prop :=
  ∃ bytes,
    image = some bytes ∧
      superblockOffset + superblockSize ≤ imageSize ∧
      HeaderAccepted bytes ∧
      DescriptorMissing bytes imageSize

/- Nothing can go wrong after the driver was left unmounted. -/
theorem later_calls_refused
    {final : State}
    (hUnmounted : ext2Mounted final = false)
    (calls : List Call) :
    ∃ replies : List Reply,
      replies.length = calls.length ∧
        (∀ reply ∈ replies, reply.IsError) ∧
        ∀ bytes,
          Returns (runCalls calls)
            (final.withImage bytes) replies
            (final.withImage bytes) := by
  refine ⟨calls.map Call.refusal, List.length_map _, ?_, ?_⟩
  · intro reply hReply
    rcases List.mem_map.mp hReply with ⟨call, -, rfl⟩
    exact refusal_isError call
  · intro bytes
    have hStill :
        ext2Mounted (final.withImage bytes) = false :=
      hUnmounted
    rcases (runCalls_of_unmounted hStill calls).exists_returns
      with ⟨replies, last, hReturns, rfl, rfl⟩
    exact hReturns

/- Every outcome but the third check's keeps the flag right. -/
theorem mountAgrees_internal_iff
    (image : Option Bytes)
    (imageSize : Nat)
    (writebackFn : Option Writeback)
    (s : State) :
    MountAgrees
        (ext2MountInternal image imageSize writebackFn) s ↔
      ¬ HalfMounted image imageSize := by
  rcases
    (ensures_mountInternal image imageSize writebackFn
      s).exists_returns with
    ⟨mounted, final, hReturns, hOutcome⟩
  constructor
  · rintro ⟨mounted', final', hReturns', hFlag, -⟩
    rintro ⟨bytes, rfl, hSize, hAccepted, hMissing⟩
    rcases hReturns.unique hReturns' with ⟨rfl, rfl⟩
    have hShort :
        ¬ imageSize < superblockOffset + superblockSize := by
      omega
    simp only [MountOutcome, hShort, if_false, hAccepted,
      not_true_eq_false, hMissing, if_true] at hOutcome
    rcases hOutcome with ⟨rfl, rfl⟩
    exact absurd hFlag (by decide : ¬ true = false)
  · intro hNotHalf
    have hAgree : ext2Mounted final = mounted := by
      cases image with
      | none =>
          rcases hOutcome with ⟨rfl, rfl⟩
          rfl
      | some bytes =>
          simp only [MountOutcome] at hOutcome
          split_ifs at hOutcome with
            hShort hAccepted hMissing
          · rcases hOutcome with ⟨rfl, rfl⟩
            rfl
          · have hSize :
                superblockOffset + superblockSize ≤
                  imageSize := by
              omega
            exact absurd
              ⟨bytes, rfl, hSize, hAccepted, hMissing⟩
              hNotHalf
          · rcases hOutcome with ⟨rfl, rfl⟩
            rfl
          · rcases hOutcome with ⟨rfl, hUnmounted⟩
            exact hUnmounted
    refine ⟨mounted, final, hReturns, hAgree, ?_⟩
    rintro rfl calls
    exact later_calls_refused hAgree calls

/-
  Both mount calls keep the flag right exactly when the image
  is not one that only the third check refuses.
-/
theorem mountAgrees_iff
    (image : Option Bytes)
    (imageSize : Nat)
    (s : State) :
    (MountAgrees (ext2Mount image imageSize) s ↔
        ¬ HalfMounted image imageSize) ∧
      ∀ writebackFn,
        (MountAgrees
            (ext2MountWithWriteback image imageSize
              writebackFn) s ↔
          ¬ HalfMounted image imageSize) := by
  constructor
  · exact mountAgrees_internal_iff image imageSize none s
  · intro writebackFn
    exact mountAgrees_internal_iff image imageSize
      writebackFn s

/-
  An image of two blocks of 1024 bytes: a superblock in its
  place, and no room for the descriptor table behind it.
-/
def shortImage : Bytes :=
  fun address =>
    match address with
    | 1028 => 16
    | 1057 => 32
    | 1064 => 8
    | 1080 => 0x53
    | 1081 => 0xef
    | _ => 0

def emptyState : State where
  fsImage := false
  superblock := none
  image := zeros
  fsSize := 0
  blockSize := 0
  groupCount := 0
  writeback := none
  medium := zeros
  stackBytes := zeros

/- Mounting it fails and leaves the driver mounted. -/
theorem shortImage_half_mounted :
    ¬ ∀ (image : Option Bytes) (imageSize : Nat) (s : State),
      MountAgrees (ext2Mount image imageSize) s := by
  intro hAgrees
  have hHalf : HalfMounted (some shortImage) 2048 :=
    ⟨shortImage, rfl, by decide, by decide, by decide⟩
  exact (mountAgrees_internal_iff (some shortImage) 2048 none
    emptyState).mp
      (hAgrees (some shortImage) 2048 emptyState) hHalf

end Ext2

end Whirliscope
