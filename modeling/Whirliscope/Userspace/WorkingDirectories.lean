import Mathlib.Data.List.TakeWhile
import Whirliscope.Userspace.Blocking
import Whirliscope.Userspace.PathResolution

/-
  The working directories of processes.

  A process starts with the directory of the process that
  launches it and changes it to a resolved path, so it is
  normal throughout a run.

  Key definitions include:
    * `Process.Housed`

  Main theorem:
    * `paths_resolved`
-/

------------------------------------------------------------
-- Facts About Every Process
------------------------------------------------------------

namespace Whirliscope

namespace Userspace

open ByteMemory FaultProgram Syscall
open Ext2 (slash)

variable {δ : Type}

/- A working directory as the kernel stores it. -/
def StoredCwd
    (chars : List UInt8) : Prop :=
  NormalPath chars ∧ chars.length < userFsPathSize

/-
  The working directory of a slot is stored as it should be
  once a process was loaded into it, and is empty before.
-/
def Process.Housed
    (process : Process) : Prop :=
  (process.cwd.1 ≠ [] → StoredCwd process.cwd.1) ∧
    (process.pml4Phys ≠ 0 → StoredCwd process.cwd.1)

def AllHoused
    (machine : UserMachine δ) : Prop :=
  ∀ slot, (machine.rest.processes slot).Housed

/- The states of a process do not matter. -/
theorem Process.Housed.withStates
    {process : Process}
    (hHoused : process.Housed)
    (state : ProcessState)
    (threadState : ThreadState) :
    (process.withStates state threadState).Housed :=
  hHoused

theorem allHoused_steady :
    Steady (δ := δ) AllHoused where
  paging := fun _ _ h => h
  memory := fun _ _ h => h
  heap := fun _ _ h => h
  nextPid := fun _ _ h => h
  devices := fun _ _ h => h

theorem storedCwd_root :
    StoredCwd [slash] :=
  ⟨⟨[], fun _ hNever => absurd hNever List.not_mem_nil, rfl⟩,
    by decide⟩

theorem storedCwd_ne_nil
    {chars : List UInt8}
    (hStored : StoredCwd chars) :
    chars ≠ [] := by
  intro hEmpty
  have hHead := hStored.1.head
  rw [hEmpty] at hHead
  cases hHead

/- `process_set_cwd` stores a stored path as it is. -/
theorem setCwd_cwd
    {path : List UInt8}
    (hStored : StoredCwd path)
    (hString : 0 ∉ path)
    (process : Process) :
    (setCwd path process).cwd.1 = path := by
  unfold setCwd
  rw [if_neg (by simpa using hStored.1.head)]
  change (path.take (userFsPathSize - 1)).takeWhile
      (· ≠ 0) = path
  have hLength := hStored.2
  rw [List.take_of_length_le (by omega)]
  rw [List.takeWhile_eq_self_iff]
  intro char hChar
  have hNonzero : char ≠ 0 := by
    rintro rfl
    exact hString hChar
  simpa using hNonzero

section

variable {stops : Stop → Prop}

theorem allHoused_withProcess
    {machine : UserMachine δ}
    {slot : Slot}
    {process : Process}
    (hHoused :
      ∀ other, other ≠ slot →
        (machine.rest.processes other).Housed)
    (hProcess : process.Housed) :
    AllHoused (withProcess machine slot process) := by
  intro other
  change Process.Housed (if other = slot then _ else _)
  split_ifs with hSlot
  · exact hProcess
  · exact hHoused other hSlot

theorem preserves_modifyProcess
    {slot : Slot}
    {change : Process → Process}
    (hChange :
      ∀ process : Process, process.Housed →
        (change process).Housed) :
    Preserves (σ := UserMachine δ) stops AllHoused
      (modifyProcess slot change) :=
  Preserves.of_modify fun _ hMachine =>
    allHoused_withProcess (fun other _ => hMachine other)
      (hChange _ (hMachine slot))

theorem preserves_modifyScheduler
    (change : Scheduler → Scheduler) :
    Preserves (σ := UserMachine δ) stops AllHoused
      (modifyScheduler change) :=
  Preserves.of_modify fun _ hMachine => hMachine

theorem preserves_activate
    (pml4Phys : Nat) :
    Preserves (σ := UserMachine δ) stops AllHoused
      (vmmActivateAddressSpace pml4Phys) :=
  Preserves.of_modify fun _ hMachine => hMachine

theorem preserves_markExited
    (process : Option Slot) :
    Preserves (σ := UserMachine δ) stops AllHoused
      (markExited process) := by
  cases process with
  | none => exact Preserves.of_pure _ _
  | some slot =>
      exact preserves_modifyProcess fun process hProcess =>
        hProcess.withStates .exited .exited

end

end Userspace

end Whirliscope

------------------------------------------------------------
-- Loading a Process
------------------------------------------------------------

namespace Whirliscope

namespace Userspace

open ByteMemory FaultProgram Syscall

variable {δ : Type}

/- The record of a process is set in one go, or not at all. -/
theorem ensures_prepare
    (slot : Slot)
    (pid : Nat)
    (name : List UInt8)
    (pml4Phys : Nat)
    (image : Elf.Elf64Image)
    (machine : UserMachine δ) :
    Ensures Foreign
      (processPrepareUserImage slot pid name pml4Phys image)
      machine
      fun prepared after =>
        (prepared = true ∧
          after =
            withProcess machine slot
              (preparedProcess pid name pml4Phys
                image.entry)) ∨
        (prepared = false ∧ after = machine) := by
  unfold processPrepareUserImage modifyProcess
  simp only [ensures_ite_iff, ensures_bind_iff,
    ensures_modify_iff, ensures_pure_iff]
  refine ⟨fun _ => .inr ⟨trivial, trivial⟩, fun _ =>
    ⟨fun _ => .inr ⟨trivial, trivial⟩,
      fun _ => .inl ⟨trivial, trivial⟩⟩⟩

/- A process is loaded with the directory it is given. -/
theorem preserves_processLoadUserImageBytes
    {cwd : List UInt8}
    (hStored : StoredCwd cwd)
    (hString : 0 ∉ cwd)
    (slot : Slot)
    (pid : Nat)
    (name : List UInt8)
    (imageBytes : Bytes)
    (imageSize : Nat) :
    Preserves (σ := UserMachine δ) Foreign AllHoused
      (processLoadUserImageBytes slot pid name imageBytes
        imageSize cwd) := by
  have hSteady := allHoused_steady (δ := δ)
  unfold processLoadUserImageBytes
  refine hSteady.preserves_vmmCreateAddressSpace.bind
    fun pml4Phys => ?_
  refine hSteady.preserves_pmmAllocPage.bind
    fun stackPhys => ?_
  refine Preserves.ite (Preserves.of_pure _ _) ?_
  split
  · exact Preserves.of_pure _ _
  rename_i image _
  refine (hSteady.preserves_clearPage _).bind fun _ => ?_
  refine (Steady.preserves_runLoader
    (hSteady.pageManager_closed.keeps_loadUserImageSegments
      pml4Phys imageBytes image)).bind fun loaded => ?_
  refine Preserves.ite (Preserves.of_pure _ _) ?_
  refine (hSteady.preserves_vmmMapPageInSpace _ _ _ _).bind
    fun mapped => ?_
  refine Preserves.ite (Preserves.of_pure _ _) ?_
  intro machine hMachine
  rw [ensures_bind_iff]
  apply (ensures_prepare slot pid name pml4Phys image
    machine).mono
  rintro prepared after (⟨rfl, rfl⟩ | ⟨rfl, rfl⟩)
  · simp only [Bool.not_true, Bool.false_eq_true, if_false,
      ensures_bind_iff, modifyProcess, ensures_modify_iff,
      ensures_pure_iff]
    have hCwd :
        ((setCwd cwd
          (preparedProcess pid name pml4Phys
            image.entry)).withStates .ready .ready).Housed := by
      have hEq := setCwd_cwd hStored hString
        (preparedProcess pid name pml4Phys image.entry)
      unfold Process.Housed
      change (_ ≠ _ → StoredCwd (setCwd cwd _).cwd.1) ∧
        (_ → StoredCwd (setCwd cwd _).cwd.1)
      rw [hEq]
      exact ⟨fun _ => hStored, fun _ => hStored⟩
    apply allHoused_withProcess
    · intro other hOther
      change Process.Housed (if other = slot then _ else _)
      rw [if_neg hOther]
      exact hMachine other
    · change Process.Housed
        ((setCwd cwd (if slot = slot then _ else _)).withStates
          _ _)
      rw [if_pos rfl]
      exact hCwd
  · simp only [Bool.not_false, if_true, ensures_pure_iff]
    exact hMachine

theorem preserves_loadFromBuffer
    {cwd : List UInt8}
    (hStored : StoredCwd cwd)
    (hString : 0 ∉ cwd)
    (slot : Slot)
    (name : List UInt8)
    (image size : Nat) :
    Preserves (σ := UserMachine δ) Foreign AllHoused
      (loadFromBuffer slot name image size cwd) := by
  have hSteady := allHoused_steady (δ := δ)
  unfold loadFromBuffer
  refine hSteady.preserves_takePid.bind fun pid => ?_
  refine (Preserves.of_get _).bind fun machine => ?_
  refine (preserves_processLoadUserImageBytes hStored hString
    slot pid name _ size).bind fun loaded => ?_
  refine Preserves.ite ?_ ?_
  · refine Preserves.bind (preserves_modifyProcess ?_)
      fun _ => ?_
    · exact fun _ hHoused => hHoused
    · exact (hSteady.preserves_kfree _).bind fun _ =>
        Preserves.of_pure _ _
  · exact (hSteady.preserves_kfree _).bind fun _ =>
      Preserves.of_pure _ _

theorem preserves_createProcess
    {cwd : List UInt8}
    (hStored : StoredCwd cwd)
    (hString : 0 ∉ cwd)
    (path : List UInt8)
    (fs : Ext2.State) :
    Preserves (σ := UserMachine δ) Foreign AllHoused
      (processCreateFilesystemProcess path cwd fs) := by
  have hSteady := allHoused_steady (δ := δ)
  unfold processCreateFilesystemProcess
  refine (hSteady.preserves_readImageFile path fs).bind
    fun file => ?_
  split
  · exact Preserves.of_pure _ _
  refine (Preserves.of_get _).bind fun machine => ?_
  split
  · exact (hSteady.preserves_kfree _).bind fun _ =>
      Preserves.of_pure _ _
  · refine (preserves_loadFromBuffer hStored hString _ _ _
      _).bind fun loaded => ?_
    exact Preserves.ite (Preserves.of_pure _ _)
      (Preserves.of_pure _ _)

theorem preserves_createInit
    (path : List UInt8)
    (fs : Ext2.State) :
    Preserves (σ := UserMachine δ) Foreign AllHoused
      (processCreateFilesystemInit path fs) := by
  unfold processCreateFilesystemInit
  refine (allHoused_steady.preserves_readImageFile path
    fs).bind fun file => ?_
  split
  · exact Preserves.of_pure _ _
  · exact preserves_loadFromBuffer storedCwd_root (by decide)
      _ _ _ _

end Userspace

end Whirliscope

------------------------------------------------------------
-- Services of the Scheduler
------------------------------------------------------------

namespace Whirliscope

namespace Userspace

open ByteMemory FaultProgram Syscall

variable {δ : Type}

theorem preserves_enterCurrent :
    Preserves (σ := UserMachine δ) (fun _ => True) AllHoused
      schedulerEnterCurrent := by
  unfold schedulerEnterCurrent
  refine (Preserves.of_get _).bind fun machine => ?_
  dsimp only
  split
  · exact Preserves.of_throw _ trivial
  refine Preserves.ite (Preserves.of_throw _ trivial) ?_
  refine (preserves_modifyScheduler _).bind fun _ => ?_
  refine Preserves.bind (preserves_modifyProcess ?_)
    fun _ => ?_
  · exact fun _ hHoused => hHoused
  · exact preserves_activate _

theorem preserves_runBlocking
    (process : Slot)
    (frame : SyscallFrame) :
    Preserves (σ := UserMachine δ) (fun _ => True) AllHoused
      (schedulerRunProcessBlocking process frame) := by
  unfold schedulerRunProcessBlocking
  refine (Preserves.of_get _).bind fun machine => ?_
  dsimp only
  split
  · exact Preserves.of_throw _ trivial
  refine Preserves.ite (Preserves.of_throw _ trivial) ?_
  refine Preserves.bind (preserves_modifyProcess ?_)
    fun _ => ?_
  · exact fun _ hHoused => hHoused
  · exact (preserves_modifyScheduler _).bind fun _ =>
      preserves_enterCurrent

theorem preserves_finishBlockingExit
    (status : Nat)
    (frame : SyscallFrame) :
    Preserves (σ := UserMachine δ) (fun _ => True) AllHoused
      (schedulerFinishBlockingExit status frame) := by
  unfold schedulerFinishBlockingExit
  refine (Preserves.of_get _).bind fun machine => ?_
  dsimp only
  refine Preserves.ite (Preserves.of_pure _ _) ?_
  refine (preserves_modifyScheduler _).bind fun _ => ?_
  split
  · exact Preserves.of_pure _ _
  refine (preserves_markExited _).bind fun _ => ?_
  refine (preserves_modifyScheduler _).bind fun _ => ?_
  refine (preserves_modifyScheduler _).bind fun _ => ?_
  refine Preserves.bind (preserves_modifyProcess ?_)
    fun _ => ?_
  · exact fun _ hHoused => hHoused
  · refine (Preserves.of_get _).bind fun machine => ?_
    exact (preserves_activate _).bind fun _ =>
      Preserves.of_pure _ _

theorem preserves_exitCurrent
    (status : Nat) :
    Preserves (σ := UserMachine δ) (fun _ => True) AllHoused
      (schedulerExitCurrent status) := by
  unfold schedulerExitCurrent
  refine (Preserves.of_get _).bind fun machine => ?_
  refine (preserves_markExited _).bind fun _ => ?_
  refine (preserves_modifyScheduler _).bind fun _ => ?_
  refine (preserves_modifyScheduler _).bind fun _ => ?_
  refine (preserves_activate _).bind fun _ => ?_
  refine (Preserves.of_get _).bind fun machine => ?_
  exact Preserves.ite (Preserves.of_throw _ trivial)
    (Preserves.of_pure _ _)

theorem preserves_sbrk
    (increment : Nat) :
    Preserves (σ := UserMachine δ) Foreign AllHoused
      (processSbrk increment) := by
  have hSteady := allHoused_steady (δ := δ)
  unfold processSbrk
  refine (Preserves.of_get _).bind fun machine => ?_
  dsimp only
  split
  · exact Preserves.of_pure _ _
  refine Preserves.ite (Preserves.of_pure _ _) ?_
  refine Preserves.ite (Preserves.of_pure _ _) ?_
  refine Preserves.ite (Preserves.of_pure _ _) ?_
  refine Preserves.bind ?_ fun grown => ?_
  · exact Preserves.loop (Preserves.of_throw _ (.inl rfl))
      (hSteady.preserves_sbrkVisit _ _) _ _
  · refine Preserves.ite (Preserves.of_pure _ _) ?_
    refine Preserves.bind (preserves_modifyProcess ?_)
      fun _ => Preserves.of_pure _ _
    exact fun _ hHoused => hHoused

end Userspace

end Whirliscope

------------------------------------------------------------
-- System Calls
------------------------------------------------------------

namespace Whirliscope

namespace Userspace

open ByteMemory FaultProgram Syscall
open Ext2 (slash)

variable {δ : Type}

/- A string from user memory ends before its buffer does. -/
theorem ensures_copyUserString
    (userAddress destSize : Nat)
    (kernel : Kernel (Userland δ)) :
    Ensures (fun _ => False)
      (copyUserString userAddress destSize) kernel
      fun result _ =>
        ∀ chars, result = some chars →
          0 ∉ chars ∧ chars.length < destSize := by
  have hNone :
      ∀ chars, (none : Option (List UInt8)) = some chars →
        0 ∉ chars ∧ chars.length < destSize :=
    fun _ hNever => by cases hNever
  unfold copyUserString
  apply ensures_loop fun _ state _ =>
    state.2.length = state.1 ∧ 0 ∉ state.2
  · intro state final _
    exact (ensures_pure_iff _ _ _ _).mpr hNone
  · rintro _ ⟨i, dest⟩ middle ⟨hLength, hZero⟩
    dsimp only at hLength hZero
    unfold copyStringVisit
    dsimp only
    rw [ensures_ite_iff]
    constructor
    · intro hRoom
      rw [ensures_ite_iff]
      constructor
      · intro _
        rw [ensures_pure_iff, continues_inr]
        exact hNone
      intro _
      rw [ensures_bind_iff]
      have hRead :
          KeepsMachine (δ := δ) (fun _ => True)
            (readUserBytes (wrap 64 (userAddress + i)) zeros
              1) :=
        Steady.keeps_readUserBytes _ _ _
      apply (hRead middle trivial).mono
      rintro ⟨readable, out⟩ last _
      dsimp only
      rw [ensures_ite_iff]
      constructor
      · intro _
        rw [ensures_pure_iff, continues_inr]
        exact hNone
      intro _
      rw [ensures_ite_iff]
      constructor
      · intro _
        rw [ensures_pure_iff, continues_inr]
        rintro chars ⟨rfl⟩
        exact ⟨hZero, by omega⟩
      · intro hChar
        rw [ensures_pure_iff, continues_inl]
        refine ⟨by simp [hLength], ?_⟩
        simp only [List.mem_append, List.mem_singleton, not_or]
        exact ⟨hZero, fun hSame => hChar hSame.symm⟩
    · intro _
      rw [ensures_pure_iff, continues_inr]
      exact hNone
  · exact ⟨rfl, List.not_mem_nil⟩

/- Calls resolve against a stored working directory. -/
theorem currentCwd_stored
    (devices : Devices δ)
    {machine : UserMachine δ}
    (hHoused : AllHoused machine) :
    StoredCwd
        (currentCwd (kernelServices devices) machine.rest) ∧
      0 ∉ currentCwd (kernelServices devices)
        machine.rest := by
  have hRoot : 0 ∉ [slash] := by decide
  cases hCurrent : machine.rest.scheduler.current with
  | none =>
      have hCwd :
          currentCwd (kernelServices devices) machine.rest =
            [slash] := by
        simp [currentCwd, kernelServices, hCurrent]
      rw [hCwd]
      exact ⟨storedCwd_root, hRoot⟩
  | some slot =>
      have hCwd :
          currentCwd (kernelServices devices) machine.rest =
            if (machine.rest.processes slot).cwd.1 ≠ [] then
              (machine.rest.processes slot).cwd.1
            else
              [slash] := by
        simp [currentCwd, kernelServices, hCurrent,
          Process.view]
      rw [hCwd]
      split_ifs with hUsed
      · exact ⟨(hHoused slot).1 hUsed,
          (machine.rest.processes slot).cwd.2⟩
      · exact ⟨storedCwd_root, hRoot⟩

/- What calls resolve paths to can be stored. -/
theorem ensures_resolvePath
    (devices : Devices δ)
    (userAddress : Nat)
    {kernel : Kernel (Userland δ)}
    (hHoused : AllHoused kernel.machine) :
    Ensures (fun _ => False)
      (copyAndResolveUserPath (kernelServices devices)
        userAddress) kernel
      fun path final =>
        AllHoused final.machine ∧
          ∀ chars, path = some chars →
            StoredCwd chars ∧ 0 ∉ chars := by
  have hKeeps :
      KeepsMachine (δ := δ) AllHoused
        (copyUserString userAddress userFsPathMax) :=
    Steady.keeps_copyUserString _ _
  have hString :=
    (hKeeps kernel hHoused).and
      (ensures_copyUserString userAddress userFsPathMax kernel)
  unfold copyAndResolveUserPath
  rw [ensures_bind_iff]
  apply hString.mono
  rintro path middle ⟨hMiddle, hPath⟩
  cases path with
  | none =>
      rw [ensures_pure_iff]
      exact ⟨hMiddle, fun _ hNever => by cases hNever⟩
  | some path =>
      rcases hPath path rfl with ⟨hZero, hShort⟩
      rcases currentCwd_stored devices hMiddle with
        ⟨hCwd, hCwdZero⟩
      simp only [getRest, ensures_bind_iff, ensures_get_iff,
        ensures_pure_iff]
      refine ⟨hMiddle, fun chars hChars => ?_⟩
      by_cases hEmpty : path = []
      · rw [hEmpty] at hChars
        cases hChars
      rw [resolvePathForCurrent_eq hCwd.1 hEmpty hShort]
        at hChars
      split_ifs at hChars with hFits
      cases hChars
      have hJoined := length_joinPath hShort hFits
      have hLength :=
        length_resolved (@joinPath_head _ path hCwd.1)
      have hSize : userFsPathSize = userFsPathMax := rfl
      refine ⟨⟨normalPath_resolved _, by omega⟩, ?_⟩
      intro hMem
      rcases mem_resolved hMem with hSlash | hMem
      · revert hSlash
        decide
      · rcases mem_joinPath hMem with hSlash | hIn | hIn
        · revert hSlash
          decide
        · exact hCwdZero hIn
        · exact hZero hIn

/- A service keeps what the machine and the reply keep. -/
theorem keepsMachine_runMachine
    {α : Type}
    {stops : Stop → Prop}
    {invariant : UserMachine δ → Prop}
    {service : UserM δ α}
    {next : α → KernelM (Userland δ) Reply}
    (hService : Preserves stops invariant service)
    (hNext : ∀ value, KeepsMachine invariant (next value)) :
    KeepsMachine invariant (runMachine service next) := by
  intro kernel hKernel
  apply ensures_runMachine_of
    (hService kernel.machine hKernel)
  · exact fun _ _ => hKernel
  · exact fun value machine hMachine => hNext value _ hMachine

theorem Replies.keepsMachine
    {invariant : UserMachine δ → Prop}
    {program : KernelM (Userland δ) Reply}
    (hReplies : Replies invariant program) :
    KeepsMachine invariant program :=
  fun kernel hKernel =>
    (hReplies kernel hKernel).mono fun _ _ hReply => hReply.1

section

variable {devices : Devices δ}
variable {frame : SyscallFrame}

theorem keeps_exit :
    KeepsMachine (δ := δ) AllHoused
      (dispatchCall (kernelServices devices) frame .exit) := by
  refine Preserves.bind
    (allHoused_steady.keeps_tellDevice _) fun _ => ?_
  refine keepsMachine_runMachine
    (preserves_finishBlockingExit _ _) fun resumed => ?_
  cases resumed with
  | some returnFrame => exact Preserves.of_pure _ _
  | none =>
      exact keepsMachine_runMachine (preserves_exitCurrent _)
        fun _ => Preserves.of_pure _ _

theorem keeps_sbrk :
    KeepsMachine (δ := δ) AllHoused
      (dispatchCall (kernelServices devices) frame .sbrk) := by
  refine keepsMachine_runMachine (preserves_sbrk _)
    fun grown => ?_
  cases grown with
  | none => exact Preserves.of_pure _ _
  | some oldBreak => exact Preserves.of_pure _ _

/- A stored path becomes a working directory. -/
theorem allHoused_processSetCwd
    {path : List UInt8}
    {machine : UserMachine δ}
    (hStored : StoredCwd path)
    (hString : 0 ∉ path)
    (hHoused : AllHoused machine) :
    AllHoused
      { machine with
        rest := (processSetCwd path machine.rest).2 } := by
  unfold processSetCwd
  split
  · exact hHoused
  · rename_i slot _
    split_ifs
    · exact hHoused
    · intro other
      change Process.Housed (if other = slot then _ else _)
      split_ifs with hSlot
      · have hEq :=
          setCwd_cwd hStored hString
            (machine.rest.processes slot)
        unfold Process.Housed
        rw [hEq]
        exact ⟨fun _ => hStored, fun _ => hStored⟩
      · exact hHoused other

theorem keeps_fsChdir :
    KeepsMachine (δ := δ) AllHoused
      (dispatchCall (kernelServices devices) frame
        .fsChdir) := by
  intro kernel hKernel
  change Ensures _ (withPath _ _ _) _ _
  unfold withPath
  rw [ensures_bind_iff]
  apply (ensures_resolvePath devices _ hKernel).mono
  rintro path middle ⟨hMiddle, hPath⟩
  cases path with
  | none => exact (ensures_pure_iff _ _ _ _).mpr hMiddle
  | some path =>
      rcases hPath path rfl with ⟨hStored, hString⟩
      dsimp only
      unfold syscallFsChdir
      rw [ensures_bind_iff, ensures_get_iff]
      split
      · exact (ensures_pure_iff _ _ _ _).mpr hMiddle
      · rw [ensures_ite_iff]
        constructor
        · intro _
          exact (ensures_pure_iff _ _ _ _).mpr hMiddle
        · intro _
          have hAfter :=
            allHoused_processSetCwd hStored hString hMiddle
          simp only [runRest, getRest, modifyRest,
            ensures_bind_iff, ensures_get_iff,
            ensures_modify_iff, ensures_pure_iff]
          rw [ensures_ite_iff]
          constructor
          · intro _
            exact (ensures_pure_iff _ _ _ _).mpr hAfter
          · intro _
            exact (ensures_pure_iff _ _ _ _).mpr hAfter

theorem preserves_createService
    (devices : Devices δ)
    {cwd : List UInt8}
    (hStored : StoredCwd cwd)
    (hString : 0 ∉ cwd)
    (path : List UInt8)
    (fs : Ext2.State) :
    Preserves Foreign AllHoused
      ((kernelServices devices).processCreateFilesystemProcess
        path cwd fs) :=
  (preserves_createProcess hStored hString path fs).bind
    fun _ => Preserves.of_pure _ _

/- A launched process starts where its parent is. -/
theorem ensures_appRunPath_housed
    {kernel : Kernel (Userland δ)}
    (hHoused : AllHoused kernel.machine)
    {slot : Slot}
    (hCurrent :
      kernel.machine.rest.scheduler.current = some slot)
    (hRooted :
      (kernel.machine.rest.processes slot).pml4Phys ≠ 0) :
    Ensures (fun _ => False)
      (dispatchCall (kernelServices devices) frame
        .appRunPath)
      kernel
      fun _ final => AllHoused final.machine := by
  apply ensures_withPath_of
  · intro middle hMiddle
    rw [hMiddle]
    exact hHoused
  intro path middle hMiddle
  rw [← hMiddle] at hHoused hCurrent hRooted
  have hView :
      (kernelServices devices).schedulerCurrentProcess
          middle.machine.rest =
        some (middle.machine.rest.processes slot).view := by
    simp only [kernelServices, hCurrent, Option.map_some]
  unfold syscallAppRunPath
  simp only [getRest, ensures_bind_iff, ensures_get_iff,
    ensures_pure_iff, hView]
  apply ensures_runMachine_of
    (preserves_createService devices
      ((hHoused slot).2 hRooted)
      (middle.machine.rest.processes slot).cwd.2 path
      middle.fs middle.machine hHoused)
  · exact fun _ _ => hHoused
  intro created machine hMachine
  cases created with
  | none =>
      rw [ensures_pure_iff]
      exact hMachine
  | some process =>
      apply ensures_runMachine_of
        (preserves_runBlocking (Fin.ofNat 8 process) frame
          machine hMachine)
      · exact fun _ _ => hMachine
      · intro _ after hAfter
        rw [ensures_pure_iff]
        exact hAfter

/- Every system call keeps the working directories. -/
theorem ensures_dispatchCall_housed
    {kernel : Kernel (Userland δ)}
    (hHoused : AllHoused kernel.machine)
    {slot : Slot}
    (hCurrent :
      kernel.machine.rest.scheduler.current = some slot)
    (hRooted :
      (kernel.machine.rest.processes slot).pml4Phys ≠ 0)
    (call : Call) :
    Ensures (fun _ => False)
      (dispatchCall (kernelServices devices) frame call)
      kernel
      fun _ final => AllHoused final.machine := by
  cases hCall : Call.changesTasks call with
  | false =>
      exact (allHoused_steady.replies_dispatchCall devices
        frame hCall).keepsMachine kernel hHoused
  | true =>
      cases call with
      | exit => exact keeps_exit kernel hHoused
      | sbrk => exact keeps_sbrk kernel hHoused
      | fsChdir => exact keeps_fsChdir kernel hHoused
      | appRunPath =>
          exact ensures_appRunPath_housed hHoused hCurrent
            hRooted
      | _ => cases hCall

end

end Userspace

end Whirliscope

------------------------------------------------------------
-- Runs
------------------------------------------------------------

namespace Whirliscope

namespace Userspace

open ByteMemory FaultProgram Syscall
open Ext2 (slash)

variable {δ : Type}

theorem preserves_loadInit
    (fs : Ext2.State) :
    Preserves (σ := UserMachine δ) (fun _ => True) AllHoused
      (loadInit fs) := by
  unfold loadInit
  intro machine hMachine
  rw [ensures_bind_iff]
  apply ((preserves_createInit initPath fs machine
    hMachine).allow fun _ _ => trivial).mono
  intro ready after hAfter
  rw [ensures_bind_iff, ensures_modify_iff, ensures_ite_iff]
  constructor
  · intro _
    exact (ensures_throw_iff _ _ _ _).mpr trivial
  · intro _
    exact (ensures_pure_iff _ _ _ _).mpr hAfter

/- The table of processes starts without directories. -/
theorem ensures_userspaceInit_housed
    (fs : Ext2.State)
    (machine : UserMachine δ) :
    Ensures (fun _ => True) (userspaceInit fs) machine
      fun _ after => AllHoused after := by
  unfold userspaceInit processTableInit modifyScheduler
  simp only [ensures_bind_iff, ensures_modify_iff]
  have hBlank : AllHoused (blank machine) :=
    fun _ => ⟨fun hNever => absurd rfl hNever,
      fun hNever => absurd rfl hNever⟩
  apply (preserves_loadInit fs _ hBlank).mono
  exact fun _ _ hAfter => hAfter

theorem preserves_launchInit
    (fs : Ext2.State) :
    Preserves (σ := UserMachine δ) (fun _ => True) AllHoused
      (userspaceLaunchInit fs) := by
  have hPrepare :
      ∀ process,
        Preserves (σ := UserMachine δ) (fun _ => True)
          AllHoused (schedulerPrepareLaunch process) := by
    intro process
    unfold schedulerPrepareLaunch
    refine (Preserves.of_get _).bind fun machine => ?_
    dsimp only
    split
    · exact Preserves.of_pure _ _
    · refine Preserves.ite (Preserves.of_pure _ _) ?_
      exact (preserves_modifyScheduler _).bind fun _ =>
        Preserves.of_pure _ _
  have hRest :
      Preserves (σ := UserMachine δ) (fun _ => True) AllHoused
        (do
          let launched ←
            schedulerPrepareLaunch
              (processFirst (← get).rest.processes)
          if !launched then throw (.panic .launchRefused)
          schedulerEnterCurrent) := by
    refine (Preserves.of_get _).bind fun machine => ?_
    refine (hPrepare _).bind fun launched => ?_
    exact Preserves.ite (Preserves.of_throw _ trivial)
      preserves_enterCurrent
  unfold userspaceLaunchInit
  refine (Preserves.of_get _).bind fun machine => ?_
  dsimp only
  refine Preserves.ite (Preserves.of_throw _ trivial) ?_
  refine Preserves.ite ?_ hRest
  exact (preserves_loadInit fs).bind fun _ => hRest

theorem Start.housed
    {state : Running δ}
    (hStart : Start state) :
    AllHoused state.kernel.machine := by
  rcases hStart.launches with ⟨machine, hReturns⟩
  have hLaunch :
      Ensures (fun _ => True)
        (do
          userspaceInit state.kernel.fs
          userspaceLaunchInit state.kernel.fs)
        machine fun _ after => AllHoused after := by
    rw [ensures_bind_iff]
    apply (ensures_userspaceInit_housed _ machine).mono
    intro _ ready hReady
    exact preserves_launchInit _ ready hReady
  exact hLaunch.of_returns hReturns

section

variable {devices : Devices δ}
variable {launched : Slot → Option Launch}
variable {top : Slot} {launches : List Launch}

theorem ensures_exceptionDispatch_housed
    {kernel : Kernel (Userland δ)}
    (hOrderly :
      Orderly kernel.machine launched top launches)
    (hHoused : AllHoused kernel.machine)
    (frame : InterruptFrame) :
    Ensures (fun _ => False) (exceptionDispatch devices frame)
      kernel fun _ final => AllHoused final.machine := by
  have hRooted := hOrderly.rooted top List.mem_cons_self
  unfold exceptionDispatch
  rw [ensures_ite_iff]
  constructor
  · intro _
    rw [ensures_bind_iff]
    simp only [syscallDispatch]
    split
    · simp only [ensures_pure_iff]
      exact hHoused
    · rename_i call _
      apply (ensures_dispatchCall_housed hHoused
        hOrderly.current hRooted call).mono
      intro reply final hFinal
      exact (ensures_pure_iff _ _ _ _).mpr hFinal
  · intro _
    exact (ensures_pure_iff _ _ _ _).mpr hHoused

theorem schedulerTick_housed
    {machine : UserMachine δ}
    (hHoused : AllHoused machine)
    (frame : InterruptFrame) :
    AllHoused (schedulerTick frame machine) := by
  unfold schedulerTick
  dsimp only
  split
  · exact hHoused
  · rename_i slot _
    split_ifs
    · exact hHoused
    · exact allHoused_withProcess
        (fun other _ => hHoused other) (hHoused slot)

theorem Step.housed
    {state after : Running δ}
    (hOrderly :
      Orderly state.kernel.machine state.launched top
        launches)
    (hHoused : AllHoused state.kernel.machine)
    (hStep : Step devices state after) :
    AllHoused after.kernel.machine := by
  cases hStep with
  | syscall frame regs kernel hReturns =>
      exact (ensures_exceptionDispatch_housed hOrderly hHoused
        frame).of_returns hReturns
  | launch frame kernel hReturns =>
      exact (ensures_exceptionDispatch_housed hOrderly hHoused
        frame).of_returns hReturns
  | tick frame => exact schedulerTick_housed hHoused frame
  | device told => exact hHoused
  | user memory => exact hHoused

theorem Run.housed
    {first last : Running δ}
    (hStart : Start first)
    (hRun : Run devices first last) :
    AllHoused last.kernel.machine := by
  induction hRun with
  | refl => exact hStart.housed
  | step hBefore hStep ih =>
      rcases hBefore.orderly hStart with
        ⟨top, launches, hOrderly⟩
      exact hStep.housed hOrderly ih

/-
  A user path is resolved to the stack of its names, within
  the buffers, and in every run each process that runs or
  waits has a normal working directory.
-/
theorem paths_resolved
    (devices : Devices δ) :
    (∀ cwd path, NormalPath cwd → path ≠ [] →
      path.length ≤ 127 → Resolves cwd path) ∧
    (∀ (kernel : Kernel (Userland δ)) (userAddress : Nat),
      Ensures (fun _ => False)
        (copyUserString userAddress userFsPathMax) kernel
        fun result _ =>
          ∀ chars, result = some chars →
            0 ∉ chars ∧ chars.length < userFsPathMax) ∧
    ∀ first last, Start first → Run devices first last →
      ∀ slot,
        let process := last.rest.processes slot
        (¬ process.Unused → NormalPath process.cwd.1) ∧
          (process.cwd.1 ≠ [] → NormalPath process.cwd.1) := by
  refine ⟨fun _ _ hNormal hPath hShort =>
    hNormal.resolves hPath hShort,
    fun kernel userAddress =>
      ensures_copyUserString userAddress userFsPathMax kernel,
    ?_⟩
  intro first last hStart hRun slot process
  have hHoused : process.Housed :=
    Run.housed hStart hRun slot
  rcases hRun.orderly hStart with ⟨top, launches, hOrderly⟩
  refine ⟨fun hUsed => ?_, fun hCwd => (hHoused.1 hCwd).1⟩
  have hMem : slot ∈ top :: parents launches := by
    by_contra hOut
    exact hUsed (hOrderly.others slot hOut)
  exact (hHoused.2 (hOrderly.rooted slot hMem)).1

/- The launched process is in the root. -/
theorem childRunning_housed :
    Resolves [slash] [dot, slash, 0x62] ∧
      NormalPath (childRunning.rest.processes 1).cwd.1 := by
  have hPaths := paths_resolved sampleDevices
  refine ⟨hPaths.1 _ _ storedCwd_root.1 (by decide)
    (by decide), ?_⟩
  exact (hPaths.2.2 _ _ initRunning_start childRunning_run
    1).1 (by decide +kernel)

end

end Userspace

end Whirliscope
