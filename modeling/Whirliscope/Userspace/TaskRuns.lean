import Whirliscope.Userspace.Tasks

/-
  Runs of the kernel from the launch of init on.

  Every system call leaves the tasks alone, launches a process
  above the current one, or ends the current process and
  resumes the one below it.

  Key definitions include:
    * `Effect`

  Main theorem:
    * `Run.orderly`
-/

------------------------------------------------------------
-- What a System Call Does to the Tasks
------------------------------------------------------------

namespace Whirliscope

namespace Userspace

open ByteMemory FaultProgram Syscall

variable {δ : Type}

/- `process_sbrk` moves the break of the current process. -/
theorem ensures_processSbrk
    {machine : UserMachine δ}
    (hBounded :
      ∀ slot, (machine.rest.processes slot).Bounded)
    (increment : Nat) :
    Ensures Foreign (processSbrk increment) machine
      fun result after =>
        SameTasks machine after ∧
          ∀ oldBreak, result = some oldBreak →
            oldBreak ≤ userspaceHeapLimit := by
  have hSteady := sameTasks_steady machine
  have hRefl := SameTasks.refl machine
  have hNone :
      ∀ after, SameTasks machine after →
        SameTasks machine after ∧
          ∀ oldBreak, (none : Option Nat) = some oldBreak →
            oldBreak ≤ userspaceHeapLimit :=
    fun after hAfter => ⟨hAfter, fun _ h => by cases h⟩
  unfold processSbrk
  rw [ensures_bind_iff, ensures_get_iff]
  dsimp only
  split
  · exact (ensures_pure_iff _ _ _ _).mpr (hNone _ hRefl)
  rename_i slot _
  have hOld :
      ∀ oldBreak,
        some (machine.rest.processes slot).heapCurrent =
            some oldBreak →
          oldBreak ≤ userspaceHeapLimit := by
    rintro _ ⟨rfl⟩
    exact (hBounded slot).1
  rw [ensures_ite_iff]
  constructor
  · intro _
    exact (ensures_pure_iff _ _ _ _).mpr ⟨hRefl, hOld⟩
  intro _
  rw [ensures_ite_iff]
  constructor
  · intro _
    exact (ensures_pure_iff _ _ _ _).mpr (hNone _ hRefl)
  intro _
  rw [ensures_ite_iff]
  constructor
  · intro _
    exact (ensures_pure_iff _ _ _ _).mpr (hNone _ hRefl)
  intro hRange
  rw [ensures_bind_iff]
  have hLoop :=
    Preserves.loop (Preserves.of_throw _ (.inl rfl))
      (hSteady.preserves_sbrkVisit
        (machine.rest.processes slot).pml4Phys
        (alignUp 64
          (wrap 64
            ((machine.rest.processes slot).heapCurrent +
              increment)) vmmPageSize)) (2 ^ 53)
      (alignUp 64 (machine.rest.processes slot).heapCurrent
        vmmPageSize)
  apply (hLoop machine hRefl).mono
  intro grown middle hMiddle
  cases grown with
  | false =>
      simp only [Bool.not_false, if_true, ensures_pure_iff]
      exact hNone _ hMiddle
  | true =>
      simp only [Bool.not_true, Bool.false_eq_true, if_false,
        ensures_bind_iff, modifyProcess, ensures_modify_iff,
        ensures_pure_iff]
      refine ⟨hMiddle.withProcess ?_, hOld⟩
      have hTask := hMiddle.processes slot
      have hHeap := hTask.bounded (hBounded slot)
      have hEnd := (hBounded slot).2
      refine ⟨hTask.pid, hTask.state, hTask.thread,
        hTask.pml4Phys, fun _ => ⟨?_, hHeap.2⟩⟩
      change wrap 64 _ ≤ _
      omega

/- `process_set_cwd` changes no more than a path. -/
theorem processSetCwd_sameTasks
    (path : List UInt8)
    (machine : UserMachine δ) :
    SameTasks machine
      { machine with
        rest := (processSetCwd path machine.rest).2 } := by
  have hRefl := SameTasks.refl machine
  unfold processSetCwd
  split
  · exact ⟨hRefl.pml4, hRefl.scheduler, hRefl.processes⟩
  · rename_i slot _
    split_ifs with hPath
    · exact ⟨hRefl.pml4, hRefl.scheduler, hRefl.processes⟩
    · refine ⟨hRefl.pml4, hRefl.scheduler, fun other => ?_⟩
      change SameTask _ (if other = slot then _ else _)
      split_ifs with hSlot
      · rw [hSlot, setCwd, if_neg hPath]
        exact ⟨rfl, rfl, rfl, rfl, id⟩
      · exact SameTask.refl _

/-
  What a call does to the tasks: the machine before it, the
  current process and the launches below it are given.
-/
inductive Effect
    (machine : UserMachine δ)
    (top : Slot)
    (launches : List Launch)
    (frame : SyscallFrame) :
    Call → Reply → UserMachine δ → Prop
| stays
    (call : Call)
    (result : Int)
    (after : UserMachine δ)
    (hResult : Ext2.Documented result)
    (hSame : SameTasks machine after) :
    Effect machine top launches frame call (.value result)
      after
/- A launch that fails. -/
| refuses
    (slot : Slot)
    (process : Process)
    (after : UserMachine δ)
    (hUnused : (machine.rest.processes slot).Unused)
    (hAt : AtSlot machine slot process after)
    (hFailed : process.Unused ∧ process.Bounded) :
    Effect machine top launches frame .appRunPath
      (.value Ext2.userErrInval) after
| enters
    (slot : Slot)
    (process : Process)
    (ready after : UserMachine δ)
    (hUnused : (machine.rest.processes slot).Unused)
    (hAt : AtSlot machine slot process ready)
    (hFresh : process.Fresh)
    (hPushed : Pushed ready top slot frame after) :
    Effect machine top launches frame .appRunPath .entered
      after
| resumes
    (launch : Launch)
    (below : List Launch)
    (after : UserMachine δ)
    (hLaunches : launches = launch :: below)
    (hPopped :
      Popped machine top launch.parent frame.arg0.toNat
        after) :
    Effect machine top launches frame .exit
      (.resumed (signed frame.arg0.toNat)
        (syscallFrameFromRegisters frame
          launch.run.parentRegs)) after
| leaves
    (after : UserMachine δ)
    (hLaunches : launches = []) :
    Effect machine top launches frame .exit .left after
| faults
    (call : Call)
    (cause : Ext2.Fault)
    (after : UserMachine δ) :
    Effect machine top launches frame call (.fault cause)
      after
| stops
    (call : Call)
    (cause : Stop)
    (after : UserMachine δ)
    (hCause : cause ≠ .panic .invalidBlockingLaunch) :
    Effect machine top launches frame call (.stopped cause)
      after

/- A service runs on the machine of the kernel. -/
theorem ensures_runMachine_of
    {κ α : Type}
    {stops : Stop → Prop}
    {service : MachineM κ α}
    {next : α → KernelM κ Reply}
    {kernel : Kernel κ}
    {middle : α → Machine κ → Prop}
    {post : Reply → Kernel κ → Prop}
    (hService :
      Ensures stops service kernel.machine middle)
    (hStops :
      ∀ cause, stops cause → post (.stopped cause) kernel)
    (hNext :
      ∀ value machine, middle value machine →
        Ensures (fun _ => False) (next value)
          { kernel with machine := machine } post) :
    Ensures (fun _ => False) (runMachine service next)
      kernel post := by
  unfold runMachine
  rw [ensures_bind_iff, ensures_get_iff]
  unfold Ensures at hService
  split
  · rename_i value machine hRun
    rw [hRun, yields_ok_iff] at hService
    rw [ensures_bind_iff, ensures_set_iff]
    exact hNext value machine hService
  · rename_i cause hRun
    rw [hRun, yields_error_iff] at hService
    rw [ensures_pure_iff]
    exact hStops cause hService

theorem Foreign.ne_invalidBlockingLaunch
    {cause : Stop}
    (hForeign : Foreign cause) :
    cause ≠ .panic .invalidBlockingLaunch := by
  rcases hForeign with rfl | rfl <;> decide

section

variable {devices : Devices δ}
variable {launched : Slot → Option Launch}
variable {top : Slot} {launches : List Launch}
variable {kernel : Kernel (Userland δ)}
variable {frame : SyscallFrame}

theorem ensures_sbrk
    (hOrderly :
      Orderly kernel.machine launched top launches) :
    Ensures (fun _ => False)
      (dispatchCall (kernelServices devices) frame .sbrk)
      kernel
      fun reply final =>
        Effect kernel.machine top launches frame .sbrk reply
          final.machine := by
  apply ensures_runMachine_of
    (ensures_processSbrk hOrderly.bounded frame.arg0.toNat)
  · exact fun cause hCause =>
      .stops _ _ _ hCause.ne_invalidBlockingLaunch
  · rintro result machine ⟨hSame, hResult⟩
    cases result with
    | none =>
        rw [ensures_pure_iff]
        exact .stays _ _ _ Ext2.documented_fault hSame
    | some oldBreak =>
        rw [ensures_pure_iff]
        refine .stays _ _ _ (.inl ?_) hSame
        apply Steady.signed_nonneg
        have hLimit : userspaceHeapLimit < 2 ^ 63 := by
          decide
        exact Nat.lt_of_le_of_lt (hResult oldBreak rfl) hLimit

/- A call with a path that it resolves. -/
theorem ensures_withPath_of
    {body : List UInt8 → KernelM (Userland δ) Reply}
    {post : Reply → Kernel (Userland δ) → Prop}
    (userAddress : Nat)
    (hFault :
      ∀ middle, middle.machine = kernel.machine →
        post (.value Ext2.userErrFault) middle)
    (hBody :
      ∀ path middle, middle.machine = kernel.machine →
        Ensures (fun _ => False) (body path) middle post) :
    Ensures (fun _ => False)
      (withPath (kernelServices devices) userAddress body)
      kernel post := by
  have hResolve :
      KeepsMachine (fun machine => machine = kernel.machine)
        (copyAndResolveUserPath (kernelServices devices)
          userAddress) := by
    unfold copyAndResolveUserPath
    refine (Steady.keeps_copyUserString _ _).bind
      fun path => ?_
    split
    · exact Preserves.of_pure _ _
    · exact Steady.keeps_getRest.bind fun _ =>
        Preserves.of_pure _ _
  unfold withPath
  rw [ensures_bind_iff]
  apply (hResolve kernel rfl).mono
  intro path middle hMiddle
  split
  · rw [ensures_pure_iff]
    exact hFault middle hMiddle
  · exact hBody _ middle hMiddle

/- `SYSCALL_FS_CHDIR` changes a path. -/
theorem replies_fsChdir
    (machine : UserMachine δ) :
    Replies (SameTasks machine)
      (dispatchCall (kernelServices devices) frame
        .fsChdir) := by
  refine Steady.replies_withPath _ fun path => ?_
  unfold syscallFsChdir
  refine Replies.after (Preserves.of_get _) fun current => ?_
  split
  · exact Replies.of_pure trivial
  · refine Replies.ite Steady.replies_inval ?_
    refine Replies.after ?_ fun changed => ?_
    · intro middle hMiddle
      simp only [runRest, getRest, modifyRest,
        ensures_bind_iff, ensures_get_iff, ensures_modify_iff,
        ensures_pure_iff]
      exact SameTasks.trans hMiddle
        (processSetCwd_sameTasks path middle.machine)
    · exact Replies.ite
        (Replies.of_pure (Ext2.documented_ofNat 0))
        Steady.replies_inval

/- The new process is named by its slot. -/
theorem ensures_createService
    {machine : UserMachine δ}
    (hBounded :
      ∀ slot, (machine.rest.processes slot).Bounded)
    (path cwd : List UInt8)
    (fs : Ext2.State) :
    Ensures Foreign
      ((kernelServices devices).processCreateFilesystemProcess
        path cwd fs)
      machine
      fun created after =>
        ∃ slot : Option Slot,
          created = slot.map Fin.val ∧
            Created machine slot after := by
  change Ensures Foreign (_ >>= fun slot => _) _ _
  rw [ensures_bind_iff]
  apply (ensures_processCreateFilesystemProcess hBounded path
    cwd fs).mono
  intro slot after hAfter
  rw [ensures_pure_iff]
  exact ⟨slot, rfl, hAfter⟩

/- A new process is entered without a panic. -/
theorem ensures_runService
    {machine ready : UserMachine δ}
    {slot : Slot}
    {process : Process}
    (hOrderly : Orderly machine launched top launches)
    (hUnused : (machine.rest.processes slot).Unused)
    (hAt : AtSlot machine slot process ready)
    (hFresh : process.Fresh) :
    Ensures (fun _ => False)
      ((kernelServices devices).schedulerRunProcessBlocking
        slot.val frame)
      ready
      fun _ after => Pushed ready top slot frame after := by
  have hName : Fin.ofNat 8 slot.val = slot :=
    Fin.ext (Nat.mod_eq_of_lt slot.isLt)
  have hOut := hOrderly.not_mem_of_unused hUnused
  have hDepth := hOrderly.depth_lt
  rw [← hOrderly.depth] at hDepth
  change Ensures _
    (schedulerRunProcessBlocking (Fin.ofNat 8 slot.val) frame)
    _ _
  rw [hName]
  apply ensures_schedulerRunProcessBlocking
  · rw [hAt.scheduler]
    exact hOrderly.current
  · rw [hAt.scheduler]
    exact hOrderly.initialized
  · rw [hAt.scheduler]
    exact hOrderly.context
  · rw [hAt.scheduler]
    exact hDepth
  · rw [hAt.at_slot]
    exact hFresh.ready
  · rw [hAt.at_slot]
    exact hFresh.rooted
  · rintro rfl
    exact hOut List.mem_cons_self

/- `SYSCALL_APP_RUN_PATH`. -/
theorem ensures_appRunPath
    (hOrderly :
      Orderly kernel.machine launched top launches) :
    Ensures (fun _ => False)
      (dispatchCall (kernelServices devices) frame
        .appRunPath)
      kernel
      fun reply final =>
        Effect kernel.machine top launches frame .appRunPath
          reply final.machine := by
  apply ensures_withPath_of
  · intro middle hMiddle
    refine .stays _ _ _ Ext2.documented_fault ?_
    rw [hMiddle]
    exact SameTasks.refl _
  intro path middle hMiddle
  unfold syscallAppRunPath
  simp only [getRest, ensures_bind_iff, ensures_get_iff,
    ensures_pure_iff]
  rw [← hMiddle] at hOrderly ⊢
  apply ensures_runMachine_of
    (ensures_createService hOrderly.bounded _ _ _)
  · exact fun cause hCause =>
      .stops _ _ _ hCause.ne_invalidBlockingLaunch
  rintro _ ready ⟨created, rfl, hCreated⟩
  rcases hCreated with ⟨hSame, rfl⟩ |
    ⟨slot, process, hUnused, hAt, hResult⟩
  · rw [Option.map_none, ensures_pure_iff]
    exact .stays _ _ _ Ext2.documented_inval hSame
  rcases hResult with ⟨rfl, hFresh⟩ | ⟨rfl, hFailed⟩
  · rw [Option.map_some]
    apply ensures_runMachine_of
      (ensures_runService hOrderly hUnused hAt hFresh)
    · exact fun _ hNever => hNever.elim
    · intro _ after hPushed
      rw [ensures_pure_iff]
      exact .enters slot process ready after hUnused hAt hFresh
        hPushed
  · rw [Option.map_none, ensures_pure_iff]
    exact .refuses slot process ready hUnused hAt hFailed

/- The message of `SYSCALL_EXIT` leaves the tasks alone. -/
theorem Orderly.exitMessage
    {machine : UserMachine δ}
    (hOrderly : Orderly machine launched top launches)
    (told : δ) :
    Orderly
      { machine with rest := machine.rest.withDevices told }
      launched top launches :=
  hOrderly.of_sameTasks
    ((sameTasks_steady machine).devices machine told
      (SameTasks.refl machine))

/- `SYSCALL_EXIT` of a process that was launched. -/
theorem ensures_exit_resumes
    {launch : Launch}
    {below : List Launch}
    (hOrderly :
      Orderly kernel.machine launched top
        (launch :: below)) :
    Ensures (fun _ => False)
      (dispatchCall (kernelServices devices) frame .exit)
      kernel
      fun reply final =>
        reply =
            .resumed (signed frame.arg0.toNat)
              (syscallFrameFromRegisters frame
                launch.run.parentRegs) ∧
          Popped kernel.machine top launch.parent
            frame.arg0.toNat final.machine := by
  change Ensures _ (syscallExit _ _) _ _
  unfold syscallExit modifyRest
  rw [ensures_bind_iff, ensures_modify_iff]
  have hMessage :=
    hOrderly.exitMessage
      (devices.consoleWrite Syscall.exitMessage
        kernel.machine.rest.devices)
  apply ensures_runMachine_of
  · exact ensures_schedulerFinishBlockingExit hMessage
      frame.arg0.toNat frame
  · exact fun _ hNever => hNever.elim
  · rintro _ after ⟨rfl, hPopped⟩
    rw [ensures_pure_iff]
    exact ⟨rfl, hPopped.scheduler, hPopped.exited,
      hPopped.resumed, hPopped.others, hPopped.pml4⟩

theorem ensures_schedulerExitCurrent
    (status : Nat)
    (machine : UserMachine δ) :
    Ensures (fun cause => cause = .panic .noReturnContext)
      (schedulerExitCurrent status) machine
      fun _ _ => True := by
  unfold schedulerExitCurrent countExit modifyScheduler
    vmmActivateAddressSpace
  rw [ensures_bind_iff, ensures_get_iff, ensures_bind_iff]
  have hMark :
      ∀ current,
        Preserves
          (fun cause => cause = .panic .noReturnContext)
          (fun _ : UserMachine δ => True)
          (markExited current) := by
    intro current
    cases current with
    | none => exact Preserves.of_pure _ _
    | some slot => exact Preserves.of_modify fun _ _ => trivial
  apply (hMark _ machine trivial).mono
  intro _ middle _
  simp only [ensures_bind_iff, ensures_modify_iff,
    ensures_get_iff]
  split_ifs
  · exact (ensures_throw_iff _ _ _ _).mpr rfl
  · exact (ensures_pure_iff _ _ _ _).mpr trivial

/- `SYSCALL_EXIT` of init. -/
theorem ensures_exit_leaves
    (hOrderly : Orderly kernel.machine launched top []) :
    Ensures (fun _ => False)
      (dispatchCall (kernelServices devices) frame .exit)
      kernel
      fun reply final =>
        Effect kernel.machine top [] frame .exit reply
          final.machine := by
  change Ensures _ (syscallExit _ _) _ _
  unfold syscallExit modifyRest
  rw [ensures_bind_iff, ensures_modify_iff]
  have hMessage :=
    hOrderly.exitMessage
      (devices.consoleWrite Syscall.exitMessage
        kernel.machine.rest.devices)
  apply ensures_runMachine_of
  · exact ensures_schedulerFinishBlockingExit_init hMessage
      frame.arg0.toNat frame
  · exact fun _ hNever => hNever.elim
  · rintro _ middle rfl
    apply ensures_runMachine_of
    · exact ensures_schedulerExitCurrent _ _
    · rintro cause rfl
      exact .stops _ _ _ (by decide)
    · intro _ after _
      rw [ensures_pure_iff]
      exact .leaves _ rfl

/- Every call of an orderly machine. -/
theorem ensures_dispatchCall
    (hOrderly :
      Orderly kernel.machine launched top launches)
    (call : Call) :
    Ensures (fun _ => False)
      (dispatchCall (kernelServices devices) frame call)
      kernel
      fun reply final =>
        Effect kernel.machine top launches frame call reply
          final.machine := by
  have hQuiet :
      Replies (SameTasks kernel.machine)
          (dispatchCall (kernelServices devices) frame
            call) →
        Ensures (fun _ => False)
          (dispatchCall (kernelServices devices) frame call)
          kernel
          fun reply final =>
            Effect kernel.machine top launches frame call
              reply final.machine := by
    intro hReplies
    apply (hReplies kernel (SameTasks.refl _)).mono
    rintro reply final ⟨hSame, hReply⟩
    cases reply with
    | value result => exact .stays _ _ _ hReply hSame
    | fault cause => exact .faults _ _ _
    | resumed | entered | left | stopped => cases hReply
  cases hChanges : Call.changesTasks call with
  | false =>
      exact hQuiet
        ((sameTasks_steady _).replies_dispatchCall devices
          frame hChanges)
  | true =>
      cases call with
      | sbrk => exact ensures_sbrk hOrderly
      | fsChdir => exact hQuiet (replies_fsChdir _)
      | appRunPath => exact ensures_appRunPath hOrderly
      | exit =>
          cases launches with
          | nil => exact ensures_exit_leaves hOrderly
          | cons launch below =>
              apply (ensures_exit_resumes hOrderly).mono
              rintro _ final ⟨rfl, hPopped⟩
              exact .resumes launch below _ rfl hPopped
      | _ => cases hChanges

end

end Userspace

end Whirliscope

------------------------------------------------------------
-- The Launch of Init
------------------------------------------------------------

namespace Whirliscope

namespace Userspace

open ByteMemory FaultProgram Syscall

variable {δ : Type}

theorem ensures_processCreateFilesystemInit
    {before : UserMachine δ}
    (hBounded : (before.rest.processes 0).Bounded)
    (path : List UInt8)
    (fs : Ext2.State) :
    Ensures Foreign (processCreateFilesystemInit path fs)
      before
      fun ready after =>
        ready = true →
          ∃ process : Process,
            process.Fresh ∧ AtSlot before 0 process after := by
  have hSteady :=
    atSlot_steady before 0 (before.rest.processes 0)
  unfold processCreateFilesystemInit
  rw [ensures_bind_iff]
  apply (hSteady.preserves_readImageFile path fs before
    (AtSlot.refl before 0)).mono
  intro buffer machine hRead
  split
  · rw [ensures_pure_iff]
    exact fun hNever => absurd hNever Bool.false_ne_true
  · apply (ensures_loadFromBuffer hRead hBounded _ _ _ _).mono
    rintro ready after ⟨process, hAt, hFresh, _⟩ hReady
    exact ⟨process, hFresh hReady, hAt⟩

/- Init is loaded into the first slot, or the kernel stops. -/
theorem ensures_loadInit
    {before : UserMachine δ}
    (hBounded : (before.rest.processes 0).Bounded)
    (fs : Ext2.State) :
    Ensures (fun _ => True) (loadInit fs) before
      fun _ after =>
        ∃ process : Process,
          process.Fresh ∧ AtSlot before 0 process after := by
  unfold loadInit
  rw [ensures_bind_iff]
  apply ((ensures_processCreateFilesystemInit hBounded
    initPath fs).allow fun _ _ => trivial).mono
  intro ready machine hReady
  rw [ensures_bind_iff, ensures_modify_iff]
  cases ready with
  | false => exact (ensures_throw_iff _ _ _ _).mpr trivial
  | true =>
      rcases hReady rfl with ⟨process, hFresh, hAt⟩
      exact (ensures_pure_iff _ _ _ _).mpr
        ⟨process, hFresh, hAt.pml4, hAt.scheduler,
          hAt.processes⟩

/- The table and the scheduler as boot leaves them. -/
def blank
    (machine : UserMachine δ) : UserMachine δ :=
  withScheduler
    { machine with
      rest :=
        { machine.rest with
          processes := fun _ => {}
          nextPid := 1 } }
    schedulerInit

theorem ensures_userspaceInit
    (fs : Ext2.State)
    (machine : UserMachine δ) :
    Ensures (fun _ => True) (userspaceInit fs) machine
      fun _ after =>
        ∃ process : Process,
          process.Fresh ∧
            AtSlot (blank machine) 0 process after := by
  unfold userspaceInit processTableInit modifyScheduler
  simp only [ensures_bind_iff, ensures_modify_iff]
  have hBounded :
      ((blank machine).rest.processes 0).Bounded :=
    ⟨Nat.zero_le _, Nat.zero_le _⟩
  apply (ensures_loadInit hBounded fs).mono
  rintro _ after ⟨process, hFresh, hAt⟩
  exact ⟨process, hFresh, hAt.pml4, hAt.scheduler,
    hAt.processes⟩

/- Init runs, and no other process was ever launched. -/
theorem ensures_userspaceLaunchInit
    {machine ready : UserMachine δ}
    {process : Process}
    (hFresh : process.Fresh)
    (hAt : AtSlot (blank machine) 0 process ready)
    (fs : Ext2.State) :
    Ensures (fun _ => True) (userspaceLaunchInit fs) ready
      fun _ after =>
        Orderly after (fun _ => none) 0 [] := by
  have hZero : ready.rest.processes 0 = process := hAt.at_slot
  have hState : process.state = .ready := by
    have hReady := hFresh.ready
    simp only [Process.isReady, Bool.and_eq_true,
      decide_eq_true_eq] at hReady
    exact hReady.1
  have hFirst :
      processFirst ready.rest.processes = some 0 := by
    simp [processFirst, hZero, hState]
  have hScheduler : ready.rest.scheduler = schedulerInit :=
    hAt.scheduler
  have hInitialized :
      ready.rest.scheduler.initialized = true := by
    rw [hScheduler]
    rfl
  unfold userspaceLaunchInit schedulerPrepareLaunch
    schedulerEnterCurrent
  simp only [ensures_bind_iff, ensures_get_iff, hFirst, hZero,
    hState, reduceCtorEq, if_false, hFresh.ready,
    hInitialized, Option.isNone_some, Bool.or_false,
    Bool.not_true, Bool.or_self, Bool.false_eq_true]
  split_ifs
  · exact (ensures_throw_iff _ _ _ _).mpr trivial
  simp only [ensures_bind_iff, ensures_pure_iff, hFirst,
    hZero, hFresh.ready, hInitialized, modifyScheduler,
    modifyProcess, vmmActivateAddressSpace,
    ensures_modify_iff, ensures_get_iff, withScheduler,
    withProcess, Bool.not_true, Bool.or_self,
    Bool.false_eq_true, if_false]
  have hOther :
      ∀ slot : Slot, slot ≠ 0 →
        ready.rest.processes slot = {} :=
    fun slot hSlot => hAt.elsewhere hSlot
  refine
    { current := rfl
      initialized := rfl
      context := rfl
      depth := ?_
      stacked := rfl
      distinct := List.nodup_singleton _
      running := ⟨rfl, rfl⟩
      blocked := fun _ hNever => absurd hNever List.not_mem_nil
      others := ?_
      counters := ?_
      active := if_neg hFresh.rooted
      rooted := ?_
      roots := fun _ hNever => absurd hNever List.not_mem_nil
      calls := fun _ hNever => absurd hNever List.not_mem_nil
      bounded := ?_ }
  · rw [hScheduler]
    rfl
  · intro slot hSlot
    have hNe : slot ≠ 0 := fun hZero =>
      hSlot (List.mem_singleton.mpr hZero)
    change Process.Unused (if slot = 0 then _ else _)
    rw [if_neg hNe, hOther slot hNe]
    exact .inl rfl
  · rw [hScheduler]
    rfl
  · intro slot hSlot
    rw [List.mem_singleton.mp hSlot]
    exact hFresh.rooted
  · intro slot
    change Process.Bounded (if slot = 0 then _ else _)
    split_ifs with hSlot
    · exact hFresh.bounded
    · rw [hOther slot hSlot]
      exact ⟨Nat.zero_le _, Nat.zero_le _⟩

theorem Start.orderly
    {state : Running δ}
    (hStart : Start state) :
    Orderly state.kernel.machine state.launched 0 [] := by
  rcases hStart.launches with ⟨machine, hReturns⟩
  have hLaunch :
      Ensures (fun _ => True)
        (do
          userspaceInit state.kernel.fs
          userspaceLaunchInit state.kernel.fs)
        machine
        fun _ after => Orderly after (fun _ => none) 0 [] := by
    rw [ensures_bind_iff]
    apply (ensures_userspaceInit _ machine).mono
    rintro _ ready ⟨process, hFresh, hAt⟩
    exact ensures_userspaceLaunchInit hFresh hAt _
  rw [hStart.launched]
  exact hLaunch.of_returns hReturns

end Userspace

end Whirliscope

------------------------------------------------------------
-- Runs
------------------------------------------------------------

namespace Whirliscope

namespace Userspace

open ByteMemory FaultProgram Syscall

variable {δ : Type}

/- What an interrupt does to the tasks. -/
inductive Handled
    (machine : UserMachine δ)
    (top : Slot)
    (launches : List Launch)
    (frame : InterruptFrame) :
    Aftermath → UserMachine δ → Prop
/- An exception halts the kernel. -/
| exception
    (hVector : frame.vector ≠ syscallVector) :
    Handled machine top launches frame (.halted none) machine
| unknown
    (hCall : callOf frame.rax.toNat = none) :
    Handled machine top launches frame
      (aftermath frame (.value Ext2.userErrNosys)) machine
| call
    (number : Call)
    (reply : Reply)
    (after : UserMachine δ)
    (hVector : frame.vector = syscallVector)
    (hCall : callOf frame.rax.toNat = some number)
    (hEffect :
      Effect machine top launches (syscallFrame frame) number
        reply after) :
    Handled machine top launches frame (aftermath frame reply)
      after

section

variable {devices : Devices δ}
variable {launched : Slot → Option Launch}
variable {top : Slot} {launches : List Launch}

theorem ensures_exceptionDispatch
    {kernel : Kernel (Userland δ)}
    (hOrderly :
      Orderly kernel.machine launched top launches)
    (frame : InterruptFrame) :
    Ensures (fun _ => False) (exceptionDispatch devices frame)
      kernel
      fun outcome final =>
        Handled kernel.machine top launches frame outcome
          final.machine := by
  unfold exceptionDispatch
  rw [ensures_ite_iff]
  constructor
  · intro hVector
    rw [ensures_bind_iff]
    simp only [syscallDispatch]
    split
    · rename_i hCall
      simp only [ensures_pure_iff]
      exact .unknown hCall
    · rename_i number hCall
      apply (ensures_dispatchCall hOrderly number).mono
      intro reply final hEffect
      rw [ensures_pure_iff]
      exact .call number reply final.machine hVector hCall
        hEffect
  · intro hVector
    rw [ensures_pure_iff]
    exact .exception hVector

/- Slots in use keep their processes. -/
def SameProcesses
    (before after : UserMachine δ) : Prop :=
  ∀ slot, ¬ (before.rest.processes slot).Unused →
    (after.rest.processes slot).pid =
        (before.rest.processes slot).pid ∧
      (after.rest.processes slot).pml4Phys =
        (before.rest.processes slot).pml4Phys

theorem SameTasks.sameProcesses
    {before after : UserMachine δ}
    (hSame : SameTasks before after) :
    SameProcesses before after :=
  fun slot _ =>
    ⟨(hSame.processes slot).pid,
      (hSame.processes slot).pml4Phys⟩

theorem AtSlot.sameProcesses
    {before after : UserMachine δ}
    {slot : Slot}
    {process : Process}
    (hUnused : (before.rest.processes slot).Unused)
    (hAt : AtSlot before slot process after) :
    SameProcesses before after := by
  intro other hUsed
  rw [hAt.elsewhere]
  · exact ⟨rfl, rfl⟩
  · rintro rfl
    exact hUsed hUnused

theorem Pushed.sameProcesses
    {ready after : UserMachine δ}
    {slot : Slot}
    {frame : SyscallFrame}
    (hPushed : Pushed ready top slot frame after) :
    SameProcesses ready after := by
  intro other _
  by_cases hSlot : other = slot
  · rw [hSlot, hPushed.child]
    exact ⟨rfl, rfl⟩
  · by_cases hTop : other = top
    · rw [hTop, hPushed.parent]
      exact ⟨rfl, rfl⟩
    · rw [hPushed.others other hSlot hTop]
      exact ⟨rfl, rfl⟩

theorem Popped.sameProcesses
    {before after : UserMachine δ}
    {parent : Slot}
    {status : Nat}
    (hPopped : Popped before top parent status after) :
    SameProcesses before after := by
  intro other _
  by_cases hTop : other = top
  · rw [hTop, hPopped.exited]
    exact ⟨rfl, rfl⟩
  · by_cases hParent : other = parent
    · rw [hParent, hPopped.resumed]
      exact ⟨rfl, rfl⟩
    · rw [hPopped.others other hTop hParent]
      exact ⟨rfl, rfl⟩

/- The tasks after one more event are in order. -/
def Advances
    (before : UserMachine δ)
    (launched : Slot → Option Launch)
    (after : UserMachine δ) : Prop :=
  SameProcesses before after ∧
    ∃ top launches, Orderly after launched top launches

theorem Orderly.advances
    {machine after : UserMachine δ}
    (hOrderly : Orderly machine launched top launches)
    (hSame : SameTasks machine after) :
    Advances machine launched after :=
  ⟨hSame.sameProcesses, top, launches,
    hOrderly.of_sameTasks hSame⟩

/- A system call that returns to user mode. -/
theorem Handled.advances_returns
    {machine after : UserMachine δ}
    (hOrderly : Orderly machine launched top launches)
    {frame regs : InterruptFrame}
    {outcome : Aftermath}
    (hHandled :
      Handled machine top launches frame outcome after)
    (hReturns : outcome = .returns regs) :
    Advances machine launched after := by
  cases hHandled with
  | exception => cases hReturns
  | unknown => exact hOrderly.advances (SameTasks.refl _)
  | call number reply _ hVector hCall hEffect =>
      cases hEffect with
      | stays _ result _ hResult hSame =>
          exact hOrderly.advances hSame
      | refuses slot process _ hUnused hAt hFailed =>
          exact ⟨hAt.sameProcesses hUnused, top, launches,
            hOrderly.of_atSlot hUnused hAt hFailed.1
              hFailed.2⟩
      | resumes launch below _ hLaunches hPopped =>
          rw [hLaunches] at hOrderly
          exact ⟨hPopped.sameProcesses, launch.parent, below,
            hOrderly.exit hPopped⟩
      | enters | leaves | faults | stops => cases hReturns

/- A system call that enters a new process. -/
theorem Handled.advances_entered
    {machine after : UserMachine δ}
    (hOrderly : Orderly machine launched top launches)
    {frame : InterruptFrame}
    {outcome : Aftermath}
    (hHandled :
      Handled machine top launches frame outcome after)
    (hEntered : outcome = .entered) :
    Advances machine
      (recordLaunch launched after.rest.scheduler.current
        (some
          { parent := top
            frame := frame
            root := machine.pml4 }))
      after := by
  cases hHandled with
  | exception | unknown => cases hEntered
  | call number reply _ hVector hCall hEffect =>
      cases hEffect with
      | enters slot process ready _ hUnused hAt hFresh hPushed =>
          have hCurrent :
              after.rest.scheduler.current = some slot := by
            rw [hPushed.scheduler]
            rfl
          rw [hCurrent]
          refine ⟨?_, slot, _,
            hOrderly.launch hUnused hAt hFresh hPushed hVector
              hCall⟩
          intro other hUsed
          have hReady : ¬ (ready.rest.processes other).Unused := by
            rw [hAt.elsewhere]
            · exact hUsed
            · rintro rfl
              exact hUsed hUnused
          rw [(hPushed.sameProcesses other hReady).1,
            (hPushed.sameProcesses other hReady).2]
          exact hAt.sameProcesses hUnused other hUsed
      | stays | refuses | resumes | leaves | faults | stops =>
          cases hEntered

theorem Step.advances
    {state after : Running δ}
    (hOrderly :
      Orderly state.kernel.machine state.launched top
        launches)
    (hStep : Step devices state after) :
    Advances state.kernel.machine after.launched
      after.kernel.machine := by
  have hSteady := sameTasks_steady state.kernel.machine
  have hRefl := SameTasks.refl state.kernel.machine
  cases hStep with
  | syscall frame regs kernel hReturns =>
      have hHandled :=
        (ensures_exceptionDispatch hOrderly frame).of_returns
          hReturns
      exact hHandled.advances_returns hOrderly rfl
  | launch frame kernel hReturns =>
      have hHandled :=
        (ensures_exceptionDispatch hOrderly frame).of_returns
          hReturns
      have hParent :
          state.rest.scheduler.current = some top :=
        hOrderly.current
      rw [hParent]
      exact hHandled.advances_entered hOrderly rfl
  | tick frame =>
      exact hOrderly.advances (schedulerTick_sameTasks frame _)
  | device told =>
      exact hOrderly.advances (hSteady.devices _ told hRefl)
  | user memory =>
      exact hOrderly.advances (hSteady.memory _ memory hRefl)

/- In every run the tasks are in order. -/
theorem Run.orderly
    {first last : Running δ}
    (hStart : Start first)
    (hRun : Run devices first last) :
    ∃ top launches,
      Orderly last.kernel.machine last.launched top
        launches := by
  induction hRun with
  | refl => exact ⟨0, [], hStart.orderly⟩
  | step hRun hStep ih =>
      rcases ih with ⟨top, launches, hOrderly⟩
      exact (Step.advances hOrderly hStep).2

end

end Userspace

end Whirliscope
