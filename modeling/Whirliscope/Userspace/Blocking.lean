import Whirliscope.Userspace.Confinement
import Whirliscope.Userspace.LoadSafety
import Whirliscope.Userspace.TaskRuns

/-
  What runs of the kernel promise to processes.

  The blocked processes form a stack of distinct processes
  below the running one. When a process exits, the process
  that launched it resumes with the registers of its call. The
  values that calls deliver are documented, except the status
  of a process that exits.

  Key definitions include:
    * `Reply.delivered`
    * `undocumentedExit`

  Main theorems:
    * `Run.blocking_stack`
    * `Run.exit_resumes_parent`
    * `Run.delivered_documented_iff`
-/

------------------------------------------------------------
-- A Small System
------------------------------------------------------------

namespace Whirliscope

namespace Userspace

open ByteMemory FaultProgram Syscall

/- A directory record that fills `recLen` bytes. -/
def sampleRecord
    (inode recLen type : Nat)
    (name : String) : List UInt8 :=
  pack [(4, inode), (2, recLen), (1, name.length), (1, type)] ++
    name.toUTF8.toList ++
    List.replicate (recLen - 8 - name.length) 0

/- An inode with one data block. -/
def sampleInode
    (mode size block : Nat) : List UInt8 :=
  pack [(2, mode), (2, 0), (4, size)] ++
    List.replicate 32 0 ++ pack [(4, block)]

/- The fields of the superblock up to the inodes per group. -/
def sampleSuperblock : List UInt8 :=
  pack
    [(4, 16), (4, 16), (4, 0), (4, 0), (4, 0), (4, 1), (4, 0),
      (4, 0), (4, 8192), (4, 8192), (4, 16)]

/-
  An image with the file `/bin/init`. The root directory is in
  block 6, the directory `/bin` in block 7 and the file in
  block 8.
-/
def sampleDisk : Bytes :=
  [(1024, sampleSuperblock), (1080, pack [(2, 0xef53)]),
    (1112, pack [(2, 128)]), (2056, pack [(4, 3)]),
    (3200, sampleInode 0x41ed 1024 6),
    (4352, sampleInode 0x41ed 1024 7),
    (4480, sampleInode 0x81ed 120 8),
    (6144, sampleRecord 2 12 2 "."),
    (6156, sampleRecord 2 12 2 ".."),
    (6168, sampleRecord 11 1000 2 "bin"),
    (7168, sampleRecord 11 12 2 "."),
    (7180, sampleRecord 2 12 2 ".."),
    (7192, sampleRecord 12 1000 1 "init")].foldl
    (fun image part =>
      write image part.1 part.2.length (ofList part.2))
    (write zeros 8192 120 (Elf.sampleImage 1))

def sampleFs : Ext2.State where
  fsImage := true
  superblock := some Ext2.superblockPointer
  image := sampleDisk
  fsSize := 16384
  blockSize := 1024
  groupCount := 1
  writeback := none
  medium := zeros
  stackBytes := zeros

/- The kernel before userspace starts. -/
def bootMachine : UserMachine Unit where
  tables := zeros
  pml4 := 0x1000
  memory := zeros
  rest :=
    { processes := fun _ => {}
      nextPid := 0
      scheduler := schedulerInit
      userspaceReady := false
      initProcessReady := false
      free :=
        (List.range 40).map fun k => 0x2000 + 0x1000 * k
      totalPages := 64
      kernelCr3 := 0x1000
      heap := KernelHeap.kheapInit zeros ()
      devices := () }

def startUserspace : UserM Unit Unit := do
  userspaceInit sampleFs
  userspaceLaunchInit sampleFs

/- Init runs. -/
def initRunning : Running Unit where
  kernel :=
    { fs := sampleFs
      machine :=
        finalOr bootMachine (startUserspace.run bootMachine)
      fsReadBuffer := zeros
      touched := [] }
  launched := fun _ => none

theorem initRunning_start : Start initRunning where
  launches :=
    ⟨bootMachine,
      returns_finalOr bootMachine (by decide +kernel)⟩
  launched := rfl

/- A system call from the first instruction of a program. -/
def sampleCall
    (number arg0 : UInt64) : InterruptFrame where
  r15 := 15
  r14 := 14
  r13 := 13
  r12 := 12
  r11 := 11
  r10 := 10
  r9 := 9
  r8 := 8
  rbp := 7
  rdi := arg0
  rsi := 6
  rdx := 5
  rcx := 4
  rbx := 3
  rax := number
  vector := syscallVector
  errorCode := 0
  rip := 0x400000
  cs := 0x23
  rflags := 0x202
  userRsp := 0x7ffffff00000
  userSs := 0x1b

/- The frame of the stack of init. -/
def stackPhys : Nat := 0x16000

/- Init has written a path at the bottom of its stack. -/
def pathRunning : Running Unit :=
  initRunning.withMachine
    { initRunning.kernel.machine with
      memory :=
        write initRunning.kernel.machine.memory stackPhys 10
          (ofList initPath) }

def sampleDevices : Devices Unit :=
  sampleServices.toDevices

/- `APP_RUN_PATH` with that path. -/
def sampleLaunch : InterruptFrame :=
  sampleCall 27 0x7fffffeff000

/- The launched process runs. -/
def childRunning : Running Unit where
  kernel :=
    finalOr pathRunning.kernel
      ((exceptionDispatch sampleDevices sampleLaunch).run
        pathRunning.kernel)
  launched :=
    recordLaunch (fun _ => none) (some 1)
      (some
        { parent := 0
          frame := sampleLaunch
          root := 0x15000 })

theorem childRunning_current :
    childRunning.rest.scheduler.current = some 1 := by
  decide +kernel

theorem childRunning_run :
    Run sampleDevices initRunning childRunning := by
  have hPath :
      Step sampleDevices initRunning pathRunning :=
    Step.user initRunning _
  have hReturns :
      Returns (exceptionDispatch sampleDevices sampleLaunch)
        pathRunning.kernel .entered childRunning.kernel :=
    returns_finalOr pathRunning.kernel (by decide +kernel)
  have hLaunch := Step.launch pathRunning sampleLaunch _ hReturns
  have hCurrent :
      childRunning.kernel.machine.rest.scheduler.current =
        some 1 :=
    childRunning_current
  have hParent :
      pathRunning.rest.scheduler.current = some 0 := by
    decide +kernel
  have hRoot : pathRunning.kernel.machine.pml4 = 0x15000 := by
    decide +kernel
  rw [hCurrent, hParent, hRoot] at hLaunch
  exact Run.step (Run.step (Run.refl _) hPath) hLaunch

end Userspace

end Whirliscope

------------------------------------------------------------
-- The Blocking Stack
------------------------------------------------------------

namespace Whirliscope

namespace Userspace

open ByteMemory FaultProgram Syscall

variable {δ : Type}

/- The processes in `blocking_runs`, the first one first. -/
def blockedRuns
    (scheduler : Scheduler) : List (Option Slot) :=
  (List.range scheduler.blockingRunDepth).map fun k =>
    (scheduler.blockingRuns k).parent

theorem Stacked.parents_eq
    {runs : Nat → BlockingRun}
    {launched : Slot → Option Launch}
    {child : Slot}
    {launches : List Launch}
    (hStacked : Stacked runs launched child launches) :
    (List.range launches.length).map
        (fun k => (runs k).parent) =
      (parents launches).reverse.map some := by
  induction launches generalizing child with
  | nil => rfl
  | cons launch below ih =>
      rcases hStacked with ⟨hRun, _, hBelow⟩
      rw [List.length_cons, List.range_succ, List.map_append,
        ih hBelow, List.map_singleton, hRun]
      change _ = ((launch.parent :: parents below).reverse).map
        some
      rw [List.reverse_cons, List.map_append]
      rfl

/- No interrupt of an orderly machine panics in a launch. -/
theorem Handled.ne_invalidBlockingLaunch
    {machine after : UserMachine δ}
    {top : Slot}
    {launches : List Launch}
    {frame : InterruptFrame}
    {outcome : Aftermath}
    (hHandled :
      Handled machine top launches frame outcome after) :
    outcome ≠
      .halted (some (.panic .invalidBlockingLaunch)) := by
  intro hOutcome
  cases hHandled with
  | exception | unknown => cases hOutcome
  | call number reply _ hVector hCall hEffect =>
      cases hEffect with
      | stops _ cause _ hCause =>
          injection hOutcome with hCauses
          injection hCauses with hSame
          exact hCause hSame
      | stays | refuses | enters | resumes | leaves
      | faults => cases hOutcome

/-
  In every run from the launch of init on: the processes in
  `blocking_runs` are distinct and blocked, the current one
  runs and is not among them, and all other slots are unused.
  One launch more has been counted than exits and blocked
  processes. No launch panics, and no slot in use is reused.
-/
theorem Run.blocking_stack
    {devices : Devices δ}
    {first last : Running δ}
    (hStart : Start first)
    (hRun : Run devices first last) :
    let scheduler := last.rest.scheduler
    let processes := last.rest.processes
    ∃ current stack,
      scheduler.current = some current ∧
      blockedRuns scheduler = stack.map some ∧
      (current :: stack).Nodup ∧
      ((processes current).state = .running ∧
        (processes current).mainThread.state = .running) ∧
      (∀ slot ∈ stack,
        (processes slot).state = .ready ∧
          (processes slot).mainThread.state = .blocked) ∧
      (∀ slot, slot ∉ current :: stack →
        (processes slot).state = .empty ∨
          (processes slot).state = .exited) ∧
      wrapSub 64 scheduler.launches scheduler.exits =
        scheduler.blockingRunDepth + 1 ∧
      (∀ frame after,
        ¬ Returns (exceptionDispatch devices frame) last.kernel
          (.halted (some (.panic .invalidBlockingLaunch)))
          after) ∧
      ∀ next, Step devices last next →
        SameProcesses last.kernel.machine
          next.kernel.machine := by
  intro scheduler processes
  rcases hRun.orderly hStart with ⟨top, launches, hOrderly⟩
  have hMem :
      ∀ slot,
        slot ∈ top :: (parents launches).reverse ↔
          slot ∈ top :: parents launches := by
    simp
  have hLength : launches.length < 8 := hOrderly.depth_lt
  refine ⟨top, (parents launches).reverse, hOrderly.current,
    ?_, ?_, hOrderly.running, ?_, ?_, ?_, ?_, ?_⟩
  · have hStack := hOrderly.stacked.parents_eq
    rw [← hOrderly.depth] at hStack
    exact hStack
  · have hDistinct := List.nodup_cons.mp hOrderly.distinct
    rw [List.nodup_cons, List.mem_reverse, List.nodup_reverse]
    exact hDistinct
  · intro slot hSlot
    exact hOrderly.blocked slot (List.mem_reverse.mp hSlot)
  · intro slot hSlot
    rw [hMem] at hSlot
    exact hOrderly.others slot hSlot
  · change wrapSub 64
      last.kernel.machine.rest.scheduler.launches
      last.kernel.machine.rest.scheduler.exits =
        last.kernel.machine.rest.scheduler.blockingRunDepth + 1
    rw [hOrderly.counters, hOrderly.depth]
    unfold wrapSub wrap
    omega
  · intro frame after hReturns
    have hHandled :=
      (ensures_exceptionDispatch hOrderly frame).of_returns
        hReturns
    exact hHandled.ne_invalidBlockingLaunch rfl
  · exact fun next hStep => (Step.advances hOrderly hStep).1

/- Init waits below the process that it launched. -/
theorem childRunning_stack :
    childRunning.rest.scheduler.blockingRunDepth = 1 ∧
      wrapSub 64 childRunning.rest.scheduler.launches
        childRunning.rest.scheduler.exits = 2 := by
  have hDepth :
      childRunning.rest.scheduler.blockingRunDepth = 1 := by
    decide +kernel
  rcases Run.blocking_stack initRunning_start
      childRunning_run with
    ⟨_, _, _, _, _, _, _, _, hCount, _⟩
  rw [hDepth] at hCount
  exact ⟨hDepth, hCount⟩

end Userspace

end Whirliscope

------------------------------------------------------------
-- Resuming a Process
------------------------------------------------------------

namespace Whirliscope

namespace Userspace

open ByteMemory FaultProgram Syscall

variable {δ : Type}

/- A word is passed on as a signed result. -/
theorem ofInt_signed
    (word : UInt64) :
    UInt64.ofInt (signed word.toNat) = word := by
  apply UInt64.toNat_inj.mp
  have hWord := word.toNat_lt
  unfold signed UInt64.ofInt
  rw [UInt64.toNat_ofNat']
  split_ifs <;> omega

/- The registers of a call come back from the stack. -/
theorem saveUserFrame_resumed
    (frame : InterruptFrame)
    (launch : Launch) :
    saveUserFrame
        (interruptReturn frame
          (signed (syscallFrame frame).arg0.toNat)
          (syscallFrameFromRegisters (syscallFrame frame)
            launch.run.parentRegs)) =
      { saveUserFrame launch.frame with rax := frame.rdi } := by
  have hStatus :
      UInt64.ofInt (signed (syscallFrame frame).arg0.toNat) =
        frame.rdi :=
    ofInt_signed frame.rdi
  unfold saveUserFrame interruptReturn
  rw [hStatus]
  rfl

section

variable {devices : Devices δ}
variable {launched : Slot → Option Launch}

theorem ensures_exceptionDispatch_exit
    {kernel : Kernel (Userland δ)}
    {top : Slot}
    {launch : Launch}
    {below : List Launch}
    (hOrderly :
      Orderly kernel.machine launched top
        (launch :: below))
    {frame : InterruptFrame}
    (hVector : frame.vector = syscallVector)
    (hExit : callOf frame.rax.toNat = some .exit) :
    Ensures (fun _ => False) (exceptionDispatch devices frame)
      kernel
      fun outcome final =>
        outcome =
            .returns
              (interruptReturn frame
                (signed (syscallFrame frame).arg0.toNat)
                (syscallFrameFromRegisters
                  (syscallFrame frame)
                  launch.run.parentRegs)) ∧
          Popped kernel.machine top launch.parent
            (syscallFrame frame).arg0.toNat
            final.machine := by
  have hNumber :
      callOf (syscallFrame frame).number.toNat =
        some .exit :=
    hExit
  unfold exceptionDispatch
  rw [if_pos hVector, ensures_bind_iff]
  simp only [syscallDispatch, hNumber]
  apply (ensures_exit_resumes hOrderly).mono
  rintro _ final ⟨rfl, hPopped⟩
  rw [ensures_pure_iff]
  exact ⟨rfl, hPopped⟩

/- Only the current process runs. -/
theorem Orderly.running_iff
    {machine : UserMachine δ}
    {top : Slot}
    {launches : List Launch}
    (hOrderly : Orderly machine launched top launches)
    (slot : Slot) :
    (machine.rest.processes slot).state = .running ↔
      slot = top := by
  constructor
  · intro hRunning
    by_contra hNe
    by_cases hBlocked : slot ∈ parents launches
    · rw [(hOrderly.blocked slot hBlocked).1] at hRunning
      cases hRunning
    · have hUnused :=
        hOrderly.others slot
          (List.not_mem_cons_of_ne_of_not_mem hNe hBlocked)
      unfold Process.Unused at hUnused
      rw [hRunning] at hUnused
      rcases hUnused with hEmpty | hExited
      · cases hEmpty
      · cases hExited
  · rintro rfl
    exact hOrderly.running.1

end

/-
  When a launched process exits, the process that launched it
  resumes: it is current, it runs and no other process does,
  its address space is active, and its registers are those of
  its call, except that `rax` is the status.
-/
theorem Run.exit_resumes_parent
    {devices : Devices δ}
    {first last : Running δ}
    (hStart : Start first)
    (hRun : Run devices first last)
    {child : Slot}
    (hCurrent : last.rest.scheduler.current = some child)
    (hChild : child ≠ 0)
    {frame : InterruptFrame}
    (hVector : frame.vector = syscallVector)
    (hExit : callOf frame.rax.toNat = some .exit) :
    ∃ launch after kernel,
      last.launched child = some launch ∧
      launch.IsCall ∧
      Returns (exceptionDispatch devices frame) last.kernel
        (.returns after) kernel ∧
      saveUserFrame after =
        { saveUserFrame launch.frame with rax := frame.rdi } ∧
      kernel.machine.rest.scheduler.current =
        some launch.parent ∧
      kernel.machine.pml4 = launch.root ∧
      kernel.machine.pml4 =
        (kernel.machine.rest.processes
          launch.parent).pml4Phys ∧
      ∀ slot,
        (kernel.machine.rest.processes slot).state = .running ↔
          slot = launch.parent := by
  rcases hRun.orderly hStart with ⟨top, launches, hOrderly⟩
  have hTop : top = child := by
    have hBoth := hOrderly.current.symm.trans hCurrent
    injection hBoth
  rw [hTop] at hOrderly
  cases launches with
  | nil => exact absurd hOrderly.stacked hChild
  | cons launch below =>
      rcases (ensures_exceptionDispatch_exit hOrderly hVector
          hExit).exists_returns with
        ⟨_, kernel, hReturns, rfl, hPopped⟩
      have hAfter := hOrderly.exit hPopped
      have hRoot := hOrderly.roots launch List.mem_cons_self
      refine ⟨launch, _, kernel, hOrderly.stacked.2.1,
        hOrderly.calls launch List.mem_cons_self, hReturns,
        saveUserFrame_resumed frame launch, hAfter.current,
        ?_, hAfter.active, hAfter.running_iff⟩
      rw [hRoot, hPopped.pml4]

/- Init resumes when the process it launched exits. -/
theorem childRunning_exit :
    ∃ after kernel,
      Returns
        (exceptionDispatch sampleDevices (sampleCall 2 7))
        childRunning.kernel (.returns after) kernel ∧
      saveUserFrame after =
        { saveUserFrame sampleLaunch with rax := 7 } ∧
      kernel.machine.rest.scheduler.current = some 0 := by
  have hExit :
      callOf (sampleCall 2 7).rax.toNat = some .exit := by
    decide
  rcases Run.exit_resumes_parent initRunning_start
      childRunning_run childRunning_current (by decide) rfl
      hExit with
    ⟨launch, after, kernel, hLaunch, _, hReturns, hRegs,
      hCurrent, _⟩
  injection hLaunch with hSame
  rw [← hSame] at hRegs hCurrent
  exact ⟨after, kernel, hReturns, hRegs, hCurrent⟩

end Userspace

end Whirliscope

------------------------------------------------------------
-- Delivered Values
------------------------------------------------------------

namespace Whirliscope

namespace Userspace

open ByteMemory FaultProgram Syscall

variable {δ : Type}

/- The value that a process finds in `rax`, if one resumes. -/
def delivered : Reply → Option Int
| .value result => some result
| .resumed result _ => some result
| _ => none

/-
  A process with a waiting parent exits with a status that is
  neither a success value nor a `USER_ERR_*` value.
-/
def undocumentedExit
    (depth : Nat)
    (frame : SyscallFrame) : Prop :=
  callOf frame.number.toNat = some .exit ∧ 0 < depth ∧
    2 ^ 63 ≤ frame.arg0.toNat ∧ frame.arg0.toNat < 2 ^ 64 - 4

theorem documented_signed_iff
    (word : UInt64) :
    Ext2.Documented (signed word.toNat) ↔
      ¬ (2 ^ 63 ≤ word.toNat ∧ word.toNat < 2 ^ 64 - 4) := by
  have hWord := word.toNat_lt
  unfold Ext2.Documented signed Ext2.userErrAgain
    Ext2.userErrFault Ext2.userErrInval Ext2.userErrNosys
  split_ifs <;> omega

/- Only an exit with a waiting parent delivers a status. -/
theorem Effect.documented
    {machine after : UserMachine δ}
    {top : Slot}
    {launches : List Launch}
    {frame : SyscallFrame}
    {call : Call}
    {reply : Reply}
    (hEffect :
      Effect machine top launches frame call reply after)
    (hOther : ¬ (call = .exit ∧ 0 < launches.length))
    (result : Int)
    (hResult : delivered reply = some result) :
    Ext2.Documented result := by
  cases hEffect with
  | stays _ value _ hValue =>
      injection hResult with hSame
      rw [← hSame]
      exact hValue
  | refuses =>
      injection hResult with hSame
      rw [← hSame]
      exact Ext2.documented_inval
  | resumes launch below _ hLaunches =>
      apply absurd _ hOther
      rw [hLaunches]
      exact ⟨rfl, Nat.succ_pos _⟩
  | enters | leaves | faults | stops => cases hResult

/-
  In every run, the value that a call delivers is documented
  unless a launched process exits with another status.
-/
theorem Run.delivered_documented_iff
    {devices : Devices δ}
    {first last : Running δ}
    (hStart : Start first)
    (hRun : Run devices first last)
    (frame : SyscallFrame) :
    ∃ reply final,
      Returns
        (syscallDispatch (kernelServices devices)
          (some frame))
        last.kernel reply final ∧
      ((∀ result, delivered reply = some result →
          Ext2.Documented result) ↔
        ¬ undocumentedExit
          last.rest.scheduler.blockingRunDepth frame) := by
  rcases hRun.orderly hStart with ⟨top, launches, hOrderly⟩
  have hDepth :
      last.rest.scheduler.blockingRunDepth =
        launches.length :=
    hOrderly.depth
  rw [hDepth]
  simp only [syscallDispatch]
  split
  · rename_i hUnknown
    refine ⟨_, last.kernel, rfl, iff_of_true ?_ ?_⟩
    · rintro _ ⟨rfl⟩
      decide
    · rintro ⟨hExit, _⟩
      rw [hUnknown] at hExit
      cases hExit
  rename_i call hCall
  by_cases hExit : call = .exit ∧ 0 < launches.length
  · rcases hExit with ⟨rfl, hWaiting⟩
    cases launches with
    | nil => exact absurd hWaiting (Nat.lt_irrefl 0)
    | cons launch below =>
        rcases (ensures_exit_resumes hOrderly).exists_returns
          with ⟨_, final, hReturns, rfl, _⟩
        refine ⟨_, final, hReturns, ?_⟩
        have hStatus := documented_signed_iff frame.arg0
        simp only [delivered, Option.some.injEq,
          forall_eq', hStatus, undocumentedExit, hCall,
          hWaiting, true_and]
  · rcases (ensures_dispatchCall hOrderly
        call).exists_returns with
      ⟨reply, final, hReturns, hEffect⟩
    refine ⟨reply, final, hReturns, iff_of_true ?_ ?_⟩
    · exact fun result hResult =>
        hEffect.documented hExit result hResult
    · rintro ⟨hNumber, hWaiting, _⟩
      rw [hCall] at hNumber
      injection hNumber with hSame
      exact hExit ⟨hSame, hWaiting⟩

/- A parent receives the status 7. -/
theorem childRunning_delivers :
    ∃ reply final,
      Returns
        (syscallDispatch (kernelServices sampleDevices)
          (some (syscallFrame (sampleCall 2 7))))
        childRunning.kernel reply final ∧
      ∀ result, delivered reply = some result →
        Ext2.Documented result := by
  rcases Run.delivered_documented_iff initRunning_start
      childRunning_run (syscallFrame (sampleCall 2 7)) with
    ⟨reply, final, hReturns, hDocumented⟩
  refine ⟨reply, final, hReturns, hDocumented.mpr ?_⟩
  rintro ⟨_, _, hNegative, _⟩
  revert hNegative
  decide

/- A parent receives the status -5. -/
theorem childRunning_undocumented :
    ¬ ∀ (devices : Devices Unit) (first last : Running Unit),
      Start first → Run devices first last →
        ∀ frame reply final,
          Returns
            (syscallDispatch (kernelServices devices) frame)
            last.kernel reply final →
          ∀ result, delivered reply = some result →
            Ext2.Documented result := by
  intro hAll
  have hReturns :
      Returns
        (syscallDispatch (kernelServices sampleDevices)
          (some
            (syscallFrame (sampleCall 2 0xfffffffffffffffb))))
        childRunning.kernel
        (.resumed (-5)
          (syscallFrameFromRegisters
            (syscallFrame
              (sampleCall 2 0xfffffffffffffffb))
            (registersFromSyscallFrame
              (syscallFrame sampleLaunch))))
        _ :=
    returns_finalOr childRunning.kernel (by decide +kernel)
  have hDocumented :=
    hAll sampleDevices initRunning childRunning
      initRunning_start childRunning_run _ _ _ hReturns (-5) rfl
  revert hDocumented
  decide

end Userspace

end Whirliscope
