import Mathlib.Data.Fintype.Card
import Whirliscope.Userspace.TaskFrames

/-
  The blocked processes form a stack below the current one.

  Each process on the stack waits for the one above it, which
  it launched. Its registers at the launch are saved in the
  stack. All other slots of the table are unused.

  Key definitions include:
    * `Stacked`, `Orderly`
    * `SameTasks`, `AtSlot`

  Main theorems:
    * `Orderly.launch`, `Orderly.exit`
-/

------------------------------------------------------------
-- The Stack of Launches
------------------------------------------------------------

namespace Whirliscope

namespace Userspace

open ByteMemory FaultProgram Syscall

variable {δ : Type}

/- A slot that may be given to a new process. -/
def Process.Unused
    (process : Process) : Prop :=
  process.state = .empty ∨ process.state = .exited

instance
    (process : Process) :
    Decidable process.Unused :=
  inferInstanceAs (Decidable (_ ∨ _))

/- The break of a process is in its heap. -/
def Process.Bounded
    (process : Process) : Prop :=
  process.heapCurrent ≤ userspaceHeapLimit ∧
    process.heapEnd ≤ userspaceHeapLimit

/- The frame of an `APP_RUN_PATH` system call. -/
def Launch.IsCall
    (launch : Launch) : Prop :=
  launch.frame.vector = syscallVector ∧
    callOf launch.frame.rax.toNat = some .appRunPath

/- The entry of the stack that belongs to a launch. -/
def Launch.run
    (launch : Launch) : BlockingRun where
  parent := some launch.parent
  parentRegs :=
    registersFromSyscallFrame (syscallFrame launch.frame)

/-
  The launches that a process waits for, the latest first:
  each is saved in the stack and recorded for the process
  that it launched. The first process is init.
-/
def Stacked
    (runs : Nat → BlockingRun)
    (launched : Slot → Option Launch) :
    Slot → List Launch → Prop
| child, [] => child = 0
| child, launch :: below =>
    runs below.length = launch.run ∧
      launched child = some launch ∧
      Stacked runs launched launch.parent below

def parents
    (launches : List Launch) : List Slot :=
  launches.map Launch.parent

/- The current process, and the launches below it. -/
structure Orderly
    (machine : UserMachine δ)
    (launched : Slot → Option Launch)
    (top : Slot)
    (launches : List Launch) : Prop where
  current : machine.rest.scheduler.current = some top
  initialized : machine.rest.scheduler.initialized = true
  context : machine.rest.scheduler.kernelReturnContext = true
  depth :
    machine.rest.scheduler.blockingRunDepth = launches.length
  stacked :
    Stacked machine.rest.scheduler.blockingRuns launched top
      launches
  distinct : (top :: parents launches).Nodup
  running :
    (machine.rest.processes top).state = .running ∧
      (machine.rest.processes top).mainThread.state =
        .running
  blocked :
    ∀ slot ∈ parents launches,
      (machine.rest.processes slot).state = .ready ∧
        (machine.rest.processes slot).mainThread.state =
          .blocked
  others :
    ∀ slot, slot ∉ top :: parents launches →
      (machine.rest.processes slot).Unused
  counters :
    machine.rest.scheduler.launches =
      wrap 64
        (machine.rest.scheduler.exits + launches.length + 1)
  active :
    machine.pml4 =
      (machine.rest.processes top).pml4Phys
  rooted :
    ∀ slot ∈ top :: parents launches,
      (machine.rest.processes slot).pml4Phys ≠ 0
  roots :
    ∀ launch ∈ launches,
      launch.root =
        (machine.rest.processes launch.parent).pml4Phys
  calls : ∀ launch ∈ launches, launch.IsCall
  bounded : ∀ slot, (machine.rest.processes slot).Bounded

/- The stack depends on the entries and launches in it. -/
theorem Stacked.congr
    {runs runs' : Nat → BlockingRun}
    {launched launched' : Slot → Option Launch}
    {child : Slot}
    {launches : List Launch}
    (hStacked : Stacked runs launched child launches)
    (hRuns : ∀ k, k < launches.length → runs' k = runs k)
    (hLaunched :
      ∀ slot ∈ child :: parents launches,
        launched' slot = launched slot) :
    Stacked runs' launched' child launches := by
  induction launches generalizing child with
  | nil => exact hStacked
  | cons launch below ih =>
      rcases hStacked with ⟨hRun, hChild, hBelow⟩
      refine ⟨?_, ?_, ?_⟩
      · rw [hRuns _ (Nat.lt_succ_self _), hRun]
      · rw [hLaunched child List.mem_cons_self, hChild]
      · apply ih hBelow
        · exact fun k hk => hRuns k (Nat.lt_succ_of_lt hk)
        · exact fun slot hSlot =>
            hLaunched slot (List.mem_cons_of_mem _ hSlot)

end Userspace

end Whirliscope

------------------------------------------------------------
-- Changes That Keep the Tasks
------------------------------------------------------------

namespace Whirliscope

namespace Userspace

open ByteMemory FaultProgram Syscall

variable {δ : Type}

/- The same process, in the same state. -/
structure SameTask
    (before after : Process) : Prop where
  pid : after.pid = before.pid
  state : after.state = before.state
  thread : after.mainThread.state = before.mainThread.state
  pml4Phys : after.pml4Phys = before.pml4Phys
  bounded : before.Bounded → after.Bounded

theorem SameTask.refl
    (process : Process) :
    SameTask process process :=
  ⟨rfl, rfl, rfl, rfl, id⟩

/- The same tasks; counters of ticks may differ. -/
structure SameTasks
    (before after : UserMachine δ) : Prop where
  pml4 : after.pml4 = before.pml4
  scheduler :
    ∃ ticks userPreemptions,
      after.rest.scheduler =
        { before.rest.scheduler with
          ticks := ticks
          userPreemptions := userPreemptions }
  processes :
    ∀ slot,
      SameTask (before.rest.processes slot)
        (after.rest.processes slot)

theorem SameTasks.refl
    (machine : UserMachine δ) :
    SameTasks machine machine :=
  ⟨rfl, ⟨_, _, rfl⟩, fun _ => SameTask.refl _⟩

theorem SameTasks.trans
    {first second third : UserMachine δ}
    (hFirst : SameTasks first second)
    (hSecond : SameTasks second third) :
    SameTasks first third where
  pml4 := hSecond.pml4.trans hFirst.pml4
  scheduler := by
    rcases hFirst.scheduler with ⟨_, _, hEarly⟩
    rcases hSecond.scheduler with ⟨ticks, preempted, hLate⟩
    refine ⟨ticks, preempted, ?_⟩
    rw [hLate, hEarly]
  processes := by
    intro slot
    have hEarly := hFirst.processes slot
    have hLate := hSecond.processes slot
    exact
      { pid := hLate.pid.trans hEarly.pid
        state := hLate.state.trans hEarly.state
        thread := hLate.thread.trans hEarly.thread
        pml4Phys := hLate.pml4Phys.trans hEarly.pml4Phys
        bounded := fun hBounded =>
          hLate.bounded (hEarly.bounded hBounded) }

theorem sameTasks_steady
    (before : UserMachine δ) :
    Steady (SameTasks before) where
  paging := fun _ _ h => ⟨h.pml4, h.scheduler, h.processes⟩
  memory := fun _ _ h => ⟨h.pml4, h.scheduler, h.processes⟩
  heap := fun _ _ h => ⟨h.pml4, h.scheduler, h.processes⟩
  nextPid := fun _ _ h => ⟨h.pml4, h.scheduler, h.processes⟩
  devices := fun _ _ h => ⟨h.pml4, h.scheduler, h.processes⟩

/- A process that is replaced by the same task. -/
theorem SameTasks.withProcess
    {before after : UserMachine δ}
    (hSame : SameTasks before after)
    {slot : Slot}
    {process : Process}
    (hTask : SameTask (before.rest.processes slot) process) :
    SameTasks before (withProcess after slot process) where
  pml4 := hSame.pml4
  scheduler := hSame.scheduler
  processes := by
    intro other
    change SameTask _ (if other = slot then _ else _)
    split_ifs with hSlot
    · rw [hSlot]
      exact hTask
    · exact hSame.processes other

/- The stack keeps its order while its tasks are the same. -/
theorem Orderly.of_stack
    {machine after : UserMachine δ}
    {launched : Slot → Option Launch}
    {top : Slot}
    {launches : List Launch}
    (hOrderly : Orderly machine launched top launches)
    (hPml4 : after.pml4 = machine.pml4)
    {ticks userPreemptions : Nat}
    (hScheduler :
      after.rest.scheduler =
        { machine.rest.scheduler with
          ticks := ticks
          userPreemptions := userPreemptions })
    (hTask :
      ∀ slot ∈ top :: parents launches,
        SameTask (machine.rest.processes slot)
          (after.rest.processes slot))
    (hOthers :
      ∀ slot, slot ∉ top :: parents launches →
        (after.rest.processes slot).Unused)
    (hBounded :
      ∀ slot, (after.rest.processes slot).Bounded) :
    Orderly after launched top launches := by
  have hTop := hTask top List.mem_cons_self
  refine
    { current := ?_, initialized := ?_, context := ?_
      depth := ?_, stacked := ?_
      distinct := hOrderly.distinct
      running := ?_, blocked := ?_, others := hOthers
      counters := ?_, active := ?_, rooted := ?_, roots := ?_
      calls := hOrderly.calls, bounded := hBounded }
  · rw [hScheduler]
    exact hOrderly.current
  · rw [hScheduler]
    exact hOrderly.initialized
  · rw [hScheduler]
    exact hOrderly.context
  · rw [hScheduler]
    exact hOrderly.depth
  · rw [hScheduler]
    exact hOrderly.stacked
  · rw [hTop.state, hTop.thread]
    exact hOrderly.running
  · intro slot hSlot
    have hSame := hTask slot (List.mem_cons_of_mem _ hSlot)
    rw [hSame.state, hSame.thread]
    exact hOrderly.blocked slot hSlot
  · rw [hScheduler]
    exact hOrderly.counters
  · rw [hTop.pml4Phys, hPml4]
    exact hOrderly.active
  · intro slot hSlot
    rw [(hTask slot hSlot).pml4Phys]
    exact hOrderly.rooted slot hSlot
  · intro launch hLaunch
    have hParent : launch.parent ∈ parents launches :=
      List.mem_map_of_mem hLaunch
    rw [(hTask launch.parent
      (List.mem_cons_of_mem _ hParent)).pml4Phys]
    exact hOrderly.roots launch hLaunch

theorem Orderly.of_sameTasks
    {machine after : UserMachine δ}
    {launched : Slot → Option Launch}
    {top : Slot}
    {launches : List Launch}
    (hOrderly : Orderly machine launched top launches)
    (hSame : SameTasks machine after) :
    Orderly after launched top launches := by
  rcases hSame.scheduler with ⟨ticks, preempted, hScheduler⟩
  apply hOrderly.of_stack hSame.pml4 hScheduler
  · exact fun slot _ => hSame.processes slot
  · intro slot hSlot
    unfold Process.Unused
    rw [(hSame.processes slot).state]
    exact hOrderly.others slot hSlot
  · exact fun slot =>
      (hSame.processes slot).bounded (hOrderly.bounded slot)

/- A timer tick saves registers and counts. -/
theorem schedulerTick_sameTasks
    (frame : InterruptFrame)
    (machine : UserMachine δ) :
    SameTasks machine (schedulerTick frame machine) := by
  have hCounted :
      ∀ ticks userPreemptions,
        SameTasks machine
          (withScheduler machine
            { machine.rest.scheduler with
              ticks := ticks
              userPreemptions := userPreemptions }) :=
    fun ticks preempted =>
      ⟨rfl, ⟨ticks, preempted, rfl⟩, fun _ => SameTask.refl _⟩
  unfold schedulerTick
  dsimp only
  split
  · exact hCounted _ _
  · split_ifs
    · exact hCounted _ _
    · rename_i slot _ _
      refine ⟨rfl, ⟨_, _, rfl⟩, fun other => ?_⟩
      change SameTask _ (if other = slot then _ else _)
      split_ifs with hSlot
      · rw [hSlot]
        exact ⟨rfl, rfl, rfl, rfl, id⟩
      · exact SameTask.refl _

end Userspace

end Whirliscope

------------------------------------------------------------
-- Creating a Process
------------------------------------------------------------

namespace Whirliscope

namespace Userspace

open ByteMemory FaultProgram Syscall

variable {δ : Type}

/- At most one process has changed since `before`. -/
structure AtSlot
    (before : UserMachine δ)
    (slot : Slot)
    (process : Process)
    (after : UserMachine δ) : Prop where
  pml4 : after.pml4 = before.pml4
  scheduler : after.rest.scheduler = before.rest.scheduler
  processes :
    after.rest.processes =
      fun other =>
        if other = slot then process
        else before.rest.processes other

theorem AtSlot.refl
    (machine : UserMachine δ)
    (slot : Slot) :
    AtSlot machine slot (machine.rest.processes slot)
      machine where
  pml4 := rfl
  scheduler := rfl
  processes := by
    funext other
    split_ifs with hSlot
    · rw [hSlot]
    · rfl

theorem atSlot_steady
    (before : UserMachine δ)
    (slot : Slot)
    (process : Process) :
    Steady (AtSlot before slot process) where
  paging := fun _ _ h => ⟨h.pml4, h.scheduler, h.processes⟩
  memory := fun _ _ h => ⟨h.pml4, h.scheduler, h.processes⟩
  heap := fun _ _ h => ⟨h.pml4, h.scheduler, h.processes⟩
  nextPid := fun _ _ h => ⟨h.pml4, h.scheduler, h.processes⟩
  devices := fun _ _ h => ⟨h.pml4, h.scheduler, h.processes⟩

theorem AtSlot.at_slot
    {before after : UserMachine δ}
    {slot : Slot}
    {process : Process}
    (hAt : AtSlot before slot process after) :
    after.rest.processes slot = process := by
  rw [hAt.processes]
  exact if_pos rfl

theorem AtSlot.elsewhere
    {before after : UserMachine δ}
    {slot other : Slot}
    {process : Process}
    (hAt : AtSlot before slot process after)
    (hOther : other ≠ slot) :
    after.rest.processes other =
      before.rest.processes other := by
  rw [hAt.processes]
  exact if_neg hOther

/- No process has changed. -/
theorem AtSlot.move
    {before after : UserMachine δ}
    {slot : Slot}
    (hAt :
      AtSlot before slot (before.rest.processes slot) after)
    (other : Slot) :
    AtSlot before other (before.rest.processes other) after :=
  have hProcesses :
      after.rest.processes = before.rest.processes :=
    hAt.processes.trans (AtSlot.refl before slot).processes.symm
  ⟨hAt.pml4, hAt.scheduler,
    hProcesses.trans (AtSlot.refl before other).processes⟩

theorem AtSlot.sameTasks
    {before after : UserMachine δ}
    {slot : Slot}
    (hAt :
      AtSlot before slot (before.rest.processes slot) after) :
    SameTasks before after where
  pml4 := hAt.pml4
  scheduler := ⟨_, _, hAt.scheduler⟩
  processes := by
    intro other
    rw [(hAt.move other).at_slot]
    exact SameTask.refl _

theorem ensures_modifyProcess
    {before machine : UserMachine δ}
    {slot : Slot}
    {process : Process}
    (hAt : AtSlot before slot process machine)
    (change : Process → Process) :
    Ensures Foreign (modifyProcess slot change) machine
      fun _ after =>
        AtSlot before slot (change process) after := by
  unfold modifyProcess
  rw [ensures_modify_iff]
  refine ⟨hAt.pml4, hAt.scheduler, ?_⟩
  funext other
  change (if other = slot then _ else _) = _
  split_ifs with hSlot
  · rw [hAt.at_slot]
  · exact hAt.elsewhere hSlot

/- A process that was loaded and has not run. -/
structure Process.Fresh
    (process : Process) : Prop where
  ready : process.isReady = true
  rooted : process.pml4Phys ≠ 0
  bounded : process.Bounded

theorem setCwd_fields
    (path : List UInt8)
    (process : Process) :
    (setCwd path process).pml4Phys = process.pml4Phys ∧
      (setCwd path process).heapCurrent =
        process.heapCurrent ∧
      (setCwd path process).heapEnd = process.heapEnd := by
  unfold setCwd
  split_ifs <;> exact ⟨rfl, rfl, rfl⟩

/- What a loaded image makes of its slot. -/
def Loaded
    (before : UserMachine δ)
    (slot : Slot)
    (loaded : Bool)
    (after : UserMachine δ) : Prop :=
  (loaded = true →
    ∃ process,
      process.Fresh ∧ AtSlot before slot process after) ∧
  (loaded = false →
    AtSlot before slot (before.rest.processes slot) after)

theorem ensures_processPrepareUserImage
    {before machine : UserMachine δ}
    {slot : Slot}
    (hAt :
      AtSlot before slot (before.rest.processes slot) machine)
    (pid : Nat)
    (name : List UInt8)
    (pml4Phys : Nat)
    (image : Elf.Elf64Image) :
    Ensures Foreign
      (processPrepareUserImage slot pid name pml4Phys image)
      machine
      fun prepared after =>
        (prepared = true →
          pml4Phys ≠ 0 ∧
            AtSlot before slot
              (preparedProcess pid name pml4Phys image.entry)
              after) ∧
        (prepared = false →
          AtSlot before slot (before.rest.processes slot)
            after) := by
  have hRefused :
      (false = true →
        pml4Phys ≠ 0 ∧
          AtSlot before slot
            (preparedProcess pid name pml4Phys image.entry)
            machine) ∧
      (false = false →
        AtSlot before slot (before.rest.processes slot)
          machine) :=
    ⟨fun h => absurd h Bool.false_ne_true, fun _ => hAt⟩
  unfold processPrepareUserImage
  rw [ensures_ite_iff]
  constructor
  · intro _
    exact (ensures_pure_iff _ _ _ _).mpr hRefused
  · intro hRoot
    rw [ensures_ite_iff]
    constructor
    · intro _
      exact (ensures_pure_iff _ _ _ _).mpr hRefused
    · intro _
      rw [ensures_bind_iff]
      apply (ensures_modifyProcess hAt _).mono
      intro _ after hAfter
      rw [ensures_pure_iff]
      exact ⟨fun _ => ⟨hRoot, hAfter⟩,
        fun h => absurd h.symm Bool.false_ne_true⟩

theorem ensures_processLoadUserImageBytes
    {before machine : UserMachine δ}
    {slot : Slot}
    (hAt :
      AtSlot before slot (before.rest.processes slot) machine)
    (pid : Nat)
    (name : List UInt8)
    (imageBytes : Bytes)
    (imageSize : Nat)
    (cwd : List UInt8) :
    Ensures Foreign
      (processLoadUserImageBytes slot pid name imageBytes
        imageSize cwd)
      machine (Loaded before slot) := by
  have hSteady :=
    atSlot_steady before slot (before.rest.processes slot)
  have hFailed :
      ∀ after,
        AtSlot before slot (before.rest.processes slot) after →
          Loaded before slot false after :=
    fun after hAfter =>
      ⟨fun h => absurd h Bool.false_ne_true, fun _ => hAfter⟩
  unfold processLoadUserImageBytes
  rw [ensures_bind_iff]
  apply (hSteady.preserves_vmmCreateAddressSpace _ hAt).mono
  intro pml4Phys m1 h1
  rw [ensures_bind_iff]
  apply (hSteady.preserves_pmmAllocPage _ h1).mono
  intro stackPhys m2 h2
  rw [ensures_ite_iff]
  constructor
  · intro _
    exact (ensures_pure_iff _ _ _ _).mpr (hFailed _ h2)
  intro _
  split
  · exact (ensures_pure_iff _ _ _ _).mpr (hFailed _ h2)
  rename_i image _
  rw [ensures_bind_iff]
  apply (hSteady.preserves_clearPage _ _ h2).mono
  intro _ m3 h3
  rw [ensures_bind_iff]
  have hLoader :=
    Steady.preserves_runLoader
      (hSteady.pageManager_closed.keeps_loadUserImageSegments
        pml4Phys imageBytes image)
  apply (hLoader _ h3).mono
  intro loaded m4 h4
  rw [ensures_ite_iff]
  constructor
  · intro _
    exact (ensures_pure_iff _ _ _ _).mpr (hFailed _ h4)
  intro _
  rw [ensures_bind_iff]
  apply (hSteady.preserves_vmmMapPageInSpace _ _ _ _ _ h4).mono
  intro mapped m5 h5
  rw [ensures_ite_iff]
  constructor
  · intro _
    exact (ensures_pure_iff _ _ _ _).mpr (hFailed _ h5)
  intro _
  rw [ensures_bind_iff]
  apply (ensures_processPrepareUserImage h5 pid name pml4Phys
    image).mono
  intro prepared m6 h6
  cases prepared with
  | false =>
      simp only [Bool.not_false, if_true, ensures_pure_iff]
      exact hFailed _ (h6.2 rfl)
  | true =>
      rcases h6.1 rfl with ⟨hRoot, hPrepared⟩
      simp only [Bool.not_true, Bool.false_eq_true, if_false,
        ensures_bind_iff]
      apply (ensures_modifyProcess hPrepared _).mono
      intro _ after hAfter
      rw [ensures_pure_iff]
      refine ⟨fun _ => ⟨_, ?_, hAfter⟩,
        fun h => absurd h.symm Bool.false_ne_true⟩
      rcases setCwd_fields cwd
          (preparedProcess pid name pml4Phys image.entry) with
        ⟨hPml4, hCurrent, hEnd⟩
      refine ⟨by simp [Process.withStates, Process.isReady],
        ?_, ?_⟩
      · change (setCwd cwd _).pml4Phys ≠ 0
        rw [hPml4]
        exact hRoot
      · change (setCwd cwd _).heapCurrent ≤ _ ∧
          (setCwd cwd _).heapEnd ≤ _
        rw [hCurrent, hEnd]
        have hBase : userspaceHeapBase ≤ userspaceHeapLimit := by
          decide
        exact ⟨hBase, Nat.le_refl _⟩

/- What loading a file makes of its slot. -/
def FileLoaded
    (before : UserMachine δ)
    (slot : Slot)
    (loaded : Bool)
    (after : UserMachine δ) : Prop :=
  ∃ process,
    AtSlot before slot process after ∧
      (loaded = true → process.Fresh) ∧
      (loaded = false → process.Unused ∧ process.Bounded)

theorem ensures_loadFromBuffer
    {before machine : UserMachine δ}
    {slot : Slot}
    (hAt :
      AtSlot before slot (before.rest.processes slot) machine)
    (hBounded : (before.rest.processes slot).Bounded)
    (name : List UInt8)
    (image size : Nat)
    (cwd : List UInt8) :
    Ensures Foreign
      (loadFromBuffer slot name image size cwd)
      machine (FileLoaded before slot) := by
  have hSteady := atSlot_steady before slot
  unfold loadFromBuffer
  rw [ensures_bind_iff]
  apply ((hSteady _).preserves_takePid _ hAt).mono
  intro pid m1 h1
  rw [ensures_bind_iff, ensures_get_iff, ensures_bind_iff]
  apply (ensures_processLoadUserImageBytes h1 pid name _ size
    cwd).mono
  intro loaded m2 h2
  cases loaded with
  | false =>
      simp only [Bool.not_false, if_true, ensures_bind_iff]
      apply (ensures_modifyProcess (h2.2 rfl) _).mono
      intro _ m3 h3
      apply ((hSteady _).preserves_kfree image _ h3).mono
      intro _ after hAfter
      rw [ensures_pure_iff]
      exact ⟨_, hAfter, fun h => absurd h Bool.false_ne_true,
        fun _ => ⟨.inl rfl, hBounded⟩⟩
  | true =>
      rcases h2.1 rfl with ⟨process, hFresh, hLoaded⟩
      simp only [Bool.not_true, Bool.false_eq_true, if_false,
        ensures_bind_iff]
      apply ((hSteady _).preserves_kfree image _ hLoaded).mono
      intro _ after hAfter
      rw [ensures_pure_iff]
      exact ⟨process, hAfter, fun _ => hFresh,
        fun h => absurd h.symm Bool.false_ne_true⟩

theorem unusedSlot_unused
    {processes : Slot → Process}
    {slot : Slot}
    (hSlot : unusedSlot processes = some slot) :
    (processes slot).Unused := by
  have hFound := List.find?_some hSlot
  simpa [Process.Unused] using hFound

/- What `process_create_filesystem_process` does. -/
def Created
    (before : UserMachine δ)
    (created : Option Slot)
    (after : UserMachine δ) : Prop :=
  SameTasks before after ∧ created = none ∨
    ∃ slot process,
      (before.rest.processes slot).Unused ∧
      AtSlot before slot process after ∧
      (created = some slot ∧ process.Fresh ∨
        created = none ∧ process.Unused ∧ process.Bounded)

theorem ensures_processCreateFilesystemProcess
    {before : UserMachine δ}
    (hBounded :
      ∀ slot, (before.rest.processes slot).Bounded)
    (path cwd : List UInt8)
    (fs : Ext2.State) :
    Ensures Foreign
      (processCreateFilesystemProcess path cwd fs) before
      (Created before) := by
  -- Reading the file changes no process at all.
  have hSteady :=
    atSlot_steady before 0 (before.rest.processes 0)
  unfold processCreateFilesystemProcess
  rw [ensures_bind_iff]
  apply (hSteady.preserves_readImageFile path fs before
    (AtSlot.refl before 0)).mono
  intro buffer machine hRead
  split
  · rw [ensures_pure_iff]
    exact .inl ⟨hRead.sameTasks, rfl⟩
  · rename_i image size
    rw [ensures_bind_iff, ensures_get_iff]
    split
    · rw [ensures_bind_iff]
      apply (hSteady.preserves_kfree image _ hRead).mono
      intro _ after hAfter
      rw [ensures_pure_iff]
      exact .inl ⟨hAfter.sameTasks, rfl⟩
    · rename_i slot hSlot
      have hUnused : (before.rest.processes slot).Unused := by
        rw [← (hRead.move slot).at_slot]
        exact unusedSlot_unused hSlot
      rw [ensures_bind_iff]
      apply (ensures_loadFromBuffer (hRead.move slot)
        (hBounded slot) _ _ _ _).mono
      rintro loaded after ⟨process, hAt, hFresh, hFailed⟩
      cases loaded with
      | true =>
          simp only [if_true, ensures_pure_iff]
          exact .inr ⟨slot, process, hUnused, hAt,
            .inl ⟨rfl, hFresh rfl⟩⟩
      | false =>
          simp only [Bool.false_eq_true, if_false,
            ensures_pure_iff]
          exact .inr ⟨slot, process, hUnused, hAt,
            .inr ⟨rfl, hFailed rfl⟩⟩

end Userspace

end Whirliscope

------------------------------------------------------------
-- Launching and Exiting
------------------------------------------------------------

namespace Whirliscope

namespace Userspace

open ByteMemory FaultProgram Syscall

variable {δ : Type}

section

variable {machine : UserMachine δ}
variable {launched : Slot → Option Launch}
variable {top : Slot} {launches : List Launch}

/- The slots of the stack are in use. -/
theorem Orderly.not_mem_of_unused
    (hOrderly : Orderly machine launched top launches)
    {slot : Slot}
    (hUnused : (machine.rest.processes slot).Unused) :
    slot ∉ top :: parents launches := by
  intro hMem
  unfold Process.Unused at hUnused
  rcases List.mem_cons.mp hMem with rfl | hParent
  · rw [hOrderly.running.1] at hUnused
    simp at hUnused
  · rw [(hOrderly.blocked slot hParent).1] at hUnused
    simp at hUnused

/- There is room on the stack for every process. -/
theorem Orderly.depth_lt
    (hOrderly : Orderly machine launched top launches) :
    launches.length < userspaceMaxProcesses := by
  have hLength := hOrderly.distinct.length_le_card
  rw [List.length_cons, parents, List.length_map,
    Fintype.card_fin] at hLength
  exact hLength

/- A failed launch leaves its slot unused. -/
theorem Orderly.of_atSlot
    (hOrderly : Orderly machine launched top launches)
    {after : UserMachine δ}
    {slot : Slot}
    {process : Process}
    (hUnused : (machine.rest.processes slot).Unused)
    (hAt : AtSlot machine slot process after)
    (hFailed : process.Unused)
    (hBounded : process.Bounded) :
    Orderly after launched top launches := by
  have hOut := hOrderly.not_mem_of_unused hUnused
  apply hOrderly.of_stack hAt.pml4 hAt.scheduler
  · intro other hOther
    rw [hAt.elsewhere]
    · exact SameTask.refl _
    · rintro rfl
      exact hOut hOther
  · intro other hOther
    by_cases hSlot : other = slot
    · rw [hSlot, hAt.at_slot]
      exact hFailed
    · rw [hAt.elsewhere hSlot]
      exact hOrderly.others other hOther
  · intro other
    by_cases hSlot : other = slot
    · rw [hSlot, hAt.at_slot]
      exact hBounded
    · rw [hAt.elsewhere hSlot]
      exact hOrderly.bounded other

/- The scheduler after a blocking launch. -/
def Scheduler.pushed
    (scheduler : Scheduler)
    (top slot : Slot)
    (frame : SyscallFrame) : Scheduler :=
  { scheduler with
    current := some slot
    launches := wrap 64 (scheduler.launches + 1)
    blockingRuns := fun k =>
      if k = scheduler.blockingRunDepth then
        { parent := some top
          parentRegs := registersFromSyscallFrame frame }
      else
        scheduler.blockingRuns k
    blockingRunDepth := scheduler.blockingRunDepth + 1 }

/- What `scheduler_run_process_blocking` does. -/
structure Pushed
    (ready : UserMachine δ)
    (top slot : Slot)
    (frame : SyscallFrame)
    (after : UserMachine δ) : Prop where
  scheduler :
    after.rest.scheduler =
      ready.rest.scheduler.pushed top slot frame
  child :
    after.rest.processes slot =
      (ready.rest.processes slot).withStates .running .running
  parent :
    after.rest.processes top =
      (ready.rest.processes top).withStates .ready .blocked
  others :
    ∀ other, other ≠ slot → other ≠ top →
      after.rest.processes other = ready.rest.processes other
  pml4 : after.pml4 = (ready.rest.processes slot).pml4Phys

theorem ensures_schedulerRunProcessBlocking
    {ready : UserMachine δ}
    {top slot : Slot}
    (hCurrent : ready.rest.scheduler.current = some top)
    (hInitialized : ready.rest.scheduler.initialized = true)
    (hContext :
      ready.rest.scheduler.kernelReturnContext = true)
    (hDepth :
      ready.rest.scheduler.blockingRunDepth <
        userspaceMaxProcesses)
    (hReady : (ready.rest.processes slot).isReady = true)
    (hRooted : (ready.rest.processes slot).pml4Phys ≠ 0)
    (hNe : slot ≠ top)
    (frame : SyscallFrame) :
    Ensures (fun _ => False)
      (schedulerRunProcessBlocking slot frame) ready
      fun _ after => Pushed ready top slot frame after := by
  have hAccepted :
      (!ready.rest.scheduler.initialized ||
        !(ready.rest.processes slot).isReady ||
        ready.rest.scheduler.blockingRunDepth ≥
          userspaceMaxProcesses) = false := by
    rw [hInitialized, hReady]
    simpa using hDepth
  unfold schedulerRunProcessBlocking schedulerEnterCurrent
  simp only [ensures_bind_iff, ensures_get_iff, hCurrent,
    hAccepted, Bool.false_eq_true, if_false, modifyProcess,
    modifyScheduler, vmmActivateAddressSpace,
    ensures_modify_iff, withProcess, withScheduler,
    hContext, Bool.not_true, if_neg hNe]
  refine
    { scheduler := ?_
      child := if_pos rfl
      parent := ?_
      others := ?_
      pml4 := if_neg hRooted }
  · rw [← hContext]
    rfl
  · exact (if_neg hNe.symm).trans (if_pos rfl)
  · exact fun other hSlot hTop =>
      (if_neg hSlot).trans (if_neg hTop)

/- The parent is put on the stack below its child. -/
theorem Orderly.launch
    (hOrderly : Orderly machine launched top launches)
    {ready after : UserMachine δ}
    {slot : Slot}
    {process : Process}
    {frame : InterruptFrame}
    (hUnused : (machine.rest.processes slot).Unused)
    (hAt : AtSlot machine slot process ready)
    (hFresh : process.Fresh)
    (hPushed :
      Pushed ready top slot (syscallFrame frame) after)
    (hVector : frame.vector = syscallVector)
    (hCall : callOf frame.rax.toNat = some .appRunPath) :
    let launch : Launch :=
      { parent := top
        frame := frame
        root := machine.pml4 }
    Orderly after
      (recordLaunch launched (some slot) (some launch))
      slot (launch :: launches) := by
  intro launch
  have hOut := hOrderly.not_mem_of_unused hUnused
  have hNe : slot ≠ top := by
    rintro rfl
    exact hOut List.mem_cons_self
  have hScheduler :
      after.rest.scheduler =
        machine.rest.scheduler.pushed top slot
          (syscallFrame frame) := by
    rw [hPushed.scheduler, hAt.scheduler]
  have hChild :
      after.rest.processes slot =
        process.withStates .running .running := by
    rw [hPushed.child, hAt.at_slot]
  have hParent :
      after.rest.processes top =
        (machine.rest.processes top).withStates .ready
          .blocked := by
    rw [hPushed.parent, hAt.elsewhere hNe.symm]
  have hOthers :
      ∀ other, other ≠ slot → other ≠ top →
        after.rest.processes other =
          machine.rest.processes other := by
    intro other hSlot hTop
    rw [hPushed.others other hSlot hTop, hAt.elsewhere hSlot]
  have hStack :
      ∀ other ∈ parents launches,
        after.rest.processes other =
          machine.rest.processes other := by
    intro other hOther
    apply hOthers
    · rintro rfl
      exact hOut (List.mem_cons_of_mem _ hOther)
    · rintro rfl
      exact (List.nodup_cons.mp hOrderly.distinct).1 hOther
  refine
    { current := by rw [hScheduler]; rfl
      initialized := by
        rw [hScheduler]
        exact hOrderly.initialized
      context := by
        rw [hScheduler]
        exact hOrderly.context
      depth := ?_
      stacked := ?_
      distinct := List.nodup_cons.mpr ⟨hOut, hOrderly.distinct⟩
      running := by rw [hChild]; exact ⟨rfl, rfl⟩
      blocked := ?_
      others := ?_
      counters := ?_
      active := ?_
      rooted := ?_
      roots := ?_
      calls :=
        List.forall_mem_cons.mpr
          ⟨⟨hVector, hCall⟩, hOrderly.calls⟩
      bounded := ?_ }
  · rw [hScheduler, List.length_cons, ← hOrderly.depth]
    rfl
  · rw [hScheduler]
    refine ⟨?_, ?_, ?_⟩
    · exact if_pos hOrderly.depth.symm
    · exact if_pos rfl
    · apply hOrderly.stacked.congr
      · intro k hk
        apply if_neg
        rw [hOrderly.depth]
        exact Nat.ne_of_lt hk
      · intro other hOther
        apply if_neg
        rintro ⟨rfl⟩
        exact hOut hOther
  · intro other hOther
    rcases List.mem_cons.mp hOther with rfl | hBelow
    · rw [hParent]
      exact ⟨rfl, rfl⟩
    · rw [hStack other hBelow]
      exact hOrderly.blocked other hBelow
  · intro other hOther
    rw [List.mem_cons, not_or] at hOther
    have hTop : other ≠ top := by
      rintro rfl
      exact hOther.2 List.mem_cons_self
    rw [hOthers other hOther.1 hTop]
    exact hOrderly.others other hOther.2
  · rw [hScheduler]
    change wrap 64 (machine.rest.scheduler.launches + 1) =
      wrap 64
        (machine.rest.scheduler.exits +
          (launches.length + 1) + 1)
    rw [hOrderly.counters]
    simp only [wrap]
    omega
  · rw [hPushed.pml4, hAt.at_slot, hChild]
    rfl
  · intro other hOther
    rcases List.mem_cons.mp hOther with rfl | hBelow
    · rw [hChild]
      exact hFresh.rooted
    · rcases List.mem_cons.mp hBelow with rfl | hBelow
      · rw [hParent]
        exact hOrderly.rooted _ List.mem_cons_self
      · rw [hStack other hBelow]
        exact hOrderly.rooted other
          (List.mem_cons_of_mem _ hBelow)
  · intro other hOther
    rcases List.mem_cons.mp hOther with rfl | hBelow
    · change machine.pml4 = (after.rest.processes top).pml4Phys
      rw [hParent]
      exact hOrderly.active
    · rw [hStack other.parent (List.mem_map_of_mem hBelow)]
      exact hOrderly.roots other hBelow
  · intro other
    by_cases hSlot : other = slot
    · rw [hSlot, hChild]
      exact hFresh.bounded
    · by_cases hTop : other = top
      · rw [hTop, hParent]
        exact hOrderly.bounded top
      · rw [hOthers other hSlot hTop]
        exact hOrderly.bounded other

/- The scheduler after the exit of a launched process. -/
def Scheduler.popped
    (scheduler : Scheduler)
    (parent : Slot)
    (status : Nat) : Scheduler :=
  { scheduler with
    current := some parent
    exits := wrap 64 (scheduler.exits + 1)
    lastExitStatus := status
    blockingRuns := fun k =>
      if k = scheduler.blockingRunDepth - 1 then {}
      else scheduler.blockingRuns k
    blockingRunDepth := scheduler.blockingRunDepth - 1 }

/- What `scheduler_finish_blocking_exit` does. -/
structure Popped
    (before : UserMachine δ)
    (top parent : Slot)
    (status : Nat)
    (after : UserMachine δ) : Prop where
  scheduler :
    after.rest.scheduler =
      before.rest.scheduler.popped parent status
  exited :
    after.rest.processes top =
      (before.rest.processes top).withStates .exited .exited
  resumed :
    after.rest.processes parent =
      (before.rest.processes parent).withStates .running
        .running
  others :
    ∀ other, other ≠ top → other ≠ parent →
      after.rest.processes other =
        before.rest.processes other
  pml4 : after.pml4 = (before.rest.processes parent).pml4Phys

/- The process that launched the current one resumes. -/
theorem ensures_schedulerFinishBlockingExit
    {launch : Launch}
    {below : List Launch}
    (hOrderly :
      Orderly machine launched top (launch :: below))
    (status : Nat)
    (frame : SyscallFrame) :
    Ensures (fun _ => False)
      (schedulerFinishBlockingExit status frame) machine
      fun result after =>
        result =
            some
              (syscallFrameFromRegisters frame
                launch.run.parentRegs) ∧
          Popped machine top launch.parent status after := by
  have hNe : launch.parent ≠ top := by
    intro hSame
    apply (List.nodup_cons.mp hOrderly.distinct).1
    rw [← hSame]
    exact List.mem_cons_self
  have hDepth :
      machine.rest.scheduler.blockingRunDepth =
        below.length + 1 :=
    hOrderly.depth
  have hSome :
      ¬ machine.rest.scheduler.blockingRunDepth = 0 := by
    omega
  have hRun :
      machine.rest.scheduler.blockingRuns
          (machine.rest.scheduler.blockingRunDepth - 1) =
        launch.run := by
    rw [hDepth]
    exact hOrderly.stacked.1
  have hRooted :
      (machine.rest.processes launch.parent).pml4Phys ≠ 0 :=
    hOrderly.rooted _
      (List.mem_cons_of_mem _ List.mem_cons_self)
  have hParent : launch.run.parent = some launch.parent := rfl
  unfold schedulerFinishBlockingExit
  simp only [ensures_bind_iff, ensures_get_iff, hSome,
    if_false, hRun, hParent, hOrderly.current, markExited,
    countExit, modifyProcess, modifyScheduler,
    vmmActivateAddressSpace, ensures_modify_iff,
    ensures_pure_iff, withProcess, withScheduler, if_neg hNe,
    if_true, true_and]
  refine
    { scheduler := rfl
      exited := ?_
      resumed := if_pos rfl
      others := ?_
      pml4 := if_neg hRooted }
  · exact (if_neg hNe.symm).trans (if_pos rfl)
  · exact fun other hTop hParent =>
      (if_neg hParent).trans (if_neg hTop)

/- Without a blocked process there is nothing to resume. -/
theorem ensures_schedulerFinishBlockingExit_init
    (hOrderly : Orderly machine launched top [])
    (status : Nat)
    (frame : SyscallFrame) :
    Ensures (fun _ => False)
      (schedulerFinishBlockingExit status frame) machine
      fun result _ => result = none := by
  have hDepth :
      machine.rest.scheduler.blockingRunDepth = 0 :=
    hOrderly.depth
  unfold schedulerFinishBlockingExit
  simp only [ensures_bind_iff, ensures_get_iff, hDepth,
    if_true, ensures_pure_iff]

/- The child leaves the stack, and its parent is current. -/
theorem Orderly.exit
    {launch : Launch}
    {below : List Launch}
    (hOrderly :
      Orderly machine launched top (launch :: below))
    {after : UserMachine δ}
    {status : Nat}
    (hPopped :
      Popped machine top launch.parent status after) :
    Orderly after launched launch.parent below := by
  have hDistinct := List.nodup_cons.mp hOrderly.distinct
  have hNe : launch.parent ≠ top := by
    intro hSame
    apply hDistinct.1
    rw [← hSame]
    exact List.mem_cons_self
  have hDepth :
      machine.rest.scheduler.blockingRunDepth =
        below.length + 1 :=
    hOrderly.depth
  have hParents :
      ∀ other ∈ parents below,
        after.rest.processes other =
          machine.rest.processes other := by
    intro other hOther
    apply hPopped.others
    · rintro rfl
      exact hDistinct.1 (List.mem_cons_of_mem _ hOther)
    · rintro rfl
      exact (List.nodup_cons.mp hDistinct.2).1 hOther
  refine
    { current := by rw [hPopped.scheduler]; rfl
      initialized := by
        rw [hPopped.scheduler]
        exact hOrderly.initialized
      context := by
        rw [hPopped.scheduler]
        exact hOrderly.context
      depth := ?_
      stacked := ?_
      distinct := hDistinct.2
      running := by rw [hPopped.resumed]; exact ⟨rfl, rfl⟩
      blocked := ?_
      others := ?_
      counters := ?_
      active := ?_
      rooted := ?_
      roots := ?_
      calls := (List.forall_mem_cons.mp hOrderly.calls).2
      bounded := ?_ }
  · rw [hPopped.scheduler]
    change machine.rest.scheduler.blockingRunDepth - 1 = _
    omega
  · rw [hPopped.scheduler]
    apply hOrderly.stacked.2.2.congr
    · intro k hk
      apply if_neg
      omega
    · exact fun _ _ => rfl
  · intro other hOther
    rw [hParents other hOther]
    exact hOrderly.blocked other
      (List.mem_cons_of_mem _ hOther)
  · intro other hOther
    rw [List.mem_cons, not_or] at hOther
    by_cases hTop : other = top
    · rw [hTop, hPopped.exited]
      exact .inr rfl
    · rw [hPopped.others other hTop hOther.1]
      apply hOrderly.others
      rw [List.mem_cons, not_or]
      refine ⟨hTop, ?_⟩
      exact List.not_mem_cons_of_ne_of_not_mem hOther.1
        hOther.2
  · rw [hPopped.scheduler]
    change machine.rest.scheduler.launches =
      wrap 64
        (wrap 64 (machine.rest.scheduler.exits + 1) +
          below.length + 1)
    rw [hOrderly.counters, List.length_cons]
    simp only [wrap]
    omega
  · rw [hPopped.pml4, hPopped.resumed]
    rfl
  · intro other hOther
    rcases List.mem_cons.mp hOther with rfl | hBelow
    · rw [hPopped.resumed]
      exact hOrderly.rooted _
        (List.mem_cons_of_mem _ List.mem_cons_self)
    · rw [hParents other hBelow]
      exact hOrderly.rooted other
        (List.mem_cons_of_mem _
          (List.mem_cons_of_mem _ hBelow))
  · intro other hOther
    rw [hParents other.parent (List.mem_map_of_mem hOther)]
    exact hOrderly.roots other (List.mem_cons_of_mem _ hOther)
  · intro other
    by_cases hTop : other = top
    · rw [hTop, hPopped.exited]
      exact hOrderly.bounded top
    · by_cases hParent : other = launch.parent
      · rw [hParent, hPopped.resumed]
        exact hOrderly.bounded launch.parent
      · rw [hPopped.others other hTop hParent]
        exact hOrderly.bounded other

end

end Userspace

end Whirliscope
