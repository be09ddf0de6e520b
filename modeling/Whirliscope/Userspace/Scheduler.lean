import Whirliscope.Userspace.ProcessTable

/-
  The scheduler, interrupts and runs of the kernel.

  A launch blocks the launching process until the new process
  exits. User code is not modelled: at every interrupt the
  registers are arbitrary, and between two interrupts memory
  may change.

  Key definitions include:
    * `schedulerRunProcessBlocking`
    * `schedulerFinishBlockingExit`
    * `kernelServices`
    * `exceptionDispatch`
    * `Running`, `Step`, `Run`
-/

------------------------------------------------------------
-- Launching and Exiting
------------------------------------------------------------

namespace Whirliscope

namespace Userspace

open ByteMemory FaultProgram Syscall

variable {δ : Type}

/- `scheduler_init`. -/
def schedulerInit : Scheduler where
  current := none
  kernelReturnContext := false
  initialized := true
  preemptiveEnabled := true
  ticks := 0
  userPreemptions := 0
  launches := 0
  exits := 0
  lastExitStatus := 0
  blockingRuns := fun _ => {}
  blockingRunDepth := 0

/- A process that may be entered. -/
def Process.isReady
    (process : Process) : Bool :=
  process.state = .ready && process.mainThread.state = .ready

def modifyScheduler
    (change : Scheduler → Scheduler) : UserM δ Unit :=
  modify fun machine =>
    withScheduler machine (change machine.rest.scheduler)

/- `scheduler_prepare_launch`, with a return context. -/
def schedulerPrepareLaunch
    (process : Option Slot) : UserM δ Bool := do
  let rest := (← get).rest
  match process with
  | none => return false
  | some slot =>
      if !rest.scheduler.initialized ||
          !(rest.processes slot).isReady then
        return false
      modifyScheduler fun scheduler =>
        { scheduler with
          current := some slot
          kernelReturnContext := true }
      return true

/- `scheduler_enter_current`, up to `arch_enter_user`. -/
def schedulerEnterCurrent : UserM δ Unit := do
  let rest := (← get).rest
  match rest.scheduler.current with
  | none => throw (.panic .noCurrentTask)
  | some slot =>
      if !rest.scheduler.kernelReturnContext then
        throw (.panic .noCurrentTask)
      modifyScheduler fun scheduler =>
        { scheduler with
          launches := wrap 64 (scheduler.launches + 1) }
      modifyProcess slot fun process =>
        process.withStates .running .running
      vmmActivateAddressSpace (rest.processes slot).pml4Phys

/- `registers_from_syscall_frame`. -/
def registersFromSyscallFrame
    (frame : SyscallFrame) : UserRegisters where
  rip := frame.userRip
  rsp := frame.userRsp
  rflags := frame.rflags
  rax := 0
  rbx := frame.rbx
  rcx := frame.rcx
  rdx := frame.arg2
  rsi := frame.arg1
  rdi := frame.arg0
  rbp := frame.rbp
  r8 := frame.arg4
  r9 := frame.arg5
  r10 := frame.arg3
  r11 := frame.r11
  r12 := frame.r12
  r13 := frame.r13
  r14 := frame.r14
  r15 := frame.r15

/- `syscall_frame_from_registers`. -/
def syscallFrameFromRegisters
    (frame : SyscallFrame)
    (regs : UserRegisters) : SyscallFrame :=
  { frame with
    arg0 := regs.rdi
    arg1 := regs.rsi
    arg2 := regs.rdx
    arg3 := regs.r10
    arg4 := regs.r8
    arg5 := regs.r9
    rbx := regs.rbx
    rcx := regs.rcx
    rbp := regs.rbp
    r11 := regs.r11
    r12 := regs.r12
    r13 := regs.r13
    r14 := regs.r14
    r15 := regs.r15
    userRip := regs.rip
    userRsp := regs.rsp
    rflags := regs.rflags }

/- `scheduler_run_process_blocking`. -/
def schedulerRunProcessBlocking
    (process : Slot)
    (parentFrame : SyscallFrame) : UserM δ Unit := do
  let rest := (← get).rest
  let scheduler := rest.scheduler
  match scheduler.current with
  | none => throw (.panic .invalidBlockingLaunch)
  | some parent =>
      if !scheduler.initialized ||
          !(rest.processes process).isReady ||
          scheduler.blockingRunDepth ≥ userspaceMaxProcesses
      then
        throw (.panic .invalidBlockingLaunch)
      modifyProcess parent fun process =>
        process.withStates .ready .blocked
      modifyScheduler fun scheduler =>
        { scheduler with
          blockingRuns := fun k =>
            if k = scheduler.blockingRunDepth then
              { parent := some parent
                parentRegs :=
                  registersFromSyscallFrame parentFrame }
            else
              scheduler.blockingRuns k
          blockingRunDepth := scheduler.blockingRunDepth + 1
          current := some process }
      schedulerEnterCurrent

/- A process that has exited. -/
def markExited : Option Slot → UserM δ Unit
| none => return ()
| some slot =>
    modifyProcess slot fun process =>
      process.withStates .exited .exited

/- The counters after an exit. -/
def countExit
    (status : Nat) : UserM δ Unit :=
  modifyScheduler fun scheduler =>
    { scheduler with
      exits := wrap 64 (scheduler.exits + 1)
      lastExitStatus := status }

/-
  `scheduler_finish_blocking_exit`: the frame that the
  launching process continues with.
-/
def schedulerFinishBlockingExit
    (status : Nat)
    (returnFrame : SyscallFrame) :
    UserM δ (Option SyscallFrame) := do
  let scheduler := (← get).rest.scheduler
  if scheduler.blockingRunDepth = 0 then return none
  let depth := scheduler.blockingRunDepth - 1
  let run := scheduler.blockingRuns depth
  modifyScheduler fun scheduler =>
    { scheduler with
      blockingRunDepth := depth
      blockingRuns := fun k =>
        if k = depth then {} else scheduler.blockingRuns k }
  match run.parent with
  | none => return none
  | some parent =>
      markExited scheduler.current
      countExit status
      modifyScheduler fun scheduler =>
        { scheduler with current := some parent }
      modifyProcess parent fun process =>
        process.withStates .running .running
      vmmActivateAddressSpace
        ((← get).rest.processes parent).pml4Phys
      return some
        (syscallFrameFromRegisters returnFrame run.parentRegs)

/- `scheduler_exit_current`, up to `arch_context_restore`. -/
def schedulerExitCurrent
    (status : Nat) : UserM δ Unit := do
  markExited (← get).rest.scheduler.current
  countExit status
  modifyScheduler fun scheduler =>
    { scheduler with current := none }
  vmmActivateAddressSpace 0
  if !(← get).rest.scheduler.kernelReturnContext then
    throw (.panic .noReturnContext)

end Userspace

end Whirliscope

------------------------------------------------------------
-- Starting Userspace
------------------------------------------------------------

namespace Whirliscope

namespace Userspace

open ByteMemory FaultProgram Syscall

variable {δ : Type}

/- `process_table_init`. -/
def processTableInit : UserM δ Unit :=
  modify fun machine =>
    { machine with
      rest :=
        { machine.rest with
          processes := fun _ => {}
          nextPid := 1 } }

/- `process_first`. -/
def processFirst
    (processes : Slot → Process) : Option Slot :=
  if (processes 0).state = .empty then none else some 0

/- `"/bin/init"`. -/
def initPath : List UInt8 :=
  "/bin/init".toUTF8.toList

/- Load init, and remember whether that worked. -/
def loadInit
    (fs : Ext2.State) : UserM δ Unit := do
  let ready ← processCreateFilesystemInit initPath fs
  modify fun machine =>
    { machine with
      rest := { machine.rest with initProcessReady := ready } }
  if !ready then throw (.panic .initNotLoaded)

/- `userspace_init`. -/
def userspaceInit
    (fs : Ext2.State) : UserM δ Unit := do
  processTableInit
  modifyScheduler fun _ => schedulerInit
  loadInit fs
  modify fun machine =>
    { machine with
      rest := { machine.rest with userspaceReady := true } }

/- `userspace_launch_init`, up to `arch_enter_user`. -/
def userspaceLaunchInit
    (fs : Ext2.State) : UserM δ Unit := do
  let rest := (← get).rest
  if !rest.userspaceReady || !rest.initProcessReady ||
      (processFirst rest.processes).isNone then
    throw (.panic .initNotReady)
  if (rest.processes 0).state = .exited then
    loadInit fs
  let launched ←
    schedulerPrepareLaunch
      (processFirst (← get).rest.processes)
  if !launched then throw (.panic .launchRefused)
  schedulerEnterCurrent

end Userspace

end Whirliscope

------------------------------------------------------------
-- The Services of System Calls
------------------------------------------------------------

namespace Whirliscope

namespace Userspace

open ByteMemory FaultProgram Syscall

variable {δ : Type}

/- The fields of a process that calls read. -/
def Process.view
    (process : Process) : ProcessView where
  cwd := process.cwd
  heapStart := process.heapStart
  heapCurrent := process.heapCurrent
  heapEnd := process.heapEnd

/- `pmm_get_stats`. -/
def pmmGetStats
    (rest : Userland δ) : PmmStats :=
  let freePages := rest.free.length
  { totalBytes := wrap 64 (rest.totalPages * 4096)
    freeBytes := wrap 64 (freePages * 4096)
    usedBytes :=
      wrap 64 (wrapSub 64 rest.totalPages freePages * 4096) }

/- `userspace_get_status`. -/
def userspaceGetStatus
    (rest : Userland δ) : UserspaceStatus :=
  let init :=
    (processFirst rest.processes).map rest.processes
  let scheduler := rest.scheduler
  { initialized := rest.userspaceReady
    syscallDispatchReady := true
    initProcessReady := rest.initProcessReady
    schedulerReady := scheduler.initialized
    preemptiveEnabled := scheduler.preemptiveEnabled
    userTaskActive := scheduler.current.isSome
    userMin := userspaceMinVaddr
    userMax := userspaceMaxVaddr
    imageBase := 0x0000000000400000
    userStackTop := userspaceStackTop
    kernelBase := 0xffff800000000000
    initEntry := (init.map Process.entry).getD 0
    initPml4 := (init.map Process.pml4Phys).getD 0
    schedulerTicks := scheduler.ticks
    userPreemptions := scheduler.userPreemptions
    launches := scheduler.launches
    exits := scheduler.exits
    lastExitStatus := scheduler.lastExitStatus
    appCount := 0 }

/- One pass of `kheap_get_stats`. -/
def freeBytesVisit
    (state : Nat × Nat) :
    KernelHeap.HeapM Unit ((Nat × Nat) ⊕ Nat) := do
  let (block, freeBytes) := state
  if block = 0 then
    return .inr freeBytes
  else
    if ← KernelHeap.loadFree block then
      let size ← KernelHeap.loadField .size block
      let next ← KernelHeap.loadField .next block
      return .inl (next, wrap 64 (freeBytes + size))
    else
      let next ← KernelHeap.loadField .next block
      return .inl (next, freeBytes)

/- `kheap_get_stats` with `kheap_validate`. -/
def kheapStatus : KernelHeap.HeapM Unit HeapStatus := do
  let heap ← get
  let freeBytes ←
    loop (throw .noReturn) freeBytesVisit (2 ^ 64)
      (heap.firstBlock, 0)
  let valid ← KernelHeap.kheapValidate
  return {
    mappedBytes := heap.mappedBytes
    allocatedBytes := heap.allocatedBytes
    freeBytes := freeBytes
    valid := valid }

/- The answer of a list of blocks that cannot be followed. -/
def heapStatus
    (rest : Userland δ) : HeapStatus :=
  match kheapStatus.run rest.heap with
  | .ok (status, _) => status
  | .error _ => ⟨0, 0, 0, false⟩

def Userland.withDevices
    (rest : Userland δ)
    (devices : δ) : Userland δ :=
  { rest with devices := devices }

/- A device that answers and changes its state. -/
def askDevice
    {α : Type}
    (device : δ → α × δ)
    (rest : Userland δ) : α × Userland δ :=
  let (answer, devices) := device rest.devices
  (answer, rest.withDevices devices)

/- A device that changes its state. -/
def tellDevice
    (device : δ → δ)
    (rest : Userland δ) : Userland δ :=
  rest.withDevices (device rest.devices)

/- The services of this kernel, over its devices. -/
def kernelServices
    (devices : Devices δ) : Services (Userland δ) where
  consolePutchar := fun char =>
    tellDevice (devices.consolePutchar char)
  consoleWrite := fun chars =>
    tellDevice (devices.consoleWrite chars)
  consoleClear := tellDevice devices.consoleClear
  consoleSetColor := fun r g b =>
    tellDevice (devices.consoleSetColor r g b)
  consoleSetBackground := fun r g b =>
    tellDevice (devices.consoleSetBackground r g b)
  consoleSetDefaultColors :=
    tellDevice devices.consoleSetDefaultColors
  keyboardReadChar := askDevice devices.keyboardReadChar
  keyboardReadEvent := askDevice devices.keyboardReadEvent
  pmmHhdmOffset := fun rest =>
    devices.pmmHhdmOffset rest.devices
  klogSize := fun rest => devices.klogSize rest.devices
  klogTotalWritten := fun rest =>
    devices.klogTotalWritten rest.devices
  klogDropped := fun rest => devices.klogDropped rest.devices
  klogCopyTail := fun size rest =>
    devices.klogCopyTail size rest.devices
  timerTicks := fun rest => devices.timerTicks rest.devices
  timerFrequency := fun rest =>
    devices.timerFrequency rest.devices
  framebufferStatus := fun rest =>
    devices.framebufferStatus rest.devices
  pmmGetStats := pmmGetStats
  userspaceGetStatus := userspaceGetStatus
  schedulerCurrentProcess := fun rest =>
    rest.scheduler.current.map fun slot =>
      (rest.processes slot).view
  heapStatus := heapStatus
  processSetCwd := processSetCwd
  processSbrk := processSbrk
  processCreateFilesystemProcess := fun path cwd fs => do
    return (← processCreateFilesystemProcess path cwd fs).map
      Fin.val
  schedulerRunProcessBlocking := fun process frame =>
    schedulerRunProcessBlocking (Fin.ofNat 8 process) frame
  schedulerFinishBlockingExit := schedulerFinishBlockingExit
  schedulerExitCurrent := schedulerExitCurrent

end Userspace

end Whirliscope

------------------------------------------------------------
-- Interrupts
------------------------------------------------------------

namespace Whirliscope

namespace Userspace

open ByteMemory FaultProgram Syscall

variable {δ : Type}

/- `struct interrupt_frame`. -/
structure InterruptFrame where
  r15 : UInt64
  r14 : UInt64
  r13 : UInt64
  r12 : UInt64
  r11 : UInt64
  r10 : UInt64
  r9 : UInt64
  r8 : UInt64
  rbp : UInt64
  rdi : UInt64
  rsi : UInt64
  rdx : UInt64
  rcx : UInt64
  rbx : UInt64
  rax : UInt64
  vector : UInt64
  errorCode : UInt64
  rip : UInt64
  cs : UInt64
  rflags : UInt64
  userRsp : UInt64
  userSs : UInt64
deriving DecidableEq, Repr

/- `SYSCALL_VECTOR`. -/
def syscallVector : UInt64 := 128

/- The frame that `exception_dispatch` passes on. -/
def syscallFrame
    (frame : InterruptFrame) : SyscallFrame where
  number := frame.rax
  arg0 := frame.rdi
  arg1 := frame.rsi
  arg2 := frame.rdx
  arg3 := frame.r10
  arg4 := frame.r8
  arg5 := frame.r9
  rbx := frame.rbx
  rcx := frame.rcx
  rbp := frame.rbp
  r11 := frame.r11
  r12 := frame.r12
  r13 := frame.r13
  r14 := frame.r14
  r15 := frame.r15
  userRip := frame.rip
  userRsp := frame.userRsp
  rflags := frame.rflags

/- The frame that `exception_dispatch` returns with. -/
def interruptReturn
    (frame : InterruptFrame)
    (result : Int)
    (syscall : SyscallFrame) : InterruptFrame :=
  { frame with
    rax := UInt64.ofInt result
    rbx := syscall.rbx
    rcx := syscall.rcx
    rdi := syscall.arg0
    rsi := syscall.arg1
    rdx := syscall.arg2
    r10 := syscall.arg3
    r8 := syscall.arg4
    r9 := syscall.arg5
    rbp := syscall.rbp
    r11 := syscall.r11
    r12 := syscall.r12
    r13 := syscall.r13
    r14 := syscall.r14
    r15 := syscall.r15
    rip := syscall.userRip
    userRsp := syscall.userRsp
    rflags := syscall.rflags }

/- What follows an interrupt. -/
inductive Aftermath where
| returns (frame : InterruptFrame)
| entered
| left
| halted (cause : Option Stop)
deriving DecidableEq, Repr

/- What follows a system call. -/
def aftermath
    (frame : InterruptFrame) : Reply → Aftermath
| .value result =>
    .returns (interruptReturn frame result (syscallFrame frame))
| .resumed result syscall =>
    .returns (interruptReturn frame result syscall)
| .entered => .entered
| .left => .left
| .fault _ => .halted none
| .stopped cause => .halted (some cause)

/- `exception_dispatch`. -/
def exceptionDispatch
    (devices : Devices δ)
    (frame : InterruptFrame) :
    KernelM (Userland δ) Aftermath := do
  if frame.vector = syscallVector then
    let reply ←
      syscallDispatch (kernelServices devices)
        (some (syscallFrame frame))
    return aftermath frame reply
  else
    return .halted none

/- `frame_is_from_user`. -/
def frameIsFromUser
    (frame : InterruptFrame) : Bool :=
  frame.cs &&& 3 = 3

/- `save_user_frame`. -/
def saveUserFrame
    (frame : InterruptFrame) : UserRegisters where
  rip := frame.rip
  rsp := frame.userRsp
  rflags := frame.rflags
  rax := frame.rax
  rbx := frame.rbx
  rcx := frame.rcx
  rdx := frame.rdx
  rsi := frame.rsi
  rdi := frame.rdi
  rbp := frame.rbp
  r8 := frame.r8
  r9 := frame.r9
  r10 := frame.r10
  r11 := frame.r11
  r12 := frame.r12
  r13 := frame.r13
  r14 := frame.r14
  r15 := frame.r15

/- `scheduler_tick`. -/
def schedulerTick
    (frame : InterruptFrame)
    (machine : UserMachine δ) : UserMachine δ :=
  let scheduler :=
    { machine.rest.scheduler with
      ticks := wrap 64 (machine.rest.scheduler.ticks + 1) }
  let machine := withScheduler machine scheduler
  match scheduler.current with
  | none => machine
  | some slot =>
      if !scheduler.preemptiveEnabled ||
          !frameIsFromUser frame then
        machine
      else
        let process := machine.rest.processes slot
        withScheduler
          (withProcess machine slot
            { process with
              mainThread :=
                { process.mainThread with
                  regs := saveUserFrame frame } })
          { scheduler with
            userPreemptions :=
              wrap 64 (scheduler.userPreemptions + 1) }

end Userspace

end Whirliscope

------------------------------------------------------------
-- Runs of the Kernel
------------------------------------------------------------

namespace Whirliscope

namespace Userspace

open ByteMemory FaultProgram Syscall

variable {δ : Type}

/-
  How a process was launched: by which process, with which
  registers and in which address space.
-/
structure Launch where
  parent : Slot
  frame : InterruptFrame
  root : Nat

/-
  The kernel while a process runs, with the launch of the
  process in each slot. The launches are not part of the
  kernel; they are recorded.
-/
structure Running (δ : Type) where
  kernel : Kernel (Userland δ)
  launched : Slot → Option Launch

def Running.rest
    (state : Running δ) : Userland δ :=
  state.kernel.machine.rest

def Running.withMachine
    (state : Running δ)
    (machine : UserMachine δ) : Running δ :=
  { state with
    kernel := { state.kernel with machine := machine } }

/- Record a launch of the process that is current now. -/
def recordLaunch
    (launched : Slot → Option Launch)
    (current : Option Slot)
    (launch : Option Launch) : Slot → Option Launch :=
  fun slot =>
    if current = some slot then launch else launched slot

/- One event while a process runs. -/
inductive Step
    (devices : Devices δ) :
    Running δ → Running δ → Prop
/- A system call that returns to user mode. -/
| syscall
    (state : Running δ)
    (frame after : InterruptFrame)
    (kernel : Kernel (Userland δ))
    (hReturns :
      Returns (exceptionDispatch devices frame) state.kernel
        (.returns after) kernel) :
    Step devices state { state with kernel := kernel }
/- A system call that enters a new process. -/
| launch
    (state : Running δ)
    (frame : InterruptFrame)
    (kernel : Kernel (Userland δ))
    (hReturns :
      Returns (exceptionDispatch devices frame) state.kernel
        .entered kernel) :
    Step devices state
      { kernel := kernel
        launched :=
          recordLaunch state.launched
            kernel.machine.rest.scheduler.current
            (state.rest.scheduler.current.map fun parent =>
              { parent := parent
                frame := frame
                root := state.kernel.machine.pml4 }) }
| tick
    (state : Running δ)
    (frame : InterruptFrame) :
    Step devices state
      (state.withMachine
        (schedulerTick frame state.kernel.machine))
/- Interrupts of devices. -/
| device
    (state : Running δ)
    (after : δ) :
    Step devices state
      (state.withMachine
        { state.kernel.machine with
          rest := state.rest.withDevices after })
/- Stores of the running process. -/
| user
    (state : Running δ)
    (memory : Bytes) :
    Step devices state
      (state.withMachine
        { state.kernel.machine with memory := memory })

/- Userspace starts and init is launched. -/
structure Start
    (state : Running δ) : Prop where
  launches :
    ∃ machine : UserMachine δ,
      Returns
        (do
          userspaceInit state.kernel.fs
          userspaceLaunchInit state.kernel.fs)
        machine () state.kernel.machine
  launched : state.launched = fun _ => none

/- Events until init exits. -/
inductive Run
    (devices : Devices δ) :
    Running δ → Running δ → Prop
| refl
    (state : Running δ) :
    Run devices state state
| step
    {first middle last : Running δ}
    (hRun : Run devices first middle)
    (hStep : Step devices middle last) :
    Run devices first last

end Userspace

end Whirliscope
