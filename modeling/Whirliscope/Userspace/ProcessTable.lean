import Whirliscope.Memory.AddressSpaces
import Whirliscope.Userspace.Process
import Whirliscope.Userspace.Syscall

/-
  The process table.

  Processes are loaded over the page tables, the frame list
  and the kernel heap of one machine. A process pointer is a
  slot of the table.

  Key definitions include:
    * `Process`, `Scheduler`, `Userland`
    * `processLoadUserImageBytes`
    * `processCreateFilesystemProcess`
    * `processSbrk`
-/

------------------------------------------------------------
-- Processes
------------------------------------------------------------

namespace Whirliscope

namespace Userspace

open ByteMemory
open Ext2 (CString)

/- `enum process_state`. -/
inductive ProcessState where
| empty
| new
| ready
| running
| exited
deriving DecidableEq, Repr

/- `enum thread_state`. -/
inductive ThreadState where
| empty
| new
| ready
| running
| blocked
| exited
deriving DecidableEq, Repr

/- `struct user_registers`. -/
structure UserRegisters where
  rip : UInt64 := 0
  rsp : UInt64 := 0
  rflags : UInt64 := 0
  rax : UInt64 := 0
  rbx : UInt64 := 0
  rcx : UInt64 := 0
  rdx : UInt64 := 0
  rsi : UInt64 := 0
  rdi : UInt64 := 0
  rbp : UInt64 := 0
  r8 : UInt64 := 0
  r9 : UInt64 := 0
  r10 : UInt64 := 0
  r11 : UInt64 := 0
  r12 : UInt64 := 0
  r13 : UInt64 := 0
  r14 : UInt64 := 0
  r15 : UInt64 := 0
deriving DecidableEq, Repr

/- `struct thread`. -/
structure Thread where
  tid : Nat := 0
  ownerPid : Nat := 0
  state : ThreadState := .empty
  regs : UserRegisters := {}
deriving DecidableEq, Repr

/- The empty string. -/
def emptyString : CString := ⟨[], List.not_mem_nil⟩

/- `struct process`; the defaults are those of `memset`. -/
structure Process where
  pid : Nat := 0
  state : ProcessState := .empty
  pml4Phys : Nat := 0
  entry : Nat := 0
  userStackTop : Nat := 0
  heapStart : Nat := 0
  heapCurrent : Nat := 0
  heapEnd : Nat := 0
  mainThread : Thread := {}
  name : List UInt8 := []
  cwd : CString := emptyString

/- `USERSPACE_MAX_PROCESSES`. -/
def userspaceMaxProcesses : Nat := 8

/- A pointer into `processes`. -/
abbrev Slot := Fin 8

instance neZero_slots : NeZero 8 := ⟨by decide⟩

def Process.withStates
    (process : Process)
    (state : ProcessState)
    (threadState : ThreadState) : Process :=
  { process with
    state := state
    mainThread :=
      { process.mainThread with state := threadState } }

/- `struct blocking_run`. -/
structure BlockingRun where
  parent : Option Slot := none
  parentRegs : UserRegisters := {}

/- The static variables of the scheduler. -/
structure Scheduler where
  current : Option Slot
  kernelReturnContext : Bool
  initialized : Bool
  preemptiveEnabled : Bool
  ticks : Nat
  userPreemptions : Nat
  launches : Nat
  exits : Nat
  lastExitStatus : Nat
  blockingRuns : Nat → BlockingRun
  blockingRunDepth : Nat

/-
  The state of the kernel besides memory, the tables and the
  file system. The devices keep a state of their own.
-/
structure Userland (δ : Type) where
  processes : Slot → Process
  nextPid : Nat
  scheduler : Scheduler
  userspaceReady : Bool
  initProcessReady : Bool
  free : List Nat
  totalPages : Nat
  kernelCr3 : Nat
  heap : KernelHeap.Heap Unit
  devices : δ

end Userspace

end Whirliscope

------------------------------------------------------------
-- Memory of the Kernel
------------------------------------------------------------

namespace Whirliscope

/- The same heap over another machine. -/
def KernelHeap.Heap.withMachine
    {σ τ : Type}
    (heap : KernelHeap.Heap σ)
    (machine : τ) : KernelHeap.Heap τ where
  memory := heap.memory
  firstBlock := heap.firstBlock
  lastBlock := heap.lastBlock
  heapStart := heap.heapStart
  heapEnd := heap.heapEnd
  mappedBytes := heap.mappedBytes
  allocatedBytes := heap.allocatedBytes
  initialized := heap.initialized
  machine := machine

namespace Userspace

open ByteMemory FaultProgram Syscall
open Vmm (Paging Spaces)

variable {δ : Type}

abbrev UserMachine (δ : Type) := Machine (Userland δ)

abbrev UserM (δ α : Type) := MachineM (Userland δ) α

/- The tables, the free frames and the roots. -/
def spacesOf
    (machine : UserMachine δ) : Spaces where
  paging :=
    { tables := machine.tables, free := machine.rest.free }
  kernelCr3 := machine.rest.kernelCr3
  pml4 := machine.pml4

def withSpaces
    (machine : UserMachine δ)
    (spaces : Spaces) : UserMachine δ :=
  { machine with
    tables := spaces.paging.tables
    pml4 := spaces.pml4
    rest :=
      { machine.rest with
        free := spaces.paging.free
        kernelCr3 := spaces.kernelCr3 } }

def withPaging
    (machine : UserMachine δ)
    (paging : Paging) : UserMachine δ :=
  withSpaces machine ((spacesOf machine).withPaging paging)

def withProcess
    (machine : UserMachine δ)
    (slot : Slot)
    (process : Process) : UserMachine δ :=
  { machine with
    rest :=
      { machine.rest with
        processes := fun other =>
          if other = slot then process
          else machine.rest.processes other } }

def withScheduler
    (machine : UserMachine δ)
    (scheduler : Scheduler) : UserMachine δ :=
  { machine with
    rest := { machine.rest with scheduler := scheduler } }

def modifyProcess
    (slot : Slot)
    (change : Process → Process) : UserM δ Unit :=
  modify fun machine =>
    withProcess machine slot
      (change (machine.rest.processes slot))

/- Frames, their bytes and the mappings of a space. -/
def pageManager : Elf.PageManager (UserMachine δ) where
  pmmAllocPage := fun machine =>
    let (page, paging) :=
      Vmm.pmmAllocPage (spacesOf machine).paging
    (page, withPaging machine paging)
  storePhys := fun address count source machine =>
    { machine with
      memory := write machine.memory address count source }
  vmmMapPageInSpace := fun pml4Phys vaddr phys flags machine =>
    let (ok, paging) :=
      Vmm.vmmMapPageInSpace pml4Phys vaddr phys flags
        (spacesOf machine).paging
    (ok, withPaging machine paging)

def pmmAllocPage : UserM δ Nat := do
  let machine ← get
  let result := pageManager.pmmAllocPage machine
  set result.2
  return result.1

/- `memset` of a whole frame. -/
def clearPage
    (page : Nat) : UserM δ Unit :=
  modify (pageManager.storePhys page vmmPageSize zeros)

def vmmMapPageInSpace
    (pml4Phys vaddr phys flags : Nat) : UserM δ Bool := do
  let machine ← get
  let result :=
    pageManager.vmmMapPageInSpace pml4Phys vaddr phys flags
      machine
  set result.2
  return result.1

def vmmCreateAddressSpace : UserM δ Nat := do
  let machine ← get
  let result := Vmm.vmmCreateAddressSpace (spacesOf machine)
  set (withSpaces machine result.2)
  return result.1

def vmmActivateAddressSpace
    (pml4Phys : Nat) : UserM δ Unit :=
  modify fun machine =>
    withSpaces machine
      (Vmm.vmmActivateAddressSpace pml4Phys
        (spacesOf machine))

/- Run a function of the kernel heap. -/
def runHeap
    {α : Type}
    (program : KernelHeap.HeapM Spaces α) : UserM δ α := do
  let machine ← get
  match program.run
      (machine.rest.heap.withMachine (spacesOf machine)) with
  | .ok (result, heap) =>
      let machine := withSpaces machine heap.machine
      set
        { machine with
          rest :=
            { machine.rest with heap := heap.withMachine () } }
      return result
  | .error .panic => throw (.panic .assertionFailed)
  | .error _ => throw .fault

def kmalloc
    (size : Nat) : UserM δ Nat :=
  runHeap (KernelHeap.kmalloc Vmm.spaceSource size)

def kfree
    (ptr : Nat) : UserM δ Unit :=
  runHeap (KernelHeap.kfree ptr)

/- Run the segment loader. -/
def runLoader
    {α : Type}
    (program : Elf.LoadM (UserMachine δ) α) : UserM δ α := do
  match program.run { machine := ← get, requests := [] } with
  | .ok (result, loading) =>
      set loading.machine
      return result
  | .error _ => throw .fault

end Userspace

end Whirliscope

------------------------------------------------------------
-- Creating Processes
------------------------------------------------------------

namespace Whirliscope

namespace Userspace

open ByteMemory FaultProgram Syscall
open Ext2 (slash userFsTypeFile)
open Elf (Elf64Image)

variable {δ : Type}

def userspaceHeapBase : Nat := 0x0000000010000000
def userspaceHeapLimit : Nat := 0x0000000040000000
def userspaceStackTop : Nat := 0x00007ffffff00000
def processNameSize : Nat := 32
def userFsPathSize : Nat := 128

/- The flags of stack and heap pages. -/
def userDataFlags : Nat :=
  Elf.vmmUser ||| Elf.vmmWritable ||| Elf.vmmNoexec

/- The record that `process_prepare_user_image` fills in. -/
def preparedProcess
    (pid : Nat)
    (name : List UInt8)
    (pml4Phys entry : Nat) : Process where
  pid := pid
  state := .new
  pml4Phys := pml4Phys
  entry := entry
  userStackTop := userspaceStackTop
  heapStart := userspaceHeapBase
  heapCurrent := userspaceHeapBase
  heapEnd := userspaceHeapLimit
  name := name.take (processNameSize - 1)
  mainThread :=
    { tid := 1
      ownerPid := pid
      state := .new
      regs :=
        { rip := UInt64.ofNat entry
          rsp := UInt64.ofNat userspaceStackTop
          rflags := 0x202 } }

/- `process_prepare_user_image`. -/
def processPrepareUserImage
    (slot : Slot)
    (pid : Nat)
    (name : List UInt8)
    (pml4Phys : Nat)
    (image : Elf64Image) : UserM δ Bool := do
  if pml4Phys = 0 then return false
  if !userspaceRangeIsValid image.entry 1 ||
      !userspaceRangeIsValid (userspaceStackTop - 1) 1 then
    return false
  modifyProcess slot fun _ =>
    preparedProcess pid name pml4Phys image.entry
  return true

/- `process_set_cwd`, for a process that is not NULL. -/
def setCwd
    (path : List UInt8)
    (process : Process) : Process :=
  if path.head? ≠ some slash then
    process
  else
    { process with
      cwd := cString (path.take (userFsPathSize - 1)) }

/- `process_set_cwd` on the current process. -/
def processSetCwd
    (path : List UInt8)
    (rest : Userland δ) : Bool × Userland δ :=
  match rest.scheduler.current with
  | none => (false, rest)
  | some slot =>
      if path.head? ≠ some slash then
        (false, rest)
      else
        (true,
          { rest with
            processes := fun other =>
              if other = slot then
                setCwd path (rest.processes slot)
              else
                rest.processes other })

/- `process_load_user_image_bytes`. -/
def processLoadUserImageBytes
    (slot : Slot)
    (pid : Nat)
    (name : List UInt8)
    (imageBytes : Bytes)
    (imageSize : Nat)
    (cwd : List UInt8) : UserM δ Bool := do
  let pml4Phys ← vmmCreateAddressSpace
  let stackPhys ← pmmAllocPage
  if pml4Phys = 0 ∨ stackPhys = 0 then return false
  match Elf.elf64ValidateUserImage (some imageBytes)
      imageSize with
  | none => return false
  | some image =>
      clearPage stackPhys
      let loaded ←
        runLoader
          (Elf.loadUserImageSegments pageManager pml4Phys
            imageBytes image)
      if !loaded then return false
      let mapped ←
        vmmMapPageInSpace pml4Phys
          (userspaceStackTop - vmmPageSize) stackPhys
          userDataFlags
      if !mapped then return false
      let prepared ←
        processPrepareUserImage slot pid name pml4Phys image
      if !prepared then return false
      modifyProcess slot fun process =>
        (setCwd cwd process).withStates .ready .ready
      return true

/-
  The start of `process_create_filesystem_process` and of
  `process_create_filesystem_init`: the file in a buffer of
  the kernel heap, with its size.
-/
def readImageFile
    (path : List UInt8)
    (fs : Ext2.State) : UserM δ (Option (Nat × Nat)) := do
  match Ext2.ext2Stat fs (some (cString path)) with
  | .error _ => throw .fault
  | .ok (result, entry) =>
      let file : Ext2.UserFsDirent := entry.getD ⟨0, 0, 0, []⟩
      if result ≠ 0 ∨ file.type ≠ userFsTypeFile ∨
          file.size = 0 then
        return none
      let image ← kmalloc file.size
      if image = 0 then return none
      let heap := (← get).rest.heap
      match Ext2.ext2ReadFile fs (some (cString path))
          (slice heap.memory image) file.size 0 with
      | .error _ => throw .fault
      | .ok (read, buffer) =>
          modify fun machine =>
            { machine with
              rest :=
                { machine.rest with
                  heap :=
                    heap.withMemory
                      (write heap.memory image file.size
                        buffer) } }
          if read < 0 ∨ read ≠ file.size then
            kfree image
            return none
          return some (image, file.size)

/- `next_pid++`. -/
def takePid : UserM δ Nat := do
  let pid := (← get).rest.nextPid
  modify fun machine =>
    { machine with
      rest := { machine.rest with nextPid := wrap 64 (pid + 1) } }
  return pid

/- Load the file in the buffer into a slot, and free it. -/
def loadFromBuffer
    (slot : Slot)
    (name : List UInt8)
    (image size : Nat)
    (cwd : List UInt8) : UserM δ Bool := do
  let pid ← takePid
  let bytes := slice (← get).rest.heap.memory image
  let loaded ←
    processLoadUserImageBytes slot pid name bytes size cwd
  if !loaded then
    modifyProcess slot fun process =>
      { process with state := .empty }
  kfree image
  return loaded

/- The first slot after init's that is not in use. -/
def unusedSlot
    (processes : Slot → Process) : Option Slot :=
  [1, 2, 3, 4, 5, 6, 7].find? fun slot =>
    (processes slot).state = .empty ||
      (processes slot).state = .exited

/- The part of a path after its last slash, if any. -/
def programName
    (path : List UInt8) : List UInt8 :=
  let tail := (path.reverse.takeWhile (· ≠ slash)).reverse
  if tail = [] then path else tail

/- `process_create_filesystem_process`. -/
def processCreateFilesystemProcess
    (path cwd : List UInt8)
    (fs : Ext2.State) : UserM δ (Option Slot) := do
  match ← readImageFile path fs with
  | none => return none
  | some (image, size) =>
      match unusedSlot (← get).rest.processes with
      | none =>
          kfree image
          return none
      | some slot =>
          if ← loadFromBuffer slot (programName path) image size
              cwd then
            return some slot
          else
            return none

/- `"init"`. -/
def initName : List UInt8 :=
  "init".toUTF8.toList

/- `process_create_filesystem_init`. -/
def processCreateFilesystemInit
    (path : List UInt8)
    (fs : Ext2.State) : UserM δ Bool := do
  match ← readImageFile path fs with
  | none => return false
  | some (image, size) =>
      loadFromBuffer 0 initName image size [slash]

end Userspace

end Whirliscope

------------------------------------------------------------
-- Growing the User Heap
------------------------------------------------------------

namespace Whirliscope

namespace Userspace

open ByteMemory FaultProgram Syscall

variable {δ : Type}

/- One pass of the page loop of `process_sbrk`. -/
def sbrkVisit
    (pml4Phys newPageEnd vaddr : Nat) :
    UserM δ (Nat ⊕ Bool) := do
  if vaddr < newPageEnd then
    let pagePhys ← pmmAllocPage
    if pagePhys = 0 then return .inr false
    clearPage pagePhys
    let mapped ←
      vmmMapPageInSpace pml4Phys vaddr pagePhys userDataFlags
    if !mapped then return .inr false
    return .inl (wrap 64 (vaddr + vmmPageSize))
  else
    return .inr true

/- `process_sbrk`: the old break, on success. -/
def processSbrk
    (increment : Nat) : UserM δ (Option Nat) := do
  let rest := (← get).rest
  match rest.scheduler.current with
  | none => return none
  | some slot =>
      let process := rest.processes slot
      if increment = 0 then return some process.heapCurrent
      if signed increment < 0 then return none
      let newBreak := wrap 64 (process.heapCurrent + increment)
      if newBreak < process.heapCurrent ∨
          newBreak > process.heapEnd then
        return none
      let oldPageEnd :=
        alignUp 64 process.heapCurrent vmmPageSize
      let newPageEnd := alignUp 64 newBreak vmmPageSize
      let grown ←
        loop (throw .fault)
          (sbrkVisit process.pml4Phys newPageEnd) (2 ^ 53)
          oldPageEnd
      if !grown then return none
      modifyProcess slot fun process =>
        { process with heapCurrent := newBreak }
      return some process.heapCurrent

end Userspace

end Whirliscope
