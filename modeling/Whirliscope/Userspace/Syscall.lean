import Whirliscope.Fs.Ext2.Operations
import Whirliscope.Memory.PageTable
import Whirliscope.Userspace.Elf

/-
  System calls.

  The frames that hold page tables are kept apart from the
  memory that user pointers can reach, and the state of the
  other subsystems is a parameter. The addresses that are
  read or written through user pointers are recorded.

  Key definitions include:
    * `Services`, `Kernel`
    * `readUserBytes`, `writeUserBytes`
    * `copyToUser`, `copyUserString`
    * `resolvePathForCurrent`
    * `syscallDispatch`
-/

------------------------------------------------------------
-- The Kernel State
------------------------------------------------------------

namespace Whirliscope

namespace Syscall

open ByteMemory FaultProgram
open Ext2 (CString userErrAgain userErrFault userErrInval
  userErrNosys)

/- `struct syscall_frame`. -/
structure SyscallFrame where
  number : UInt64
  arg0 : UInt64
  arg1 : UInt64
  arg2 : UInt64
  arg3 : UInt64
  arg4 : UInt64
  arg5 : UInt64
  rbx : UInt64
  rcx : UInt64
  rbp : UInt64
  r11 : UInt64
  r12 : UInt64
  r13 : UInt64
  r14 : UInt64
  r15 : UInt64
  userRip : UInt64
  userRsp : UInt64
  rflags : UInt64
deriving DecidableEq, Repr

/- The fields of `struct process` that calls read. -/
structure ProcessView where
  cwd : CString
  heapStart : Nat
  heapCurrent : Nat
  heapEnd : Nat

/- `struct pmm_stats`. -/
structure PmmStats where
  totalBytes : Nat
  freeBytes : Nat
  usedBytes : Nat

/- `struct userspace_status`. -/
structure UserspaceStatus where
  initialized : Bool
  syscallDispatchReady : Bool
  initProcessReady : Bool
  schedulerReady : Bool
  preemptiveEnabled : Bool
  userTaskActive : Bool
  userMin : Nat
  userMax : Nat
  imageBase : Nat
  userStackTop : Nat
  kernelBase : Nat
  initEntry : Nat
  initPml4 : Nat
  schedulerTicks : Nat
  userPreemptions : Nat
  launches : Nat
  exits : Nat
  lastExitStatus : Nat
  appCount : Nat

/- `struct user_framebuffer_status`. -/
structure FramebufferStatus where
  available : Nat
  width : Nat
  height : Nat
  pitch : Nat
  bpp : Nat
  address : Nat

/- `struct heap_stats`, with the answer of `kheap_validate`. -/
structure HeapStatus where
  mappedBytes : Nat
  allocatedBytes : Nat
  freeBytes : Nat
  valid : Bool

/- `struct keyboard_event`. -/
structure KeyboardEvent where
  key : Nat
  ch : Nat
  modifiers : Nat

/- The address space and the state of the other subsystems. -/
structure Machine (κ : Type) where
  tables : Bytes
  pml4 : Nat
  memory : Bytes
  rest : κ

/- The messages of `panic`. -/
inductive Panic where
| assertionFailed
| initNotLoaded
| initNotReady
| launchRefused
| noCurrentTask
| invalidBlockingLaunch
| noReturnContext
deriving DecidableEq, Repr

/- Why the kernel stops inside one of its functions. -/
inductive Stop where
| panic (message : Panic)
| fault
deriving DecidableEq, Repr

/- Functions that may change address spaces, or stop. -/
abbrev MachineM (κ α : Type) :=
  Program (Machine κ) Stop α

/- Devices and the kernel log, over their own state. -/
structure Devices (κ : Type) where
  consolePutchar : UInt8 → κ → κ
  consoleWrite : List UInt8 → κ → κ
  consoleClear : κ → κ
  consoleSetColor : Nat → Nat → Nat → κ → κ
  consoleSetBackground : Nat → Nat → Nat → κ → κ
  consoleSetDefaultColors : κ → κ
  keyboardReadChar : κ → Option Nat × κ
  keyboardReadEvent : κ → Option KeyboardEvent × κ
  pmmHhdmOffset : κ → Nat
  klogSize : κ → Nat
  klogTotalWritten : κ → Nat
  klogDropped : κ → Nat
  klogCopyTail :
    (size : Nat) → κ →
      { tail : List UInt8 // tail.length ≤ size }
  timerTicks : κ → Nat
  timerFrequency : κ → Nat
  framebufferStatus : κ → FramebufferStatus

/-
  The subsystems that calls use, besides the file system.
  They answer from their own state; those that change address
  spaces are given the machine. A new process is named by a
  number. The end of a blocked launch yields the frame that
  the launching process continues with.
-/
structure Services (κ : Type) extends Devices κ where
  pmmGetStats : κ → PmmStats
  userspaceGetStatus : κ → UserspaceStatus
  schedulerCurrentProcess : κ → Option ProcessView
  heapStatus : κ → HeapStatus
  processSetCwd : List UInt8 → κ → Bool × κ
  processSbrk : Nat → MachineM κ (Option Nat)
  processCreateFilesystemProcess :
    List UInt8 → List UInt8 → Ext2.State →
      MachineM κ (Option Nat)
  schedulerRunProcessBlocking :
    Nat → SyscallFrame → MachineM κ Unit
  schedulerFinishBlockingExit :
    Nat → SyscallFrame → MachineM κ (Option SyscallFrame)
  schedulerExitCurrent : Nat → MachineM κ Unit

/-
  The state of the kernel during a call, with the addresses
  touched through user pointers.
-/
structure Kernel (κ : Type) where
  fs : Ext2.State
  machine : Machine κ
  fsReadBuffer : Bytes
  touched : List Nat

/- Calls cannot stop half-way; a fault is a reply. -/
abbrev KernelM (κ α : Type) :=
  Program (Kernel κ) Empty α

/-
  How a call ends: with a value for the caller, with a value
  for the process that waits for the caller, by entering a new
  process, by leaving user mode, or not at all.
-/
inductive Reply where
| value (result : Int)
| resumed (result : Int) (frame : SyscallFrame)
| entered
| left
| fault (cause : Ext2.Fault)
| stopped (cause : Stop)
deriving DecidableEq, Repr

variable {κ : Type} (services : Services κ)

def getRest : KernelM κ κ := do
  return (← get).machine.rest

def modifyRest
    (change : κ → κ) : KernelM κ Unit :=
  modify fun kernel =>
    { kernel with
      machine :=
        { kernel.machine with
          rest := change kernel.machine.rest } }

/- Run a service that answers and changes its state. -/
def runRest
    {α : Type}
    (service : κ → α × κ) : KernelM κ α := do
  let result := service (← getRest)
  modifyRest fun _ => result.2
  return result.1

/- Run a service that may change the address space. -/
def runMachine
    {α : Type}
    (service : MachineM κ α)
    (next : α → KernelM κ Reply) : KernelM κ Reply := do
  let kernel ← get
  match service.run kernel.machine with
  | .ok (result, machine) =>
      set { kernel with machine := machine }
      next result
  | .error cause => return .stopped cause

/- Run a function of the file system. -/
def runFs
    (program : Ext2.Ext2M Int) : KernelM κ Reply := do
  let kernel ← get
  match program.run kernel.fs with
  | .ok (result, fs) =>
      set { kernel with fs := fs }
      return .value result
  | .error cause => return .fault cause

end Syscall

end Whirliscope

------------------------------------------------------------
-- Copying From and To User Memory
------------------------------------------------------------

namespace Whirliscope

namespace Syscall

open ByteMemory FaultProgram Vmm
open Ext2 (CString userErrAgain userErrFault userErrInval
  userErrNosys)

variable {κ : Type}

/- The translation of an address in the current space. -/
def Kernel.translate
    (kernel : Kernel κ)
    (address : Nat) : Option Nat :=
  vmmVirtToPhys kernel.machine.tables kernel.machine.pml4
    address

def Kernel.withMemory
    (kernel : Kernel κ)
    (memory : Bytes) : Kernel κ :=
  { kernel with
    machine := { kernel.machine with memory := memory } }

/- The addresses of `count` bytes from `address` on. -/
def addresses
    (address count : Nat) : List Nat :=
  (List.range count).map fun i => wrap 64 (address + i)

/- Record an access through a user pointer. -/
def touch
    (address count : Nat) : KernelM κ Unit :=
  modify fun kernel =>
    { kernel with
      touched :=
        kernel.touched ++ addresses address count }

/-
  One pass of the loops of `read_user_bytes` and
  `write_user_bytes`, which differ in how they move a chunk.
-/
def userVisit
    {β : Type}
    (move : β → Nat → Nat → Nat → KernelM κ β)
    (userAddress len : Nat)
    (state : Nat × β) :
    KernelM κ ((Nat × β) ⊕ (Bool × β)) := do
  let (copied, data) := state
  if copied < len then
    match (← get).translate
        (wrap 64 (userAddress + copied)) with
    | none => return .inr (false, data)
    | some physical =>
        let pageBytes :=
          vmmPageSize - (physical &&& (vmmPageSize - 1))
        let chunk :=
          if len - copied < pageBytes then len - copied
          else pageBytes
        touch (userAddress + copied) chunk
        let data ← move data copied physical chunk
        return .inl (copied + chunk, data)
  else
    return .inr (true, data)

/- Copy a chunk into a kernel buffer. -/
def readChunk
    (out : Bytes)
    (copied physical chunk : Nat) : KernelM κ Bytes := do
  return write out copied chunk
    (slice (← get).machine.memory physical)

/- Copy a chunk of a kernel buffer to memory. -/
def writeChunk
    (source : Bytes)
    (_ : Unit)
    (copied physical chunk : Nat) : KernelM κ Unit :=
  modify fun kernel =>
    kernel.withMemory
      (write kernel.machine.memory physical chunk
        (slice source copied))

/- `read_user_bytes`: success and the buffer after it. -/
def readUserBytes
    (userAddress : Nat)
    (dest : Bytes)
    (len : Nat) : KernelM κ (Bool × Bytes) :=
  loop (pure (false, dest))
    (userVisit readChunk userAddress len) (len + 1)
    (0, dest)

/- `write_user_bytes`. -/
def writeUserBytes
    (userAddress : Nat)
    (source : Bytes)
    (len : Nat) : KernelM κ Bool := do
  let result ←
    loop (pure (false, ()))
      (userVisit (writeChunk source) userAddress len)
      (len + 1) (0, ())
  return result.1

/- `copy_to_user`. -/
def copyToUser
    (userAddress : Nat)
    (source : Bytes)
    (len : Nat) : KernelM κ Bool := do
  if len = 0 then
    return true
  else if !userspaceRangeIsValid userAddress len then
    return false
  else
    writeUserBytes userAddress source len

/- One pass of `copy_user_string`. -/
def copyStringVisit
    (userAddress destSize : Nat)
    (state : Nat × List UInt8) :
    KernelM κ ((Nat × List UInt8) ⊕ Option (List UInt8)) := do
  let (i, dest) := state
  if i < destSize then
    if !userspaceRangeIsValid (wrap 64 (userAddress + i)) 1
    then
      return .inr none
    else
      let (readable, out) ←
        readUserBytes (wrap 64 (userAddress + i)) zeros 1
      if !readable then
        return .inr none
      else if out 0 = 0 then
        return .inr (some dest)
      else
        return .inl (i + 1, dest ++ [out 0])
  else
    return .inr none

/- `copy_user_string`: the characters before the NUL. -/
def copyUserString
    (userAddress destSize : Nat) :
    KernelM κ (Option (List UInt8)) :=
  loop (pure none) (copyStringVisit userAddress destSize)
    (destSize + 1) (0, [])

end Syscall

end Whirliscope

------------------------------------------------------------
-- Paths of System Calls
------------------------------------------------------------

namespace Whirliscope

namespace Syscall

open ByteMemory FaultProgram
open Ext2 (CString slash skipSlashes)

variable {κ : Type} (services : Services κ)

/- `USER_FS_PATH_MAX`. -/
def userFsPathMax : Nat := 128

def dot : UInt8 := 46

/- The C string at the start of a buffer. -/
def cString
    (buffer : List UInt8) : CString :=
  ⟨buffer.takeWhile (· ≠ 0), by
    intro hZero
    have hAll := List.all_takeWhile (l := buffer)
      (p := (· ≠ 0))
    simpa using List.all_eq_true.mp hAll 0 hZero⟩

/- The working directory that calls resolve against. -/
def currentCwd
    (rest : κ) : List UInt8 :=
  match services.schedulerCurrentProcess rest with
  | none => [slash]
  | some process =>
      if process.cwd.1 ≠ [] then process.cwd.1 else [slash]

/- The path before its dots are resolved. -/
def combinePath
    (cwd path : List UInt8) : Option (List UInt8) :=
  if path.head? = some slash then
    some (path.take (userFsPathMax - 1))
  else
    let separator :=
      if cwd.length > 1 ∧ cwd.getLast? ≠ some slash then
        [slash]
      else
        []
    if cwd.length + separator.length + path.length + 1 >
        userFsPathMax then
      none
    else
      some (cwd ++ separator ++ path)

/-
  Drop characters from the end of a string, read backwards,
  up to a slash or down to the first character.
-/
def trimName : List UInt8 → List UInt8
| char :: next :: rest =>
    if char = slash then char :: next :: rest
    else trimName (next :: rest)
| short => short

/- What a component `..` does to the resolved path. -/
def parentPath
    (out : List UInt8) : List UInt8 :=
  if out.length > 1 then
    let trimmed := trimName out.reverse
    (if trimmed.length > 1 then trimmed.tail
      else trimmed).reverse
  else
    out

/- What a component does to the resolved path. -/
def resolveComponent
    (outSize : Nat)
    (out component : List UInt8) : Option (List UInt8) :=
  if component = [dot] then
    some out
  else if component = [dot, dot] then
    some (parentPath out)
  else if component ≠ [] then
    let prefixed :=
      if out.length > 1 then out ++ [slash] else out
    if prefixed.length + component.length + 1 > outSize then
      none
    else
      some (prefixed ++ component)
  else
    some out

/- One pass over the components of a path. -/
def resolveVisit
    (outSize : Nat)
    (state : List UInt8 × List UInt8) :
    Option ((List UInt8 × List UInt8) ⊕ List UInt8) := do
  let (cursor, out) := state
  if cursor.isEmpty then
    return .inr out
  else
    let out ←
      resolveComponent outSize out
        (cursor.takeWhile (· ≠ slash))
    return .inl
      (skipSlashes (cursor.dropWhile (· ≠ slash)), out)

/- `resolve_path_for_current`. -/
def resolvePathForCurrent
    (cwd path : List UInt8)
    (outSize : Nat) : Option (List UInt8) :=
  if path.isEmpty then
    none
  else
    match combinePath cwd path with
    | none => none
    | some combined =>
        if outSize < 2 then
          none
        else
          loop none (resolveVisit outSize)
            (combined.length + 1)
            (skipSlashes combined, [slash])

/- `copy_and_resolve_user_path`. -/
def copyAndResolveUserPath
    (userAddress : Nat) :
    KernelM κ (Option (List UInt8)) := do
  match ← copyUserString userAddress userFsPathMax with
  | none => return none
  | some path =>
      return resolvePathForCurrent
        (currentCwd services (← getRest)) path userFsPathMax

end Syscall

end Whirliscope

------------------------------------------------------------
-- Results in User Memory
------------------------------------------------------------

namespace Whirliscope

namespace Syscall

open ByteMemory FaultProgram
open Ext2 (UserFsStatus UserFsDirent userFsNameSize)

/- Fields of a structure, each a width and a value. -/
def pack
    (fields : List (Nat × Nat)) : List UInt8 :=
  fields.flatMap fun field =>
    (List.range field.1).map (bytesLE field.2)

def ofList
    (bytes : List UInt8) : Bytes :=
  fun i => bytes.getD i 0

/- `KLOG_CAPACITY`. -/
def klogCapacity : Nat := 8192

/- `struct user_memory_status`. -/
def packMemoryStatus
    (stats : PmmStats)
    (hhdmOffset : Nat) : List UInt8 :=
  pack
    [(8, stats.totalBytes / 1024), (8, stats.freeBytes / 1024),
      (8, stats.usedBytes / 1024), (8, hhdmOffset)]

/- `make_user_userspace_status`. -/
def packUserspaceStatus
    (status : UserspaceStatus)
    (current : Option ProcessView) : List UInt8 :=
  pack
    [(4, 1), (1, status.initialized.toNat),
      (1, status.syscallDispatchReady.toNat),
      (1, status.initProcessReady.toNat),
      (1, status.schedulerReady.toNat),
      (1, status.preemptiveEnabled.toNat),
      (1, status.userTaskActive.toNat), (2, 0), (4, 0),
      (8, status.userMin), (8, status.userMax),
      (8, status.imageBase), (8, status.userStackTop),
      (8, status.kernelBase), (8, status.initEntry),
      (8, status.initPml4), (8, status.schedulerTicks),
      (8, status.userPreemptions), (8, status.launches),
      (8, status.exits), (8, status.lastExitStatus),
      (8, (current.map ProcessView.heapStart).getD 0),
      (8, (current.map ProcessView.heapCurrent).getD 0),
      (8, (current.map ProcessView.heapEnd).getD 0),
      (8, status.appCount)]

/- `struct user_framebuffer_status`. -/
def packFramebufferStatus
    (status : FramebufferStatus) : List UInt8 :=
  pack
    [(1, status.available), (7, 0), (8, status.width),
      (8, status.height), (8, status.pitch), (8, status.bpp),
      (8, status.address)]

/- `struct user_kernel_heap_status`. -/
def packHeapStatus
    (status : HeapStatus) : List UInt8 :=
  pack
    [(8, status.mappedBytes), (8, status.allocatedBytes),
      (8, status.freeBytes), (1, status.valid.toNat), (7, 0)]

/- `sizeof(struct user_fs_status)`. -/
def fsStatusSize : Nat := 64

/- `struct user_fs_status`. -/
def packFsStatus
    (status : UserFsStatus) : List UInt8 :=
  pack
    [(4, status.abiVersion), (1, status.mounted), (3, 0),
      (4, status.blockSize), (4, 0), (8, status.blocks),
      (8, status.inodes), (8, status.freeBlocks),
      (8, status.freeInodes)] ++ status.volumeName

/- `sizeof(struct user_fs_dirent)`. -/
def direntSize : Nat := 80

/- `struct user_fs_dirent`. -/
def packDirent
    (entry : UserFsDirent) : List UInt8 :=
  pack
    [(4, entry.inode), (1, entry.type), (3, 0),
      (8, entry.size)] ++
    (List.range userFsNameSize).map (ofList entry.name)

end Syscall

end Whirliscope

------------------------------------------------------------
-- Dispatch
------------------------------------------------------------

namespace Whirliscope

namespace Syscall

open ByteMemory FaultProgram
open Ext2 (slash userErrAgain userErrFault userErrInval
  userErrNosys userFsTypeDir)

variable {κ : Type} (services : Services κ)

/- `enum syscall_number`. -/
inductive Call where
| debugPutchar
| exit
| readChar
| readEvent
| clear
| setColor
| setBackground
| resetColors
| memoryStatus
| debugWrite
| userspaceStatus
| sbrk
| klogStatus
| klogRead
| timerStatus
| framebufferStatus
| kernelHeapStatus
| appCount
| appInfo
| appRun
| fsStatus
| fsList
| fsRead
| fsGetcwd
| fsChdir
| fsWrite
| appRunPath
| fsCreate
| fsMkdir
| fsUnlink
| fsRmdir
| fsTruncate
deriving DecidableEq, Repr

/- The calls in the order of their numbers, from 1 on. -/
def calls : List Call :=
  [.debugPutchar, .exit, .readChar, .readEvent, .clear,
    .setColor, .setBackground, .resetColors, .memoryStatus,
    .debugWrite, .userspaceStatus, .sbrk, .klogStatus,
    .klogRead, .timerStatus, .framebufferStatus,
    .kernelHeapStatus, .appCount, .appInfo, .appRun,
    .fsStatus, .fsList, .fsRead, .fsGetcwd, .fsChdir,
    .fsWrite, .appRunPath, .fsCreate, .fsMkdir, .fsUnlink,
    .fsRmdir, .fsTruncate]

def callOf
    (number : Nat) : Option Call :=
  if number = 0 then none else calls[number - 1]?

def userWriteChunk : Nat := 1024
def userKlogReadMax : Nat := 4096
def userFsListMax : Nat := 32
def userFsReadMax : Nat := 4096

/- A 64-bit word as a signed number. -/
def signed
    (word : Nat) : Int :=
  if word < 2 ^ 63 then word else word - 2 ^ 64

/- One pass of `write_user_string`. -/
def writeStringVisit
    (userAddress len written : Nat) :
    KernelM κ (Nat ⊕ Reply) := do
  if written < len then
    let chunk := min (len - written) userWriteChunk
    let (readable, buffer) ←
      readUserBytes (wrap 64 (userAddress + written)) zeros
        chunk
    if !readable then
      return .inr (.value userErrFault)
    else
      modifyRest (services.consoleWrite
        ((List.range chunk).map buffer))
      return .inl (written + chunk)
  else
    return .inr (.value (signed len))

/- `write_user_string`. -/
def writeUserString
    (userAddress len : Nat) : KernelM κ Reply := do
  if len = 0 then
    return .value 0
  else if !userspaceRangeIsValid userAddress len then
    return .value userErrFault
  else
    loop (pure (.value userErrFault))
      (writeStringVisit services userAddress len) (len + 1) 0

/- Copy a buffer to the user and return `result`. -/
def reportBuffer
    (userAddress : Nat)
    (source : Bytes)
    (len : Nat)
    (result : Int) : KernelM κ Reply := do
  if ← copyToUser userAddress source len then
    return .value result
  else
    return .value userErrFault

/- Copy a structure to the user and return `result`. -/
def reportBytes
    (userAddress : Nat)
    (bytes : List UInt8)
    (result : Int) : KernelM κ Reply :=
  reportBuffer userAddress (ofList bytes) bytes.length result

/- A call that takes a path and runs `body` on it. -/
def withPath
    (userAddress : Nat)
    (body : List UInt8 → KernelM κ Reply) :
    KernelM κ Reply := do
  match ← copyAndResolveUserPath services userAddress with
  | none => return .value userErrFault
  | some path => body path

/- The `console_write_string` of `SYSCALL_EXIT`. -/
def exitMessage : List UInt8 :=
  "[user exit]\n".toUTF8.toList

/- `SYSCALL_EXIT`. -/
def syscallExit
    (frame : SyscallFrame) : KernelM κ Reply := do
  modifyRest (services.consoleWrite exitMessage)
  let status := frame.arg0.toNat
  runMachine (services.schedulerFinishBlockingExit status frame)
    fun
    | some returnFrame =>
        return .resumed (signed status) returnFrame
    | none =>
        runMachine (services.schedulerExitCurrent status)
          fun _ => return .left

/- `SYSCALL_READ_EVENT`. -/
def syscallReadEvent : KernelM κ Reply := do
  match ← runRest services.keyboardReadEvent with
  | none => return .value userErrAgain
  | some event =>
      return .value
        (signed
          (wrap 64
            (wrap 32 event.key ||| (wrap 8 event.ch <<< 8) |||
              (wrap 8 event.modifiers <<< 16))))

/- `SYSCALL_APP_RUN_PATH`. -/
def syscallAppRunPath
    (frame : SyscallFrame)
    (path : List UInt8) : KernelM κ Reply := do
  let cwd :=
    match services.schedulerCurrentProcess (← getRest) with
    | none => [slash]
    | some process => process.cwd.1
  let fs := (← get).fs
  runMachine (services.processCreateFilesystemProcess path cwd fs)
    fun
    | none => return .value userErrInval
    | some process =>
        runMachine
          (services.schedulerRunProcessBlocking process frame)
          fun _ => return .entered

/- `SYSCALL_FS_LIST`. -/
def syscallFsList
    (userAddress maxEntries : Nat)
    (path : List UInt8) : KernelM κ Reply := do
  match Ext2.ext2ListDir (← get).fs (some (cString path))
      (min maxEntries userFsListMax) with
  | .error cause => return .fault cause
  | .ok (count, entries) =>
      if count < 0 then
        return .value count
      else
        reportBuffer userAddress
          (ofList (entries.flatMap packDirent))
          (wrap 64 (count.toNat * direntSize)) count

/- `SYSCALL_FS_READ`. -/
def syscallFsRead
    (userAddress len offset : Nat)
    (path : List UInt8) : KernelM κ Reply := do
  let kernel ← get
  match Ext2.ext2ReadFile kernel.fs (some (cString path))
      kernel.fsReadBuffer (min len userFsReadMax) offset with
  | .error cause => return .fault cause
  | .ok (copied, buffer) =>
      set { kernel with fsReadBuffer := buffer }
      if copied < 0 then
        return .value copied
      else
        reportBuffer userAddress buffer
          (wrap 64 copied.toNat) copied

/- `SYSCALL_FS_CHDIR`. -/
def syscallFsChdir
    (path : List UInt8) : KernelM κ Reply := do
  match Ext2.ext2Stat (← get).fs (some (cString path)) with
  | .error cause => return .fault cause
  | .ok (result, entry) =>
      if result ≠ 0 ∨
          entry.map (·.type) ≠ some userFsTypeDir then
        return .value userErrInval
      else if ← runRest (services.processSetCwd path) then
        return .value 0
      else
        return .value userErrInval

/- `SYSCALL_FS_WRITE`. -/
def syscallFsWrite
    (userAddress len offset : Nat)
    (path : List UInt8) : KernelM κ Reply := do
  let requested := min len userFsReadMax
  let (readable, buffer) ←
    readUserBytes userAddress (← get).fsReadBuffer requested
  modify fun kernel => { kernel with fsReadBuffer := buffer }
  if !readable then
    return .value userErrFault
  else
    runFs (Ext2.ext2WriteFile (some (cString path))
      (some buffer) requested offset)

/- The body of `syscall_dispatch` for a known call. -/
def dispatchCall
    (frame : SyscallFrame) : Call → KernelM κ Reply
| .debugPutchar => do
    modifyRest
      (services.consolePutchar (UInt8.ofNat frame.arg0.toNat))
    return .value 0
| .exit => syscallExit services frame
| .readChar => do
    match ← runRest services.keyboardReadChar with
    | none => return .value userErrAgain
    | some char => return .value (wrap 8 char)
| .readEvent => syscallReadEvent services
| .clear => do
    modifyRest services.consoleClear
    return .value 0
| .setColor => do
    modifyRest
      (services.consoleSetColor (wrap 8 frame.arg0.toNat)
        (wrap 8 frame.arg1.toNat) (wrap 8 frame.arg2.toNat))
    return .value 0
| .setBackground => do
    modifyRest
      (services.consoleSetBackground (wrap 8 frame.arg0.toNat)
        (wrap 8 frame.arg1.toNat) (wrap 8 frame.arg2.toNat))
    return .value 0
| .resetColors => do
    modifyRest services.consoleSetDefaultColors
    return .value 0
| .memoryStatus => do
    let rest ← getRest
    reportBytes frame.arg0.toNat
      (packMemoryStatus (services.pmmGetStats rest)
        (services.pmmHhdmOffset rest)) 0
| .debugWrite =>
    writeUserString services frame.arg0.toNat frame.arg1.toNat
| .userspaceStatus => do
    let rest ← getRest
    reportBytes frame.arg0.toNat
      (packUserspaceStatus (services.userspaceGetStatus rest)
        (services.schedulerCurrentProcess rest)) 0
| .sbrk =>
    runMachine (services.processSbrk frame.arg0.toNat) fun
    | none => return .value userErrFault
    | some oldBreak => return .value (signed oldBreak)
| .klogStatus => do
    let rest ← getRest
    reportBytes frame.arg0.toNat
      (pack
        [(8, services.klogSize rest), (8, klogCapacity),
          (8, services.klogTotalWritten rest),
          (8, services.klogDropped rest)]) 0
| .klogRead => do
    let tail :=
      services.klogCopyTail
        (min frame.arg1.toNat userKlogReadMax) (← getRest)
    reportBytes frame.arg0.toNat tail.1 tail.1.length
| .timerStatus => do
    let rest ← getRest
    reportBytes frame.arg0.toNat
      (pack
        [(8, services.timerTicks rest),
          (4, services.timerFrequency rest), (4, 0)]) 0
| .framebufferStatus => do
    reportBytes frame.arg0.toNat
      (packFramebufferStatus
        (services.framebufferStatus (← getRest))) 0
| .kernelHeapStatus => do
    reportBytes frame.arg0.toNat
      (packHeapStatus (services.heapStatus (← getRest))) 0
| .appCount => return .value 0
| .appInfo => return .value userErrInval
| .appRun => return .value userErrInval
| .fsStatus => do
    match Ext2.ext2GetStatus (← get).fs with
    | .error cause => return .fault cause
    | .ok status =>
        reportBuffer frame.arg0.toNat
          (ofList (packFsStatus status)) fsStatusSize 0
| .fsList =>
    withPath services frame.arg0.toNat
      (syscallFsList frame.arg1.toNat frame.arg2.toNat)
| .fsRead =>
    withPath services frame.arg0.toNat
      (syscallFsRead frame.arg1.toNat frame.arg2.toNat
        frame.arg3.toNat)
| .fsGetcwd => do
    let cwd := currentCwd services (← getRest)
    if cwd.length + 1 > frame.arg1.toNat then
      return .value userErrInval
    else
      reportBytes frame.arg0.toNat (cwd ++ [0]) 0
| .fsChdir =>
    withPath services frame.arg0.toNat (syscallFsChdir services)
| .fsWrite =>
    withPath services frame.arg0.toNat
      (syscallFsWrite frame.arg1.toNat frame.arg2.toNat
        frame.arg3.toNat)
| .appRunPath =>
    withPath services frame.arg0.toNat
      (syscallAppRunPath services frame)
| .fsCreate =>
    withPath services frame.arg0.toNat fun path =>
      runFs (Ext2.ext2CreateFile (some (cString path)))
| .fsMkdir =>
    withPath services frame.arg0.toNat fun path =>
      runFs (Ext2.ext2Mkdir (some (cString path)))
| .fsUnlink =>
    withPath services frame.arg0.toNat fun path =>
      runFs (Ext2.ext2Unlink (some (cString path)))
| .fsRmdir =>
    withPath services frame.arg0.toNat fun path =>
      runFs (Ext2.ext2Rmdir (some (cString path)))
| .fsTruncate =>
    withPath services frame.arg0.toNat fun path =>
      runFs
        (Ext2.ext2TruncateFile (some (cString path))
          frame.arg1.toNat)

/- `syscall_dispatch`. -/
def syscallDispatch
    (frame : Option SyscallFrame) : KernelM κ Reply :=
  match frame with
  | none => return .value userErrNosys
  | some frame =>
      match callOf frame.number.toNat with
      | none => return .value userErrNosys
      | some call => dispatchCall services frame call

end Syscall

end Whirliscope
