import Whirliscope.Userspace.HeapSpace

/-
  The heap functions of the user library.

  A program reads and writes bytes where the tables of its
  space permit it, and stops otherwise. `malloc` takes its
  memory from `user_sbrk`, with a header in front of it.

  Key definitions include:
    * `loadByte`, `storeByte`
    * `userSbrk`
    * `malloc`, `calloc`, `realloc`
-/

------------------------------------------------------------
-- Memory of the Program
------------------------------------------------------------

namespace Whirliscope

namespace Vmm

open ByteMemory

instance
    (virtualAddress : Nat) :
    Decidable (UserHalf virtualAddress) :=
  inferInstanceAs (Decidable (_ < _))

instance
    (tables : Bytes)
    (root virtualAddress : Nat)
    (holds : Nat → Prop)
    [DecidablePred holds] :
    Decidable
      (EveryLevel tables root virtualAddress holds) :=
  inferInstanceAs
    (Decidable
      (∀ level, level < 4 →
        ∃ entry ∈ entryAt tables root virtualAddress level,
          entry &&& vmmPresent ≠ 0 ∧ holds entry))

instance
    (tables : Bytes)
    (root virtualAddress : Nat) :
    Decidable (UserAccess tables root virtualAddress) :=
  inferInstanceAs (Decidable (EveryLevel _ _ _ _))

instance
    (tables : Bytes)
    (root virtualAddress : Nat) :
    Decidable (WriteAccess tables root virtualAddress) :=
  inferInstanceAs (Decidable (EveryLevel _ _ _ _))

end Vmm

namespace Stdlib

open ByteMemory FaultProgram Vmm Syscall Userspace

variable {δ : Type}

/- The tables below which the current process runs. -/
def currentRoot
    (machine : UserMachine δ) : Nat :=
  match machine.rest.scheduler.current with
  | none => machine.pml4
  | some slot => rootOf slot machine

/- Where an access arrives, if the tables permit it. -/
def userTarget
    (stores : Bool)
    (address : Nat)
    (machine : UserMachine δ) : Option Nat :=
  let root := currentRoot machine
  if UserHalf address ∧
      UserAccess machine.tables root address ∧
      (stores = true →
        WriteAccess machine.tables root address) then
    vmmVirtToPhys machine.tables root address
  else
    none

def loadByte
    (address : Nat) : UserM δ UInt8 := do
  let machine ← get
  match userTarget false address machine with
  | none => throw .fault
  | some physical => return machine.memory physical

def storeByte
    (address : Nat)
    (byte : UInt8) : UserM δ Unit := do
  let machine ← get
  match userTarget true address machine with
  | none => throw .fault
  | some physical => set (pokeMemory machine physical byte)

/- Run a body for the indices below a bound, in order. -/
def forEach
    (body : Nat → UserM δ Unit) : Nat → UserM δ Unit
| 0 => return ()
| count + 1 => do
    forEach body count
    body count

/- `memset`. -/
def memset
    (s : Nat)
    (c : UInt8)
    (n : Nat) : UserM δ Unit :=
  forEach (fun i => storeByte (wrap 64 (s + i)) c) n

/- `memcpy`. -/
def memcpy
    (dest src n : Nat) : UserM δ Unit :=
  forEach
    (fun i => do
      let byte ← loadByte (wrap 64 (src + i))
      storeByte (wrap 64 (dest + i)) byte)
    n

/- The little-endian value of some bytes. -/
def loadLE : Nat → Nat → UserM δ Nat
| _, 0 => return 0
| address, count + 1 => do
    let byte ← loadByte (wrap 64 address)
    let rest ← loadLE (address + 1) count
    return byte.toNat + 256 * rest

def storeLE
    (address count value : Nat) : UserM δ Unit :=
  forEach
    (fun i =>
      storeByte (wrap 64 (address + i)) (bytesLE value i))
    count

end Stdlib

end Whirliscope

------------------------------------------------------------
-- Allocation
------------------------------------------------------------

namespace Whirliscope

namespace Stdlib

open ByteMemory FaultProgram Vmm Syscall Userspace

def userMallocAlign : Nat := 16

/- `sizeof(struct allocation_header)`. -/
def headerSize : Nat := 8

/- `SIZE_MAX`. -/
def sizeMax : Nat := 2 ^ 64 - 1

/- `align_up_size`. -/
def alignUpSize
    (value alignment : Nat) : Nat :=
  alignUp 64 value alignment

variable {δ : Type}

/- `user_sbrk`, through `SYSCALL_SBRK`. -/
def userSbrk
    (increment : Nat) : UserM δ Nat := do
  let result : Int :=
    match ← processSbrk increment with
    | none => Ext2.userErrFault
    | some oldBreak => signed oldBreak
  if result < 0 then return 0
  return result.toNat

/- `malloc`. -/
def malloc
    (size : Nat) : UserM δ Nat := do
  if size = 0 then return 0
  let aligned := alignUpSize size userMallocAlign
  let total := wrap 64 (headerSize + aligned)
  let header ← userSbrk total
  if header = 0 then return 0
  storeLE header 8 aligned
  return wrap 64 (header + headerSize)

/- `free`. -/
def free
    (_ptr : Nat) : UserM δ Unit :=
  return ()

/- `calloc`. -/
def calloc
    (nmemb size : Nat) : UserM δ Nat := do
  if size ≠ 0 ∧ nmemb > sizeMax / size then return 0
  let total := wrap 64 (nmemb * size)
  let ptr ← malloc total
  if ptr ≠ 0 then
    memset ptr 0 total
  return ptr

/- `realloc`. -/
def realloc
    (ptr size : Nat) : UserM δ Nat := do
  if ptr = 0 then
    malloc size
  else if size = 0 then
    free ptr
    return 0
  else
    let oldHeader := wrapSub 64 ptr headerSize
    let newPtr ← malloc size
    if newPtr = 0 then return 0
    let oldSize ← loadLE oldHeader 8
    let toCopy := if oldSize < size then oldSize else size
    memcpy newPtr ptr toCopy
    return newPtr

end Stdlib

end Whirliscope
