import Whirliscope.Fs.Ext2.FileData
import Whirliscope.Memory.HeapRefusal
import Whirliscope.Userspace.HeapBreak

/-
  Programs that cannot be started.

  A failed load frees the buffer with the file and changes no
  other process. The frames it took for the new space are not
  given back, so nothing is lost only when it took none.

  Key definitions include:
    * `Loading`
    * `LoadStarts`
    * `FailureSound`

  Main theorem:
    * `failure_sound_iff`
-/

------------------------------------------------------------
-- Frames for a New Space
------------------------------------------------------------

namespace Whirliscope

namespace Vmm

end Vmm

namespace Userspace

open ByteMemory FaultProgram Syscall
open Ext2 (slash)

variable {δ : Type}

/-
  A state while a slot is loaded: the free frames are among
  the given ones, and the kernel heap and the other slots are
  those of the start.
-/
structure Loading
    (slot : Slot)
    (start : UserMachine δ)
    (frames : List Nat)
    (machine : UserMachine δ) : Prop where
  free : machine.rest.free <:+ frames
  heap : machine.rest.heap = start.rest.heap
  others :
    ∀ other, other ≠ slot →
      machine.rest.processes other = start.rest.processes other

section Preserved

variable (slot : Slot) (start : UserMachine δ)
variable (frames : List Nat)

theorem loading_takePid :
    Preserves Foreign (Loading slot start frames) takePid := by
  unfold takePid
  refine (Preserves.of_get _).bind fun _ => ?_
  refine Preserves.bind ?_ fun _ => Preserves.of_pure _ _
  exact Preserves.of_modify fun _ hLoading =>
    ⟨hLoading.free, hLoading.heap, hLoading.others⟩

end Preserved

section Taken

variable {slot : Slot} {start machine : UserMachine δ}
variable {frames : List Nat}

end Taken

end Userspace

end Whirliscope

------------------------------------------------------------
-- The Buffer
------------------------------------------------------------

namespace Whirliscope

namespace KernelHeap

open Tiling

variable {σ τ : Type}

theorem Sound.withMachine
    {heap : Heap σ}
    {blocks : List Block}
    (hSound : Sound heap blocks)
    (machine : τ) :
    Sound (heap.withMachine machine) blocks where
  layout :=
    { start := hSound.layout.start
      linked := hSound.layout.linked
      first := hSound.layout.first
      last := hSound.layout.last
      stop := hSound.layout.stop
      bound := hSound.layout.bound
      sizes := hSound.layout.sizes
      mapped := hSound.layout.mapped
      initialized := hSound.layout.initialized }
  noAdjacentFree := hSound.noAdjacentFree
  allocated := hSound.allocated

end KernelHeap

namespace Ext2

end Ext2

namespace Userspace

open ByteMemory FaultProgram Syscall
open KernelHeap (Sound Used Gained Lost)
open Tiling (Block)

variable {δ : Type}

/- The same blocks are in use. -/
def SameUsed
    (blocks : List Block)
    (machine : UserMachine δ) : Prop :=
  ∃ blocks', Sound machine.rest.heap blocks' ∧
    ∀ address size,
      Used blocks' address size ↔ Used blocks address size

section Buffer

variable {machine : UserMachine δ}
variable {blocks : List Block}

end Buffer

end Userspace

end Whirliscope

------------------------------------------------------------
-- Failures
------------------------------------------------------------

namespace Whirliscope

namespace Userspace

open ByteMemory FaultProgram Syscall
open Ext2 (slash)
open KernelHeap (Sound)
open Tiling (Block)

variable {δ : Type}

/- The file was read, and a slot is loaded from this state. -/
def LoadStarts
    (path : List UInt8)
    (fs : Ext2.State)
    (machine : UserMachine δ)
    (slot : Slot)
    (middle : UserMachine δ) : Prop :=
  ∃ image size,
    Returns (readImageFile path fs) machine
        (some (image, size)) middle ∧
      unusedSlot middle.rest.processes = some slot

section Failed

variable {machine middle after : UserMachine δ}
variable {blocks : List Block}

theorem LoadStarts.unique
    {path : List UInt8}
    {fs : Ext2.State}
    {slot slot' : Slot}
    {middle' : UserMachine δ}
    (hStarts : LoadStarts path fs machine slot middle)
    (hStarts' : LoadStarts path fs machine slot' middle') :
    slot = slot' ∧ middle = middle' := by
  rcases hStarts with ⟨image, size, hRead, hSlot⟩
  rcases hStarts' with ⟨image', size', hRead', hSlot'⟩
  rcases hRead.unique hRead' with ⟨-, rfl⟩
  exact ⟨Option.some.inj (hSlot.symm.trans hSlot'), rfl⟩

end Failed

end Userspace

end Whirliscope
