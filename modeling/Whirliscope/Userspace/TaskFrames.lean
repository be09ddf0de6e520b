import Whirliscope.Fs.Ext2.Results
import Whirliscope.Memory.SpaceFrames
import Whirliscope.Userspace.Scheduler

/-
  What leaves the tasks alone.

  Loading an image, the kernel heap and most system calls
  change neither the process table nor the scheduler. These
  calls return documented values.

  Key definitions include:
    * `Steady`
    * `Replies`

  Main theorem:
    * `Steady.replies_dispatchCall`
-/

------------------------------------------------------------
-- The Segment Loader
------------------------------------------------------------

namespace Whirliscope

namespace Elf

open ByteMemory FaultProgram

variable {σ : Type}

/- What the page functions of the loader keep. -/
structure PageManager.Closed
    (manager : PageManager σ)
    (invariant : σ → Prop) : Prop where
  alloc :
    ∀ machine, invariant machine →
      invariant (manager.pmmAllocPage machine).2
  store :
    ∀ address count source machine, invariant machine →
      invariant
        (manager.storePhys address count source machine)
  map :
    ∀ pml4Phys vaddr phys flags machine, invariant machine →
      invariant
        (manager.vmmMapPageInSpace pml4Phys vaddr phys flags
          machine).2

/- A fact about the machine below the loader. -/
def OfMachine
    (invariant : σ → Prop)
    (loading : Loading σ) : Prop :=
  invariant loading.machine

namespace PageManager.Closed

variable {manager : PageManager σ} {invariant : σ → Prop}

theorem keeps_readImage
    (image : Bytes)
    (offset count : Nat) :
    Keeps (OfMachine invariant)
      (readImage image offset count) :=
  Preserves.bind (Preserves.of_modify fun _ h => h)
    fun _ => Preserves.of_pure _ _

theorem keeps_storePhys
    (hClosed : manager.Closed invariant)
    (address count : Nat)
    (source : Bytes) :
    Keeps (OfMachine invariant)
      (Elf.storePhys manager address count source) :=
  Preserves.of_modify fun loading hLoading =>
    hClosed.store address count source loading.machine
      hLoading

theorem keeps_loadSegmentPage
    (hClosed : manager.Closed invariant)
    (pml4Phys : Nat)
    (image : Bytes)
    (phdr : Elf64Phdr)
    (pageVaddr : Nat) :
    Keeps (OfMachine invariant)
      (loadSegmentPage manager pml4Phys image phdr
        pageVaddr) := by
  have hAlloc :
      Keeps (OfMachine invariant)
        (Elf.pmmAllocPage manager) := by
    intro loading hLoading
    simp only [Elf.pmmAllocPage, ensures_bind_iff,
      ensures_get_iff, ensures_set_iff, ensures_pure_iff]
    exact hClosed.alloc _ hLoading
  have hMap :
      ∀ vaddr phys flags,
        Keeps (OfMachine invariant)
          (Elf.vmmMapPageInSpace manager pml4Phys vaddr phys
            flags) := by
    intro vaddr phys flags loading hLoading
    simp only [Elf.vmmMapPageInSpace, ensures_bind_iff,
      ensures_get_iff, ensures_set_iff, ensures_pure_iff]
    exact hClosed.map _ _ _ _ _ hLoading
  unfold loadSegmentPage
  refine hAlloc.bind fun page => ?_
  refine Preserves.ite (Preserves.of_pure _ _) ?_
  refine (hClosed.keeps_storePhys _ _ _).bind fun _ => ?_
  refine Preserves.ite ?_ (hMap _ _ _)
  refine (keeps_readImage _ _ _).bind fun bytes => ?_
  exact (hClosed.keeps_storePhys _ _ _).bind fun _ =>
    hMap _ _ _

theorem keeps_loadUserSegment
    (hClosed : manager.Closed invariant)
    (pml4Phys : Nat)
    (image : Bytes)
    (phdr : Elf64Phdr) :
    Keeps (OfMachine invariant)
      (loadUserSegment manager pml4Phys image phdr) := by
  unfold loadUserSegment
  refine Preserves.ite (Preserves.of_pure _ _) ?_
  refine Preserves.ite (Preserves.of_pure _ _) ?_
  refine Preserves.loop (Preserves.of_throw _ trivial)
    (fun pageVaddr => ?_) _ _
  unfold loadPageVisit
  refine Preserves.ite ?_ (Preserves.of_pure _ _)
  refine (hClosed.keeps_loadSegmentPage _ _ _ _).bind
    fun loaded => ?_
  exact Preserves.ite (Preserves.of_pure _ _)
    (Preserves.of_pure _ _)

theorem keeps_loadUserImageSegments
    (hClosed : manager.Closed invariant)
    (pml4Phys : Nat)
    (image : Bytes)
    (elf : Elf64Image) :
    Keeps (OfMachine invariant)
      (loadUserImageSegments manager pml4Phys image elf) := by
  unfold loadUserImageSegments
  refine Preserves.loop (Preserves.of_throw _ trivial)
    (fun i => ?_) _ _
  unfold loadHeaderVisit
  refine Preserves.ite ?_ (Preserves.of_pure _ _)
  refine (keeps_readImage _ _ _).bind fun _ => ?_
  refine (hClosed.keeps_loadUserSegment _ _ _).bind
    fun loaded => ?_
  exact Preserves.ite (Preserves.of_pure _ _)
    (Preserves.of_pure _ _)

end PageManager.Closed

end Elf

end Whirliscope

------------------------------------------------------------
-- Memory of the Kernel
------------------------------------------------------------

namespace Whirliscope

namespace Userspace

open ByteMemory FaultProgram Syscall
open Vmm (Spaces)

variable {δ : Type}

/- The kernel stops in the heap or in the file system. -/
def Foreign
    (cause : Stop) : Prop :=
  cause = .fault ∨ cause = .panic .assertionFailed

/-
  A fact that does not depend on memory, tables, frames, the
  kernel heap, the next process number or the devices.
-/
structure Steady
    (invariant : UserMachine δ → Prop) : Prop where
  paging :
    ∀ machine paging, invariant machine →
      invariant (withPaging machine paging)
  memory :
    ∀ machine memory, invariant machine →
      invariant { machine with memory := memory }
  heap :
    ∀ machine heap, invariant machine →
      invariant
        { machine with
          rest := { machine.rest with heap := heap } }
  nextPid :
    ∀ machine pid, invariant machine →
      invariant
        { machine with
          rest := { machine.rest with nextPid := pid } }
  devices :
    ∀ machine devices, invariant machine →
      invariant
        { machine with
          rest := machine.rest.withDevices devices }

/- The heap does not change the roots. -/
def SameRoots
    (before after : Spaces) : Prop :=
  after.kernelCr3 = before.kernelCr3 ∧
    after.pml4 = before.pml4

theorem spaceSource_sameRoots
    (before : Spaces) :
    Vmm.spaceSource.Closed (SameRoots before) where
  alloc := fun _ h => h
  free := fun _ _ h => h
  map := fun _ _ _ _ h => h
  unmap := fun _ _ h => h

namespace Steady

variable {invariant : UserMachine δ → Prop}

theorem preserves_pmmAllocPage
    (hSteady : Steady invariant) :
    Preserves Foreign invariant pmmAllocPage := by
  intro machine hMachine
  simp only [pmmAllocPage, ensures_bind_iff, ensures_get_iff,
    ensures_set_iff, ensures_pure_iff]
  exact hSteady.paging machine _ hMachine

theorem preserves_clearPage
    (hSteady : Steady invariant)
    (page : Nat) :
    Preserves Foreign invariant (clearPage page) :=
  Preserves.of_modify fun machine hMachine =>
    hSteady.memory machine _ hMachine

theorem preserves_vmmMapPageInSpace
    (hSteady : Steady invariant)
    (pml4Phys vaddr phys flags : Nat) :
    Preserves Foreign invariant
      (vmmMapPageInSpace pml4Phys vaddr phys flags) := by
  intro machine hMachine
  simp only [vmmMapPageInSpace, ensures_bind_iff,
    ensures_get_iff, ensures_set_iff, ensures_pure_iff]
  exact hSteady.paging machine _ hMachine

theorem preserves_vmmCreateAddressSpace
    (hSteady : Steady invariant) :
    Preserves Foreign invariant vmmCreateAddressSpace := by
  intro machine hMachine
  simp only [vmmCreateAddressSpace, ensures_bind_iff,
    ensures_get_iff, ensures_set_iff, ensures_pure_iff,
    Vmm.vmmCreateAddressSpace]
  split_ifs
  · exact hSteady.paging machine _ hMachine
  · exact hSteady.paging machine _ hMachine

theorem preserves_runHeap
    {α : Type}
    (hSteady : Steady invariant)
    {program : KernelHeap.HeapM Spaces α}
    (hRoots :
      ∀ before,
        Keeps (KernelHeap.OfMachine (SameRoots before))
          program) :
    Preserves Foreign invariant (runHeap program) := by
  intro machine hMachine
  unfold runHeap
  rw [ensures_bind_iff, ensures_get_iff]
  split
  · rename_i result heap hRun
    have hSame :
        SameRoots (spacesOf machine) heap.machine :=
      (hRoots (spacesOf machine) _ ⟨rfl, rfl⟩).of_returns hRun
    have hPaging :
        withSpaces machine heap.machine =
          withPaging machine heap.machine.paging := by
      unfold withPaging withSpaces
      rw [hSame.1, hSame.2]
      rfl
    rw [ensures_bind_iff, ensures_set_iff, ensures_pure_iff,
      hPaging]
    exact hSteady.heap _ _ (hSteady.paging _ _ hMachine)
  · rw [ensures_throw_iff]
    exact .inr rfl
  · rw [ensures_throw_iff]
    exact .inl rfl

theorem preserves_kmalloc
    (hSteady : Steady invariant)
    (size : Nat) :
    Preserves Foreign invariant (kmalloc size) :=
  hSteady.preserves_runHeap fun before =>
    (spaceSource_sameRoots before).keeps_kmalloc size

theorem preserves_kfree
    (hSteady : Steady invariant)
    (ptr : Nat) :
    Preserves Foreign invariant (kfree ptr) :=
  hSteady.preserves_runHeap fun before =>
    (KernelHeap.ofMachine_light _).preserves_kfree ptr

theorem preserves_sbrkVisit
    (hSteady : Steady invariant)
    (pml4Phys newPageEnd vaddr : Nat) :
    Preserves Foreign invariant
      (sbrkVisit pml4Phys newPageEnd vaddr) := by
  unfold sbrkVisit
  refine Preserves.ite ?_ (Preserves.of_pure _ _)
  refine hSteady.preserves_pmmAllocPage.bind fun page => ?_
  refine Preserves.ite (Preserves.of_pure _ _) ?_
  refine (hSteady.preserves_clearPage _).bind fun _ => ?_
  refine (hSteady.preserves_vmmMapPageInSpace _ _ _ _).bind
    fun mapped => ?_
  exact Preserves.ite (Preserves.of_pure _ _)
    (Preserves.of_pure _ _)

theorem pageManager_closed
    (hSteady : Steady invariant) :
    pageManager.Closed invariant where
  alloc := fun machine h => hSteady.paging machine _ h
  store := fun _ _ _ machine h => hSteady.memory machine _ h
  map := fun _ _ _ _ machine h => hSteady.paging machine _ h

theorem preserves_runLoader
    {α : Type}
    {program : Elf.LoadM (UserMachine δ) α}
    (hProgram : Keeps (Elf.OfMachine invariant) program) :
    Preserves Foreign invariant (runLoader program) := by
  intro machine hMachine
  unfold runLoader
  rw [ensures_bind_iff, ensures_get_iff]
  split
  · rename_i result loading hRun
    have hLoading : invariant loading.machine :=
      (hProgram ⟨machine, []⟩ hMachine).of_returns hRun
    rw [ensures_bind_iff, ensures_set_iff, ensures_pure_iff]
    exact hLoading
  · rw [ensures_throw_iff]
    exact .inl rfl

theorem preserves_readImageFile
    (hSteady : Steady invariant)
    (path : List UInt8)
    (fs : Ext2.State) :
    Preserves Foreign invariant (readImageFile path fs) := by
  unfold readImageFile
  split
  · exact Preserves.of_throw _ (.inl rfl)
  · refine Preserves.ite (Preserves.of_pure _ _) ?_
    refine (hSteady.preserves_kmalloc _).bind fun image => ?_
    refine Preserves.ite (Preserves.of_pure _ _) ?_
    refine (Preserves.of_get _).bind fun machine => ?_
    dsimp only
    split
    · exact Preserves.of_throw _ (.inl rfl)
    · refine Preserves.bind ?_ fun _ => ?_
      · exact Preserves.of_modify fun machine hMachine =>
          hSteady.heap machine _ hMachine
      · refine Preserves.ite ?_ (Preserves.of_pure _ _)
        exact (hSteady.preserves_kfree _).bind fun _ =>
          Preserves.of_pure _ _

theorem preserves_takePid
    (hSteady : Steady invariant) :
    Preserves Foreign invariant takePid := by
  unfold takePid
  refine (Preserves.of_get _).bind fun _ => ?_
  refine Preserves.bind ?_ fun _ => Preserves.of_pure _ _
  exact Preserves.of_modify fun machine hMachine =>
    hSteady.nextPid machine _ hMachine

end Steady

end Userspace

end Whirliscope

------------------------------------------------------------
-- System Calls
------------------------------------------------------------

namespace Whirliscope

namespace Userspace

open ByteMemory FaultProgram Syscall
open Ext2 (userErrFault userErrInval)

variable {δ : Type}

/- A fact about the machine of the kernel. -/
def OnMachine
    (invariant : UserMachine δ → Prop)
    (kernel : Kernel (Userland δ)) : Prop :=
  invariant kernel.machine

/- A call keeps a fact about the machine. -/
abbrev KeepsMachine
    {α : Type}
    (invariant : UserMachine δ → Prop)
    (program : KernelM (Userland δ) α) : Prop :=
  Preserves (fun _ => False) (OnMachine invariant) program

namespace Steady

variable {invariant : UserMachine δ → Prop}

theorem keeps_getRest :
    KeepsMachine invariant getRest :=
  (Preserves.of_get _).bind fun _ => Preserves.of_pure _ _

theorem keeps_tellDevice
    (hSteady : Steady invariant)
    (device : δ → δ) :
    KeepsMachine invariant (modifyRest (tellDevice device)) :=
  Preserves.of_modify fun kernel hKernel =>
    hSteady.devices kernel.machine _ hKernel

theorem keeps_askDevice
    {α : Type}
    (hSteady : Steady invariant)
    (device : δ → α × δ) :
    KeepsMachine invariant (runRest (askDevice device)) := by
  intro kernel hKernel
  simp only [runRest, getRest, modifyRest, ensures_bind_iff,
    ensures_get_iff, ensures_modify_iff, ensures_pure_iff]
  exact hSteady.devices kernel.machine _ hKernel

/- The loops over user memory keep what their moves keep. -/
theorem keeps_userLoop
    {β : Type}
    {move :
      β → Nat → Nat → Nat → KernelM (Userland δ) β}
    (hMove :
      ∀ data copied physical chunk,
        KeepsMachine invariant
          (move data copied physical chunk))
    (data : β)
    (userAddress len : Nat) :
    KeepsMachine invariant
      (loop (pure (false, data))
        (userVisit move userAddress len) (len + 1)
        (0, data)) := by
  refine Preserves.loop (Preserves.of_pure _ _)
    (fun state => ?_) _ _
  unfold userVisit
  refine Preserves.ite ?_ (Preserves.of_pure _ _)
  refine (Preserves.of_get _).bind fun kernel => ?_
  split
  · exact Preserves.of_pure _ _
  · refine Preserves.bind ?_ fun _ => ?_
    · exact Preserves.of_modify fun _ hKernel => hKernel
    · exact (hMove _ _ _ _).bind fun _ => Preserves.of_pure _ _

theorem keeps_readUserBytes
    (userAddress : Nat)
    (dest : Bytes)
    (len : Nat) :
    KeepsMachine invariant
      (readUserBytes userAddress dest len) := by
  refine keeps_userLoop (fun out copied physical chunk => ?_) _
    _ _
  exact (Preserves.of_get _).bind fun _ => Preserves.of_pure _ _

theorem keeps_copyToUser
    (hSteady : Steady invariant)
    (userAddress : Nat)
    (source : Bytes)
    (len : Nat) :
    KeepsMachine invariant
      (copyToUser userAddress source len) := by
  unfold copyToUser
  refine Preserves.ite (Preserves.of_pure _ _) ?_
  refine Preserves.ite (Preserves.of_pure _ _) ?_
  refine Preserves.bind ?_ fun _ => Preserves.of_pure _ _
  refine keeps_userLoop (fun _ copied physical chunk => ?_) _
    _ _
  exact Preserves.of_modify fun kernel hKernel =>
    hSteady.memory kernel.machine _ hKernel

theorem keeps_copyUserString
    (userAddress destSize : Nat) :
    KeepsMachine invariant
      (copyUserString userAddress destSize) := by
  refine Preserves.loop (Preserves.of_pure _ _)
    (fun state => ?_) _ _
  unfold copyStringVisit
  refine Preserves.ite ?_ (Preserves.of_pure _ _)
  refine Preserves.ite (Preserves.of_pure _ _) ?_
  refine (keeps_readUserBytes _ _ _).bind fun result => ?_
  refine Preserves.ite (Preserves.of_pure _ _) ?_
  exact Preserves.ite (Preserves.of_pure _ _)
    (Preserves.of_pure _ _)

end Steady

/- A value for the caller, or a fault in the file system. -/
def DocumentedReply : Reply → Prop
| .value result => Ext2.Documented result
| .fault _ => True
| _ => False

/- A call keeps the fact and returns a documented value. -/
def Replies
    (invariant : UserMachine δ → Prop)
    (program : KernelM (Userland δ) Reply) : Prop :=
  ∀ kernel, OnMachine invariant kernel →
    Ensures (fun _ => False) program kernel
      fun reply final =>
        OnMachine invariant final ∧ DocumentedReply reply

section

variable {invariant : UserMachine δ → Prop}

theorem Replies.of_pure
    {reply : Reply}
    (hReply : DocumentedReply reply) :
    Replies invariant (return reply) := by
  intro kernel hKernel
  rw [ensures_pure_iff]
  exact ⟨hKernel, hReply⟩

theorem Replies.ite
    {condition : Prop}
    [Decidable condition]
    {left right : KernelM (Userland δ) Reply}
    (hLeft : Replies invariant left)
    (hRight : Replies invariant right) :
    Replies invariant (if condition then left else right) := by
  split_ifs
  · exact hLeft
  · exact hRight

theorem Replies.after
    {α : Type}
    {first : KernelM (Userland δ) α}
    {next : α → KernelM (Userland δ) Reply}
    (hFirst : KeepsMachine invariant first)
    (hNext : ∀ value, Replies invariant (next value)) :
    Replies invariant (first >>= next) := by
  intro kernel hKernel
  rw [ensures_bind_iff]
  apply (hFirst kernel hKernel).mono
  intro value middle hMiddle
  exact hNext value middle hMiddle

end

namespace Steady

variable {invariant : UserMachine δ → Prop}

theorem replies_fault :
    Replies invariant (return .value userErrFault) :=
  Replies.of_pure Ext2.documented_fault

theorem replies_inval :
    Replies invariant (return .value userErrInval) :=
  Replies.of_pure Ext2.documented_inval

theorem replies_again :
    Replies invariant (return .value Ext2.userErrAgain) :=
  Replies.of_pure (.inr (.inl rfl))

theorem replies_reportBuffer
    (hSteady : Steady invariant)
    (userAddress : Nat)
    (source : Bytes)
    (len : Nat)
    {result : Int}
    (hResult : Ext2.Documented result) :
    Replies invariant
      (reportBuffer userAddress source len result) :=
  Replies.after (hSteady.keeps_copyToUser _ _ _) fun _ =>
    Replies.ite (Replies.of_pure hResult) replies_fault

theorem replies_withPath
    (services : Services (Userland δ))
    {userAddress : Nat}
    {body : List UInt8 → KernelM (Userland δ) Reply}
    (hBody : ∀ path, Replies invariant (body path)) :
    Replies invariant
      (withPath services userAddress body) := by
  unfold withPath copyAndResolveUserPath
  refine Replies.after ?_ fun path => ?_
  · refine (keeps_copyUserString _ _).bind fun path => ?_
    split
    · exact Preserves.of_pure _ _
    · exact keeps_getRest.bind fun _ => Preserves.of_pure _ _
  · split
    · exact replies_fault
    · exact hBody _

theorem replies_runFs
    {program : Ext2.Ext2M Int}
    (hProgram : Answers Ext2.Documented program) :
    Replies invariant (runFs program) := by
  intro kernel hKernel
  unfold runFs
  rw [ensures_bind_iff, ensures_get_iff]
  split
  · rename_i result fs hRun
    rw [ensures_bind_iff, ensures_set_iff, ensures_pure_iff]
    exact ⟨hKernel, (hProgram kernel.fs).of_returns hRun⟩
  · rw [ensures_pure_iff]
    exact ⟨hKernel, trivial⟩

theorem signed_nonneg
    {word : Nat}
    (hWord : word < 2 ^ 63) :
    0 ≤ signed word := by
  unfold signed
  rw [if_pos hWord]
  exact Int.natCast_nonneg word

/- A packed key event fits in 32 bits. -/
theorem packedEvent_lt
    (key ch modifiers : Nat) :
    wrap 64
        (wrap 32 key ||| (wrap 8 ch <<< 8) |||
          (wrap 8 modifiers <<< 16)) <
      2 ^ 63 := by
  have hKey : wrap 32 key < 2 ^ 32 := wrap_lt 32 key
  have hChar : wrap 8 ch <<< 8 < 2 ^ 32 := by
    have := wrap_lt 8 ch
    rw [Nat.shiftLeft_eq]
    omega
  have hModifiers : wrap 8 modifiers <<< 16 < 2 ^ 32 := by
    have := wrap_lt 8 modifiers
    rw [Nat.shiftLeft_eq]
    omega
  have hPacked :=
    Nat.or_lt_two_pow (Nat.or_lt_two_pow hKey hChar)
      hModifiers
  rw [wrap_of_lt (by omega)]
  omega

theorem replies_writeUserString
    (hSteady : Steady invariant)
    (devices : Devices δ)
    {userAddress len : Nat}
    (hAddress : userAddress < 2 ^ 64)
    (hLen : len < 2 ^ 64) :
    Replies invariant
      (writeUserString (kernelServices devices) userAddress
        len) := by
  unfold writeUserString
  refine Replies.ite
    (Replies.of_pure (Ext2.documented_ofNat 0)) ?_
  by_cases hValid : userspaceRangeIsValid userAddress len
  · -- A valid range is short, so its length is not negative.
    have hShort : len < 2 ^ 63 := by
      rw [userspaceRangeIsValid_iff hAddress hLen] at hValid
      unfold userspaceMaxVaddr at hValid
      omega
    simp only [hValid, Bool.not_true, Bool.false_eq_true,
      if_false]
    intro kernel hKernel
    apply ensures_loop fun _ _ final =>
      OnMachine invariant final
    · intro _ final hFinal
      exact replies_fault final hFinal
    · intro _ written middle hMiddle
      unfold writeStringVisit
      rw [ensures_ite_iff]
      constructor
      · intro _
        rw [ensures_bind_iff]
        apply (keeps_readUserBytes _ _ _ middle hMiddle).mono
        intro result last hLast
        rw [ensures_ite_iff]
        constructor
        · intro _
          rw [ensures_pure_iff, continues_inr]
          exact ⟨hLast, Ext2.documented_fault⟩
        · intro _
          rw [ensures_bind_iff]
          apply (hSteady.keeps_tellDevice _ last hLast).mono
          intro _ told hTold
          rw [ensures_pure_iff, continues_inl]
          exact hTold
      · intro _
        rw [ensures_pure_iff, continues_inr]
        exact ⟨hMiddle, .inl (signed_nonneg hShort)⟩
    · exact hKernel
  · simp only [hValid, Bool.not_false, if_true]
    exact replies_fault

theorem replies_syscallFsRead
    (hSteady : Steady invariant)
    (userAddress len offset : Nat)
    (path : List UInt8) :
    Replies invariant
      (syscallFsRead userAddress len offset path) := by
  intro kernel hKernel
  unfold syscallFsRead
  rw [ensures_bind_iff, ensures_get_iff]
  split
  · rw [ensures_pure_iff]
    exact ⟨hKernel, trivial⟩
  · rename_i copied buffer hRead
    have hCopied : Ext2.Documented copied :=
      (Ext2.yields_ext2ReadFile _ _ _ _ _).of_eq_ok hRead
    rw [ensures_bind_iff, ensures_set_iff, ensures_ite_iff]
    constructor
    · intro _
      rw [ensures_pure_iff]
      exact ⟨hKernel, hCopied⟩
    · intro _
      exact hSteady.replies_reportBuffer _ _ _ hCopied _
        hKernel

end Steady

/- The calls that change the process table or the scheduler. -/
def Call.changesTasks : Call → Bool
| .exit => true
| .sbrk => true
| .fsChdir => true
| .appRunPath => true
| _ => false

/- Every other call leaves the tasks alone. -/
theorem Steady.replies_dispatchCall
    {invariant : UserMachine δ → Prop}
    (hSteady : Steady invariant)
    (devices : Devices δ)
    (frame : SyscallFrame)
    {call : Call}
    (hCall : Call.changesTasks call = false) :
    Replies invariant
      (dispatchCall (kernelServices devices) frame call) := by
  have hReport :
      ∀ bytes,
        Replies invariant
          (reportBytes frame.arg0.toNat bytes 0) :=
    fun bytes =>
      hSteady.replies_reportBuffer _ _ _
        (Ext2.documented_ofNat 0)
  have hDone : Replies invariant (return .value 0) :=
    Replies.of_pure (Ext2.documented_ofNat 0)
  cases call with
  | exit | sbrk | fsChdir | appRunPath => cases hCall
  | debugPutchar | clear | setColor | setBackground
  | resetColors =>
      exact Replies.after (hSteady.keeps_tellDevice _)
        fun _ => hDone
  | readChar =>
      refine Replies.after (hSteady.keeps_askDevice _)
        fun char => ?_
      split
      · exact replies_again
      · exact Replies.of_pure (Ext2.documented_ofNat _)
  | readEvent =>
      refine Replies.after (hSteady.keeps_askDevice _)
        fun event => ?_
      split
      · exact replies_again
      · exact Replies.of_pure (.inl (signed_nonneg
          (packedEvent_lt _ _ _)))
  | memoryStatus | userspaceStatus | klogStatus | timerStatus
  | framebufferStatus | kernelHeapStatus =>
      exact Replies.after keeps_getRest fun _ => hReport _
  | debugWrite =>
      exact hSteady.replies_writeUserString devices
        frame.arg0.toNat_lt frame.arg1.toNat_lt
  | klogRead =>
      exact Replies.after keeps_getRest fun _ =>
        hSteady.replies_reportBuffer _ _ _
          (Ext2.documented_ofNat _)
  | appCount => exact hDone
  | appInfo | appRun => exact replies_inval
  | fsStatus =>
      refine Replies.after (Preserves.of_get _)
        fun kernel => ?_
      split
      · exact Replies.of_pure trivial
      · exact hSteady.replies_reportBuffer _ _ _
          (Ext2.documented_ofNat 0)
  | fsList =>
      refine replies_withPath _ fun path => ?_
      refine Replies.after (Preserves.of_get _)
        fun kernel => ?_
      split
      · exact Replies.of_pure trivial
      · rename_i count entries hList
        have hCount : Ext2.Documented count :=
          (Ext2.yields_ext2ListDir _ _ _).of_eq_ok hList
        exact Replies.ite (Replies.of_pure hCount)
          (hSteady.replies_reportBuffer _ _ _ hCount)
  | fsRead =>
      exact replies_withPath _ fun path =>
        hSteady.replies_syscallFsRead _ _ _ _
  | fsGetcwd =>
      refine Replies.after keeps_getRest fun rest => ?_
      exact Replies.ite replies_inval (hReport _)
  | fsWrite =>
      refine replies_withPath _ fun path => ?_
      refine Replies.after (Preserves.of_get _)
        fun kernel => ?_
      refine Replies.after (keeps_readUserBytes _ _ _)
        fun result => ?_
      refine Replies.after
        (Preserves.of_modify fun _ hKernel => hKernel)
        fun _ => ?_
      exact Replies.ite replies_fault
        (replies_runFs
          (Ext2.stable_trivial.concludes_ext2WriteFile _ _ _ _).answers)
  | fsCreate =>
      exact replies_withPath _ fun path =>
        replies_runFs
          (Ext2.stable_trivial.concludes_ext2CreateFile _).answers
  | fsMkdir =>
      exact replies_withPath _ fun path =>
        replies_runFs
          (Ext2.stable_trivial.concludes_ext2Mkdir _).answers
  | fsUnlink =>
      exact replies_withPath _ fun path =>
        replies_runFs
          (Ext2.stable_trivial.concludes_ext2Unlink _).answers
  | fsRmdir =>
      exact replies_withPath _ fun path =>
        replies_runFs
          (Ext2.stable_trivial.concludes_ext2Rmdir _).answers
  | fsTruncate =>
      exact replies_withPath _ fun path =>
        replies_runFs
          (Ext2.stable_trivial.concludes_ext2TruncateFile _ _).answers

end Userspace

end Whirliscope
