import Whirliscope.Userspace.UserMemory

/-
  Which memory system calls reach through user pointers.

  Main declarations:
    * `NeedsOutside`, `Refused`, `Outcome`
    * `ensures_dispatchCall`
    * `Confined`, `Guarded`
    * `confined_iff`
-/

------------------------------------------------------------
-- What a Call Needs and Does
------------------------------------------------------------

namespace Whirliscope

namespace Syscall

open ByteMemory FaultProgram Vmm
open Ext2 (userErrFault userErrInval)

variable {κ : Type} (services : Services κ)

/- The path argument of a call. -/
def pathArgument
    (frame : SyscallFrame) : Call → Option Nat
| .fsList | .fsRead | .fsChdir | .fsWrite | .appRunPath
| .fsCreate | .fsMkdir | .fsUnlink | .fsRmdir
| .fsTruncate => some frame.arg0.toNat
| _ => none

/-
  The buffer argument of a call, with the bytes that the call
  has to move.
-/
def bufferArgument
    (frame : SyscallFrame)
    (kernel : Kernel κ) : Call → Option (Nat × Nat)
| .memoryStatus => some (frame.arg0.toNat, 32)
| .debugWrite => some (frame.arg0.toNat, frame.arg1.toNat)
| .userspaceStatus => some (frame.arg0.toNat, 144)
| .klogStatus => some (frame.arg0.toNat, 32)
| .klogRead =>
    some (frame.arg0.toNat,
      (services.klogCopyTail
        (min frame.arg1.toNat userKlogReadMax)
        kernel.machine.rest).1.length)
| .timerStatus => some (frame.arg0.toNat, 16)
| .framebufferStatus => some (frame.arg0.toNat, 48)
| .kernelHeapStatus => some (frame.arg0.toNat, 32)
| .fsStatus =>
    match Ext2.ext2GetStatus kernel.fs with
    | .error _ => none
    | .ok _ => some (frame.arg0.toNat, fsStatusSize)
| .fsList =>
    match pathOf services kernel frame.arg0.toNat with
    | none => none
    | some path =>
        match Ext2.ext2ListDir kernel.fs
            (some (cString path))
            (min frame.arg2.toNat userFsListMax) with
        | .error _ => none
        | .ok (count, _) =>
            if count < 0 then none
            else
              some (frame.arg1.toNat,
                wrap 64 (count.toNat * direntSize))
| .fsRead =>
    match pathOf services kernel frame.arg0.toNat with
    | none => none
    | some path =>
        match Ext2.ext2ReadFile kernel.fs
            (some (cString path)) kernel.fsReadBuffer
            (min frame.arg2.toNat userFsReadMax)
            frame.arg3.toNat with
        | .error _ => none
        | .ok (copied, _) =>
            if copied < 0 then none
            else some (frame.arg1.toNat, wrap 64 copied.toNat)
| .fsGetcwd =>
    if (currentCwd services kernel.machine.rest).length + 1 >
        frame.arg1.toNat then none
    else
      some (frame.arg0.toNat,
        (currentCwd services kernel.machine.rest).length + 1)
| .fsWrite =>
    match pathOf services kernel frame.arg0.toNat with
    | none => none
    | some _ =>
        some (frame.arg1.toNat,
          min frame.arg2.toNat userFsReadMax)
| _ => none

/- Some byte of a buffer lies outside the user range. -/
def BufferOut
    (address len : Nat) : Prop :=
  ∃ i, i < len ∧ ¬ InUser (wrap 64 (address + i))

/- A call needs bytes outside the user range. -/
def NeedsOutside
    (frame : SyscallFrame)
    (kernel : Kernel κ)
    (call : Call) : Prop :=
  (∃ address, pathArgument frame call = some address ∧
      PathOut kernel address) ∨
    ∃ address len,
      bufferArgument services frame kernel call =
          some (address, len) ∧
        BufferOut address len

/-
  The call returned an error, and hidden memory and the file
  system are as before.
-/
structure Refused
    (kernel : Kernel κ)
    (reply : Reply)
    (final : Kernel κ) : Prop where
  reply : ∃ error : Int, reply = .value error ∧ error < 0
  fs : final.fs = kernel.fs
  memory :
    ∀ physical, Hidden kernel physical →
      final.machine.memory physical =
        kernel.machine.memory physical

/- Only user addresses were touched. -/
def Inside
    (kernel final : Kernel κ) : Prop :=
  ∃ log, final.touched = kernel.touched ++ log ∧
    ∀ v ∈ log, InUser v

/- The file system after a function of it has run. -/
def fsAfter
    (fs : Ext2.State)
    (program : Ext2.Ext2M Int) : Ext2.State :=
  match program.run fs with
  | .ok (_, fs') => fs'
  | .error _ => fs

/- A buffer that is mapped as a whole. -/
def Kernel.MappedBuffer
    (kernel : Kernel κ)
    (address len : Nat) : Prop :=
  ∀ i, i < len →
    (kernel.translate (wrap 64 (address + i))).isSome

instance
    (kernel : Kernel κ)
    (address len : Nat) :
    Decidable (kernel.MappedBuffer address len) :=
  inferInstanceAs (Decidable (∀ i, i < len → _))

/- What `SYSCALL_FS_WRITE` does to the file system. -/
def writeEffect
    (frame : SyscallFrame)
    (kernel : Kernel κ)
    (path : List UInt8) : Ext2.State :=
  let len := min frame.arg2.toNat userFsReadMax
  if kernel.MappedBuffer frame.arg1.toNat len then
    fsAfter kernel.fs
      (Ext2.ext2WriteFile (some (cString path))
        (some
          (write kernel.fsReadBuffer 0 len
            (kernel.userBytes frame.arg1.toNat)))
        len frame.arg3.toNat)
  else
    kernel.fs

/- What a call with a path does to the file system. -/
def pathEffect
    (frame : SyscallFrame)
    (kernel : Kernel κ)
    (path : List UInt8) : Call → Ext2.State
| .fsWrite => writeEffect frame kernel path
| .fsCreate =>
    fsAfter kernel.fs
      (Ext2.ext2CreateFile (some (cString path)))
| .fsMkdir =>
    fsAfter kernel.fs (Ext2.ext2Mkdir (some (cString path)))
| .fsUnlink =>
    fsAfter kernel.fs (Ext2.ext2Unlink (some (cString path)))
| .fsRmdir =>
    fsAfter kernel.fs (Ext2.ext2Rmdir (some (cString path)))
| .fsTruncate =>
    fsAfter kernel.fs
      (Ext2.ext2TruncateFile (some (cString path))
        frame.arg1.toNat)
| _ => kernel.fs

/- What a call does to the file system. -/
def effect
    (frame : SyscallFrame)
    (kernel : Kernel κ)
    (call : Call) : Ext2.State :=
  match pathArgument frame call with
  | none => kernel.fs
  | some address =>
      match pathOf services kernel address with
      | none => kernel.fs
      | some path => pathEffect frame kernel path call

/- The outcome of a call that keeps to the user range. -/
structure Outcome
    (frame : SyscallFrame)
    (kernel : Kernel κ)
    (call : Call)
    (reply : Reply)
    (final : Kernel κ) : Prop where
  inside : Inside kernel final
  fs : final.fs = effect services frame kernel call
  refused :
    NeedsOutside services frame kernel call →
      Refused kernel reply final

theorem bufferOut_iff
    {address len : Nat}
    (hAddress : address < 2 ^ 64)
    (hLen : len < 2 ^ 64)
    (hPos : 0 < len) :
    BufferOut address len ↔
      userspaceRangeIsValid address len = false := by
  rw [← Bool.not_eq_true,
    userspaceRangeIsValid_iff hAddress hLen]
  unfold BufferOut InUser userspaceMinVaddr
    userspaceMaxVaddr wrap
  constructor
  · rintro ⟨i, hi, hOutside⟩ hValid
    omega
  · intro hInvalid
    by_cases hFirst :
        4096 ≤ address ∧ address ≤ 140737488355327
    · exact ⟨140737488355328 - address, by omega, by omega⟩
    · exact ⟨0, hPos, by omega⟩

end Syscall

end Whirliscope

------------------------------------------------------------
-- Calls Without a Path
------------------------------------------------------------

namespace Whirliscope

namespace Syscall

open ByteMemory FaultProgram Vmm
open Ext2 (userErrFault userErrInval)

variable {κ : Type} (services : Services κ)

section

variable {frame : SyscallFrame}
variable {kernel : Kernel κ}
variable {call : Call}

theorem Harmless.of_rest
    (kernel : Kernel κ)
    (rest : κ) :
    Harmless kernel
      { kernel with
        machine := { kernel.machine with rest := rest } } :=
  ⟨⟨[], by simp⟩, rfl, rfl, fun _ _ => rfl⟩

/- A call without pointers. -/
theorem Outcome.of_silent
    {reply : Reply}
    {final : Kernel κ}
    (hPath : pathArgument frame call = none)
    (hBuffer :
      bufferArgument services frame kernel call = none)
    (hFs : final.fs = kernel.fs)
    (hTouched : final.touched = kernel.touched) :
    Outcome services frame kernel call reply final where
  inside := ⟨[], by simp [hTouched]⟩
  fs := by simp [effect, hPath, hFs]
  refused := by
    intro hOutside
    simp [NeedsOutside, hPath, hBuffer] at hOutside

/- A call whose only pointer is a buffer. -/
theorem Outcome.of_buffer
    {reply : Reply}
    {final : Kernel κ}
    {address len : Nat}
    (hPath : pathArgument frame call = none)
    (hBuffer :
      bufferArgument services frame kernel call =
        some (address, len))
    (hHarmless : Harmless kernel final)
    (hRefused :
      BufferOut address len → reply = .value userErrFault) :
    Outcome services frame kernel call reply final where
  inside := hHarmless.touched
  fs := by simp [effect, hPath, hHarmless.fs]
  refused := by
    intro hOutside
    simp only [NeedsOutside, hPath, hBuffer, reduceCtorEq,
      false_and, exists_false, false_or, Option.some.injEq,
      Prod.mk.injEq] at hOutside
    rcases hOutside with ⟨_, _, ⟨rfl, rfl⟩, hOut⟩
    exact ⟨⟨userErrFault, hRefused hOut, by decide⟩,
      hHarmless.fs, hHarmless.memory⟩

theorem ensures_reportBuffer
    (kernel : Kernel κ)
    {address len : Nat}
    (source : Bytes)
    (result : Int)
    (hAddress : address < 2 ^ 64)
    (hLen : len < 2 ^ 64) :
    Ensures (fun _ => False)
      (reportBuffer address source len result) kernel
      fun reply final =>
        Harmless kernel final ∧
          (BufferOut address len →
            reply = .value userErrFault) := by
  unfold reportBuffer
  rw [ensures_bind_iff]
  apply (ensures_copyToUser kernel source hAddress hLen).mono
  rintro copied final ⟨hHarmless, hRefuses⟩
  have hFails : BufferOut address len → copied = false := by
    intro hOut
    have hPos : 0 < len := by
      rcases hOut with ⟨i, hi, -⟩
      omega
    exact (hRefuses hPos
      ((bufferOut_iff hAddress hLen hPos).mp hOut)).1
  cases copied with
  | false =>
      simp only [Bool.false_eq_true, if_false,
        ensures_pure_iff]
      exact ⟨hHarmless, fun _ => trivial⟩
  | true =>
      simp only [if_true, ensures_pure_iff]
      exact ⟨hHarmless, fun hOut =>
        absurd (hFails hOut) (by simp)⟩

theorem ensures_report
    {address len : Nat}
    (hPath : pathArgument frame call = none)
    (hBuffer :
      bufferArgument services frame kernel call =
        some (address, len))
    (source : Bytes)
    (result : Int)
    (hAddress : address < 2 ^ 64)
    (hLen : len < 2 ^ 64) :
    Ensures (fun _ => False)
      (reportBuffer address source len result) kernel
      (Outcome services frame kernel call) := by
  apply (ensures_reportBuffer kernel source result hAddress
    hLen).mono
  rintro reply final ⟨hHarmless, hRefused⟩
  exact .of_buffer services hPath hBuffer hHarmless hRefused

/- A call that reports a structure of a fixed size. -/
theorem ensures_struct
    {address : Nat}
    (len : Nat)
    {bytes : List UInt8}
    (hPath : pathArgument frame call = none)
    (hBuffer :
      bufferArgument services frame kernel call =
        some (address, len))
    (hLength : bytes.length = len)
    (result : Int)
    (hAddress : address < 2 ^ 64)
    (hLen : len < 2 ^ 64) :
    Ensures (fun _ => False)
      (reportBytes address bytes result) kernel
      (Outcome services frame kernel call) := by
  unfold reportBytes
  rw [hLength]
  exact ensures_report services hPath hBuffer _ result
    hAddress hLen

/- One pass of `write_user_string`. -/
theorem ensures_writeStringVisit
    {state : Kernel κ}
    {address len written fuel : Nat}
    (hInside : ∀ i, i < len → InUser (wrap 64 (address + i)))
    (hHarmless : Harmless kernel state)
    (hWritten : written ≤ len)
    (hFuel : len < written + (fuel + 1)) :
    Ensures (fun _ => False)
      (writeStringVisit services address len written) state
      (Continues
        (fun next final =>
          next ≤ len ∧ len < next + fuel ∧
            Harmless kernel final)
        (fun _ final => Harmless kernel final)) := by
  unfold writeStringVisit
  by_cases hMore : written < len
  · rw [if_pos hMore]
    simp only [ensures_bind_iff]
    apply (ensures_readUserBytes state _ zeros _).mono
    rintro ⟨readable, buffer⟩ middle ⟨m, hLe, rfl, -⟩
    have hChunk :
        0 < min (len - written) userWriteChunk := by
      unfold userWriteChunk
      omega
    have hLooked :
        Looked state
          (state.withTouched
            (state.touched ++
              addresses (wrap 64 (address + written)) m)) := by
      refine ⟨_, rfl, ?_⟩
      intro v hv
      rcases mem_addresses_iff.mp hv with ⟨i, hi, rfl⟩
      have hSame :
          wrap 64 (wrap 64 (address + written) + i) =
            wrap 64 (address + (written + i)) := by
        unfold wrap
        omega
      rw [hSame]
      exact hInside (written + i) (by omega)
    have hNext := hHarmless.trans hLooked.harmless
    cases readable with
    | false =>
        simp only [Bool.not_false, if_true, ensures_pure_iff,
          continues_inr]
        exact hNext
    | true =>
        simp only [Bool.not_true, Bool.false_eq_true,
          if_false, ensures_bind_iff, modifyRest,
          ensures_modify_iff, ensures_pure_iff,
          continues_inl]
        exact ⟨by omega, by omega,
          hNext.trans (Harmless.of_rest _ _)⟩
  · rw [if_neg hMore]
    simp only [ensures_pure_iff, continues_inr]
    exact hHarmless

theorem ensures_writeUserString
    {address len : Nat}
    (hPath : pathArgument frame call = none)
    (hBuffer :
      bufferArgument services frame kernel call =
        some (address, len))
    (hAddress : address < 2 ^ 64)
    (hLen : len < 2 ^ 64) :
    Ensures (fun _ => False)
      (writeUserString services address len) kernel
      (Outcome services frame kernel call) := by
  unfold writeUserString
  by_cases hEmpty : len = 0
  · rw [if_pos hEmpty, ensures_pure_iff]
    apply Outcome.of_buffer services hPath hBuffer
      (Harmless.refl kernel)
    rintro ⟨i, hi, -⟩
    omega
  · rw [if_neg hEmpty]
    have hPos : 0 < len := Nat.pos_of_ne_zero hEmpty
    cases hValid : userspaceRangeIsValid address len with
    | false =>
        simp only [Bool.not_false, if_true, ensures_pure_iff]
        exact .of_buffer services hPath hBuffer
          (Harmless.refl kernel) fun _ => rfl
    | true =>
        simp only [Bool.not_true, Bool.false_eq_true,
          if_false]
        have hLoop :
            Ensures (fun _ => False)
              (loop (pure (.value userErrFault))
                (writeStringVisit services address len)
                (len + 1) 0) kernel
              fun _ final => Harmless kernel final := by
          apply ensures_loop
            (fun fuel written state =>
              written ≤ len ∧ len < written + fuel ∧
                Harmless kernel state)
          · rintro written state ⟨hLe, hFuel, -⟩
            omega
          · rintro fuel written state
              ⟨hLe, hFuel, hHarmless⟩
            exact ensures_writeStringVisit services
              (fun i hi =>
                inUser_of_valid hAddress hLen hValid hi)
              hHarmless hLe hFuel
          · exact ⟨Nat.zero_le _, by omega,
              Harmless.refl kernel⟩
        apply hLoop.mono
        intro reply final hHarmless
        apply Outcome.of_buffer services hPath hBuffer
          hHarmless
        intro hOut
        rw [bufferOut_iff hAddress hLen hPos, hValid] at hOut
        exact absurd hOut (by simp)

end

end Syscall

end Whirliscope

------------------------------------------------------------
-- Calls With a Path
------------------------------------------------------------

namespace Whirliscope

namespace Syscall

open ByteMemory FaultProgram Vmm
open Ext2 (userErrFault userErrInval)

variable {κ : Type} (services : Services κ)

section

variable {frame : SyscallFrame}
variable {kernel : Kernel κ}
variable {call : Call}

/- The outcome of the body of a call with a path. -/
structure BodyOutcome
    (frame : SyscallFrame)
    (kernel : Kernel κ)
    (call : Call)
    (path : List UInt8)
    (reply : Reply)
    (final : Kernel κ) : Prop where
  inside : Inside kernel final
  fs : final.fs = pathEffect frame kernel path call
  refused :
    ∀ address len,
      bufferArgument services frame kernel call =
          some (address, len) →
        BufferOut address len →
          Refused kernel reply final

/- The parts of an outcome that a harmless body gives. -/
theorem BodyOutcome.of_harmless
    {path : List UInt8}
    {reply : Reply}
    {final : Kernel κ}
    (hHarmless : Harmless kernel final)
    (hEffect : pathEffect frame kernel path call = kernel.fs)
    (hRefused :
      ∀ address len,
        bufferArgument services frame kernel call =
            some (address, len) →
          BufferOut address len →
            reply = .value userErrFault) :
    BodyOutcome services frame kernel call path reply
      final where
  inside := hHarmless.touched
  fs := by rw [hHarmless.fs, hEffect]
  refused := by
    intro address len hBuffer hOut
    exact ⟨⟨userErrFault, hRefused address len hBuffer hOut,
      by decide⟩, hHarmless.fs, hHarmless.memory⟩

theorem ensures_withPath_outcome
    {address : Nat}
    {body : List UInt8 → KernelM κ Reply}
    (hPath : pathArgument frame call = some address)
    (hNoPath :
      pathOf services kernel address = none →
        bufferArgument services frame kernel call = none)
    (hBody :
      ∀ path middle, Looked kernel middle →
        pathOf services kernel address = some path →
          Ensures (fun _ => False) (body path) middle
            (BodyOutcome services frame kernel call path)) :
    Ensures (fun _ => False) (withPath services address body)
      kernel (Outcome services frame kernel call) := by
  apply ensures_withPath
  · intro final hLooked hNone
    have hHarmless := hLooked.harmless
    refine ⟨hHarmless.touched, ?_, ?_⟩
    · simp [effect, hPath, hNone, hHarmless.fs]
    · intro _
      exact ⟨⟨userErrFault, rfl, by decide⟩, hHarmless.fs,
        hHarmless.memory⟩
  · intro path middle hLooked hSome
    apply (hBody path middle hLooked hSome).mono
    intro reply final hOutcome
    refine ⟨hOutcome.inside, ?_, ?_⟩
    · simp [effect, hPath, hSome, hOutcome.fs]
    · rintro (⟨a, hArgument, hOut⟩ | ⟨a, len, hBuffer, hOut⟩)
      · rw [hPath, Option.some.injEq] at hArgument
        subst hArgument
        rw [pathOf_of_pathOut services hOut] at hSome
        cases hSome
      · exact hOutcome.refused a len hBuffer hOut

/- Running a function of the file system. -/
theorem ensures_runFs
    (kernel : Kernel κ)
    (program : Ext2.Ext2M Int) :
    Ensures (fun _ => False) (runFs program) kernel
      fun _ final =>
        final.touched = kernel.touched ∧
          final.fs = fsAfter kernel.fs program := by
  unfold runFs fsAfter
  rw [ensures_bind_iff, ensures_get_iff]
  cases program.run kernel.fs with
  | error cause =>
      rw [ensures_pure_iff]
      exact ⟨rfl, rfl⟩
  | ok result =>
      simp only [ensures_bind_iff, ensures_set_iff,
        ensures_pure_iff]
      exact ⟨trivial, trivial⟩

/- A call that runs a function of the file system. -/
theorem ensures_pathFs
    (hPath :
      pathArgument frame call = some frame.arg0.toNat)
    (hBuffer :
      bufferArgument services frame kernel call = none)
    {program : List UInt8 → Ext2.Ext2M Int}
    (hEffect :
      ∀ path, pathEffect frame kernel path call =
        fsAfter kernel.fs (program path)) :
    Ensures (fun _ => False)
      (withPath services frame.arg0.toNat fun path =>
        runFs (program path))
      kernel (Outcome services frame kernel call) := by
  apply ensures_withPath_outcome services hPath
    (fun _ => hBuffer)
  intro path middle hLooked _
  apply (ensures_runFs middle (program path)).mono
  rintro reply final ⟨hTouched, hFs⟩
  refine ⟨?_, ?_, ?_⟩
  · rcases hLooked with ⟨log, rfl, hLog⟩
    exact ⟨log, hTouched, hLog⟩
  · rw [hFs, hLooked.harmless.fs, hEffect]
  · intro address len hSome
    rw [hBuffer] at hSome
    cases hSome

theorem ensures_syscallFsList :
    Ensures (fun _ => False)
      (withPath services frame.arg0.toNat
        (syscallFsList frame.arg1.toNat frame.arg2.toNat))
      kernel (Outcome services frame kernel .fsList) := by
  apply ensures_withPath_outcome services rfl
  · intro hNone
    simp [bufferArgument, hNone]
  · intro path middle hLooked hSome
    have hFs := hLooked.harmless.fs
    unfold syscallFsList
    rw [ensures_bind_iff, ensures_get_iff, hFs]
    cases hList :
        Ext2.ext2ListDir kernel.fs (some (cString path))
          (min frame.arg2.toNat userFsListMax) with
    | error cause =>
        rw [ensures_pure_iff]
        apply BodyOutcome.of_harmless services
          hLooked.harmless rfl
        intro address len hBuffer
        simp [bufferArgument, hSome, hList] at hBuffer
    | ok result =>
        rcases result with ⟨count, entries⟩
        simp only
        split_ifs with hNegative
        · rw [ensures_pure_iff]
          apply BodyOutcome.of_harmless services
            hLooked.harmless rfl
          intro address len hBuffer
          simp [bufferArgument, hSome, hList, hNegative]
            at hBuffer
        · apply (ensures_reportBuffer middle _ count
            frame.arg1.toNat_lt (wrap_lt 64 _)).mono
          rintro reply final ⟨hHarmless, hRefused⟩
          apply BodyOutcome.of_harmless services
            (hLooked.harmless.trans hHarmless) rfl
          intro address len hBuffer hOut
          simp only [bufferArgument, hSome, hList, hNegative,
            if_false, Option.some.injEq, Prod.mk.injEq]
            at hBuffer
          rcases hBuffer with ⟨rfl, rfl⟩
          exact hRefused hOut

theorem ensures_syscallFsRead :
    Ensures (fun _ => False)
      (withPath services frame.arg0.toNat
        (syscallFsRead frame.arg1.toNat frame.arg2.toNat
          frame.arg3.toNat))
      kernel (Outcome services frame kernel .fsRead) := by
  apply ensures_withPath_outcome services rfl
  · intro hNone
    simp [bufferArgument, hNone]
  · intro path middle hLooked hSome
    have hFs := hLooked.harmless.fs
    have hBufferSame :
        middle.fsReadBuffer = kernel.fsReadBuffer := by
      rcases hLooked with ⟨log, rfl, -⟩
      rfl
    unfold syscallFsRead
    rw [ensures_bind_iff, ensures_get_iff, hFs, hBufferSame]
    cases hRead :
        Ext2.ext2ReadFile kernel.fs (some (cString path))
          kernel.fsReadBuffer
          (min frame.arg2.toNat userFsReadMax)
          frame.arg3.toNat with
    | error cause =>
        rw [ensures_pure_iff]
        apply BodyOutcome.of_harmless services
          hLooked.harmless rfl
        intro address len hBuffer
        simp [bufferArgument, hSome, hRead] at hBuffer
    | ok result =>
        rcases result with ⟨copied, buffer⟩
        have hStored :
            Harmless middle
              { middle with
                fs := kernel.fs
                fsReadBuffer := buffer } :=
          ⟨⟨[], by simp⟩, hFs.symm, rfl, fun _ _ => rfl⟩
        have hBoth := hLooked.harmless.trans hStored
        simp only [ensures_bind_iff, ensures_set_iff]
        split_ifs with hNegative
        · rw [ensures_pure_iff]
          apply BodyOutcome.of_harmless services hBoth rfl
          intro address len hBuffer
          simp [bufferArgument, hSome, hRead, hNegative]
            at hBuffer
        · apply (ensures_reportBuffer _ buffer copied
            frame.arg1.toNat_lt (wrap_lt 64 _)).mono
          rintro reply final ⟨hHarmless, hRefused⟩
          apply BodyOutcome.of_harmless services
            (hBoth.trans hHarmless) rfl
          intro address len hBuffer hOut
          simp only [bufferArgument, hSome, hRead, hNegative,
            if_false, Option.some.injEq, Prod.mk.injEq]
            at hBuffer
          rcases hBuffer with ⟨rfl, rfl⟩
          exact hRefused hOut

theorem ensures_syscallFsChdir :
    Ensures (fun _ => False)
      (withPath services frame.arg0.toNat
        (syscallFsChdir services))
      kernel (Outcome services frame kernel .fsChdir) := by
  apply ensures_withPath_outcome services rfl (fun _ => rfl)
  intro path middle hLooked _
  have hDone :
      ∀ (reply : Reply) (final : Kernel κ),
        Harmless middle final →
          BodyOutcome services frame kernel .fsChdir path
            reply final := by
    intro reply final hHarmless
    apply BodyOutcome.of_harmless services
      (hLooked.harmless.trans hHarmless) rfl
    intro address len hBuffer
    cases hBuffer
  unfold syscallFsChdir
  rw [ensures_bind_iff, ensures_get_iff]
  cases Ext2.ext2Stat middle.fs (some (cString path)) with
  | error cause =>
      rw [ensures_pure_iff]
      exact hDone _ _ (Harmless.refl middle)
  | ok result =>
      simp only
      split_ifs with hBad
      · rw [ensures_pure_iff]
        exact hDone _ _ (Harmless.refl middle)
      · simp only [runRest, getRest, modifyRest,
          ensures_bind_iff, ensures_get_iff,
          ensures_modify_iff, ensures_pure_iff]
        split_ifs
        · rw [ensures_pure_iff]
          exact hDone _ _ (Harmless.of_rest _ _)
        · rw [ensures_pure_iff]
          exact hDone _ _ (Harmless.of_rest _ _)

/- A service changes the machine, or stops. -/
theorem ensures_runMachine
    {α : Type}
    {service : MachineM κ α}
    {next : α → KernelM κ Reply}
    {current : Kernel κ}
    {post : Reply → Kernel κ → Prop}
    (hStop : ∀ cause, post (.stopped cause) current)
    (hNext :
      ∀ result machine,
        Ensures (fun _ => False) (next result)
          { current with machine := machine } post) :
    Ensures (fun _ => False) (runMachine service next)
      current post := by
  unfold runMachine
  rw [ensures_bind_iff, ensures_get_iff]
  split
  · rw [ensures_bind_iff, ensures_set_iff]
    exact hNext _ _
  · rw [ensures_pure_iff]
    exact hStop _

theorem ensures_syscallAppRunPath :
    Ensures (fun _ => False)
      (withPath services frame.arg0.toNat
        (syscallAppRunPath services frame))
      kernel (Outcome services frame kernel .appRunPath) := by
  apply ensures_withPath_outcome services rfl (fun _ => rfl)
  intro path middle hLooked _
  have hDone :
      ∀ (reply : Reply) (machine : Machine κ),
        BodyOutcome services frame kernel .appRunPath path
          reply { middle with machine := machine } := by
    intro reply machine
    refine ⟨hLooked.harmless.touched, hLooked.harmless.fs, ?_⟩
    intro address len hBuffer
    cases hBuffer
  unfold syscallAppRunPath
  simp only [getRest, ensures_bind_iff, ensures_get_iff,
    ensures_pure_iff]
  apply ensures_runMachine
  · exact fun cause => hDone _ middle.machine
  · intro created machine
    cases created with
    | none =>
        rw [ensures_pure_iff]
        exact hDone _ _
    | some process =>
        apply ensures_runMachine
        · exact fun cause => hDone _ machine
        · intro _ machine'
          rw [ensures_pure_iff]
          exact hDone _ _

end

end Syscall

end Whirliscope

------------------------------------------------------------
-- Writing Files
------------------------------------------------------------

namespace Whirliscope

namespace Syscall

open ByteMemory FaultProgram Vmm
open Ext2 (userErrFault userErrInval)

variable {κ : Type} (services : Services κ)

/-
  A write of a file reads no byte outside the user range:
  each such byte of the buffer has an unmapped byte before it
  or is unmapped.
-/
def Guarded
    (frame : SyscallFrame)
    (kernel : Kernel κ) : Prop :=
  callOf frame.number.toNat = some .fsWrite →
    (pathOf services kernel frame.arg0.toNat).isSome →
      ∀ i, i < min frame.arg2.toNat userFsReadMax →
        ¬ InUser (wrap 64 (frame.arg1.toNat + i)) →
          ∃ j, j ≤ i ∧
            kernel.translate
              (wrap 64 (frame.arg1.toNat + j)) = none

section

variable {frame : SyscallFrame}
variable {kernel : Kernel κ}

/- The addresses that `SYSCALL_FS_WRITE` reads. -/
theorem ensures_syscallFsWrite
    {path : List UInt8}
    {middle : Kernel κ}
    (hLooked : Looked kernel middle) :
    Ensures (fun _ => False)
      (syscallFsWrite frame.arg1.toNat frame.arg2.toNat
        frame.arg3.toNat path) middle
      fun reply final =>
        ∃ m, m ≤ min frame.arg2.toNat userFsReadMax ∧
          final.touched =
            middle.touched ++
              addresses frame.arg1.toNat m ∧
          final.fs = writeEffect frame kernel path ∧
          (∀ i, i < m →
            (kernel.translate
              (wrap 64 (frame.arg1.toNat + i))).isSome) ∧
          (m < min frame.arg2.toNat userFsReadMax →
            kernel.translate
                (wrap 64 (frame.arg1.toNat + m)) = none ∧
              reply = .value userErrFault ∧
              final.machine.memory =
                kernel.machine.memory) := by
  rcases hLooked with ⟨log, rfl, hLog⟩
  unfold syscallFsWrite
  rw [ensures_bind_iff, ensures_get_iff, ensures_bind_iff]
  apply (ensures_readUserBytes _ _ _ _).mono
  rintro ⟨readable, buffer⟩ next
    ⟨m, hLe, rfl, hOk, hBuffer, hMapped, hStop⟩
  simp only at hOk hBuffer
  simp only [ensures_bind_iff, ensures_modify_iff]
  by_cases hWhole :
      m = min frame.arg2.toNat userFsReadMax
  · rw [hOk, decide_eq_true hWhole]
    simp only [Bool.not_true, Bool.false_eq_true, if_false]
    apply (ensures_runFs _ _).mono
    rintro reply final ⟨hTouched, hFs⟩
    refine ⟨m, hLe, hTouched, ?_, hMapped, ?_⟩
    · have hAll :
          kernel.MappedBuffer frame.arg1.toNat
            (min frame.arg2.toNat userFsReadMax) := by
        intro i hi
        exact hMapped i (by omega)
      rw [hFs, writeEffect, if_pos hAll, hBuffer, hWhole]
      rfl
    · intro hLess
      omega
  · rw [hOk, decide_eq_false hWhole]
    simp only [Bool.not_false, if_true, ensures_pure_iff]
    refine ⟨m, hLe, rfl, ?_, hMapped, ?_⟩
    · have hNot :
          ¬ kernel.MappedBuffer frame.arg1.toNat
            (min frame.arg2.toNat userFsReadMax) := by
        intro hAll
        have hSome := hAll m (by omega)
        have hNone := hStop (by omega)
        change kernel.translate _ = none at hNone
        rw [hNone] at hSome
        cases hSome
      rw [writeEffect, if_neg hNot]
      rfl
    · intro hLess
      exact ⟨hStop hLess, trivial, rfl⟩

theorem ensures_guardedWrite
    (hCall : callOf frame.number.toNat = some .fsWrite)
    (hGuarded : Guarded services frame kernel) :
    Ensures (fun _ => False)
      (withPath services frame.arg0.toNat
        (syscallFsWrite frame.arg1.toNat frame.arg2.toNat
          frame.arg3.toNat))
      kernel (Outcome services frame kernel .fsWrite) := by
  apply ensures_withPath_outcome services rfl
  · intro hNone
    simp [bufferArgument, hNone]
  · intro path middle hLooked hSome
    have hSafe := hGuarded hCall (by simp [hSome])
    apply (ensures_syscallFsWrite hLooked).mono
    rintro reply final
      ⟨m, hLe, hTouched, hFs, hMapped, hStop⟩
    have hInside :
        ∀ i, i < m →
          InUser (wrap 64 (frame.arg1.toNat + i)) := by
      intro i hi
      by_contra hOutside
      rcases hSafe i (by omega) hOutside with
        ⟨j, hj, hNone⟩
      have hIsSome := hMapped j (by omega)
      rw [hNone] at hIsSome
      cases hIsSome
    refine ⟨?_, hFs, ?_⟩
    · rcases hLooked with ⟨log, rfl, hLog⟩
      refine ⟨log ++ addresses frame.arg1.toNat m, ?_, ?_⟩
      · rw [hTouched]
        simp [Kernel.withTouched]
      · intro v hv
        rcases List.mem_append.mp hv with hOld | hNew
        · exact hLog v hOld
        · rcases mem_addresses_iff.mp hNew with ⟨i, hi, rfl⟩
          exact hInside i hi
    · intro address len hBuffer hOut
      simp only [bufferArgument, hSome, Option.some.injEq,
        Prod.mk.injEq] at hBuffer
      rcases hBuffer with ⟨rfl, rfl⟩
      rcases hOut with ⟨i, hi, hOutside⟩
      have hLess :
          m < min frame.arg2.toNat userFsReadMax := by
        by_contra hNot
        exact hOutside (hInside i (by omega))
      rcases hStop hLess with ⟨hNone, hReply, hMemory⟩
      refine ⟨⟨userErrFault, hReply, by decide⟩, ?_, ?_⟩
      · have hPartial :
            ¬ kernel.MappedBuffer frame.arg1.toNat
              (min frame.arg2.toNat userFsReadMax) := by
          intro hAll
          have hIsSome := hAll m hLess
          rw [hNone] at hIsSome
          cases hIsSome
        rw [hFs, writeEffect, if_neg hPartial]
      · intro physical _
        rw [hMemory]

end

end Syscall

end Whirliscope

------------------------------------------------------------
-- Confinement
------------------------------------------------------------

namespace Whirliscope

namespace Syscall

open ByteMemory FaultProgram Vmm
open Ext2 (userErrFault userErrInval)

variable {κ : Type} (services : Services κ)

section

variable {frame : SyscallFrame}
variable {kernel : Kernel κ}

/- Every known call keeps to the user range. -/
theorem ensures_dispatchCall
    {call : Call}
    (hCall : callOf frame.number.toNat = some call)
    (hGuarded : Guarded services frame kernel) :
    Ensures (fun _ => False) (dispatchCall services frame call)
      kernel (Outcome services frame kernel call) := by
  have hArg0 := frame.arg0.toNat_lt
  have hArg1 := frame.arg1.toNat_lt
  cases call with
  | debugPutchar =>
      simp only [dispatchCall, modifyRest, ensures_bind_iff,
        ensures_modify_iff, ensures_pure_iff]
      exact .of_silent services rfl rfl rfl rfl
  | exit =>
      simp only [dispatchCall, syscallExit, modifyRest,
        ensures_bind_iff, ensures_modify_iff]
      apply ensures_runMachine
      · exact fun _ => .of_silent services rfl rfl rfl rfl
      · intro resumed machine
        cases resumed with
        | some returnFrame =>
            rw [ensures_pure_iff]
            exact .of_silent services rfl rfl rfl rfl
        | none =>
            apply ensures_runMachine
            · exact fun _ =>
                .of_silent services rfl rfl rfl rfl
            · intro _ machine'
              rw [ensures_pure_iff]
              exact .of_silent services rfl rfl rfl rfl
  | readChar =>
      simp only [dispatchCall, runRest, getRest, modifyRest,
        ensures_bind_iff, ensures_get_iff,
        ensures_modify_iff, ensures_pure_iff]
      split
      · rw [ensures_pure_iff]
        exact .of_silent services rfl rfl rfl rfl
      · rw [ensures_pure_iff]
        exact .of_silent services rfl rfl rfl rfl
  | readEvent =>
      simp only [dispatchCall, syscallReadEvent, runRest,
        getRest, modifyRest, ensures_bind_iff,
        ensures_get_iff, ensures_modify_iff,
        ensures_pure_iff]
      split
      · rw [ensures_pure_iff]
        exact .of_silent services rfl rfl rfl rfl
      · rw [ensures_pure_iff]
        exact .of_silent services rfl rfl rfl rfl
  | clear =>
      simp only [dispatchCall, modifyRest, ensures_bind_iff,
        ensures_modify_iff, ensures_pure_iff]
      exact .of_silent services rfl rfl rfl rfl
  | setColor =>
      simp only [dispatchCall, modifyRest, ensures_bind_iff,
        ensures_modify_iff, ensures_pure_iff]
      exact .of_silent services rfl rfl rfl rfl
  | setBackground =>
      simp only [dispatchCall, modifyRest, ensures_bind_iff,
        ensures_modify_iff, ensures_pure_iff]
      exact .of_silent services rfl rfl rfl rfl
  | resetColors =>
      simp only [dispatchCall, modifyRest, ensures_bind_iff,
        ensures_modify_iff, ensures_pure_iff]
      exact .of_silent services rfl rfl rfl rfl
  | memoryStatus =>
      simp only [dispatchCall, getRest, ensures_bind_iff,
        ensures_get_iff, ensures_pure_iff]
      exact ensures_struct services 32 rfl rfl rfl _
        hArg0 (by decide)
  | debugWrite =>
      exact ensures_writeUserString services rfl rfl hArg0
        hArg1
  | userspaceStatus =>
      simp only [dispatchCall, getRest, ensures_bind_iff,
        ensures_get_iff, ensures_pure_iff]
      exact ensures_struct services 144 rfl rfl rfl _
        hArg0 (by decide)
  | sbrk =>
      unfold dispatchCall
      apply ensures_runMachine
      · exact fun _ => .of_silent services rfl rfl rfl rfl
      · intro oldBreak machine
        cases oldBreak with
        | none =>
            rw [ensures_pure_iff]
            exact .of_silent services rfl rfl rfl rfl
        | some oldBreak =>
            rw [ensures_pure_iff]
            exact .of_silent services rfl rfl rfl rfl
  | klogStatus =>
      simp only [dispatchCall, getRest, ensures_bind_iff,
        ensures_get_iff, ensures_pure_iff]
      exact ensures_struct services 32 rfl rfl rfl _
        hArg0 (by decide)
  | klogRead =>
      simp only [dispatchCall, getRest, ensures_bind_iff,
        ensures_get_iff, ensures_pure_iff]
      have hTail :=
        (services.klogCopyTail
          (min frame.arg1.toNat userKlogReadMax)
          kernel.machine.rest).2
      exact ensures_report services rfl rfl _ _ hArg0
        (by omega)
  | timerStatus =>
      simp only [dispatchCall, getRest, ensures_bind_iff,
        ensures_get_iff, ensures_pure_iff]
      exact ensures_struct services 16 rfl rfl rfl _
        hArg0 (by decide)
  | framebufferStatus =>
      simp only [dispatchCall, getRest, ensures_bind_iff,
        ensures_get_iff, ensures_pure_iff]
      exact ensures_struct services 48 rfl rfl rfl _
        hArg0 (by decide)
  | kernelHeapStatus =>
      simp only [dispatchCall, getRest, ensures_bind_iff,
        ensures_get_iff, ensures_pure_iff]
      exact ensures_struct services 32 rfl rfl rfl _
        hArg0 (by decide)
  | appCount | appInfo | appRun =>
      simp only [dispatchCall, ensures_pure_iff]
      exact .of_silent services rfl rfl rfl rfl
  | fsStatus =>
      simp only [dispatchCall, ensures_bind_iff,
        ensures_get_iff]
      cases hStatus : Ext2.ext2GetStatus kernel.fs with
      | error cause =>
          rw [ensures_pure_iff]
          exact .of_silent services rfl
            (by simp [bufferArgument, hStatus]) rfl rfl
      | ok status =>
          exact ensures_report services rfl
            (by simp [bufferArgument, hStatus]) _ _ hArg0
            (by decide)
  | fsList => exact ensures_syscallFsList services
  | fsRead => exact ensures_syscallFsRead services
  | fsGetcwd =>
      simp only [dispatchCall, getRest, ensures_bind_iff,
        ensures_get_iff, ensures_pure_iff]
      split_ifs with hLong
      · rw [ensures_pure_iff]
        exact .of_silent services rfl
          (by simp [bufferArgument, hLong]) rfl rfl
      · apply ensures_report services rfl
          (by simp [bufferArgument, hLong]) _ _ hArg0
        simp only [List.length_append, List.length_singleton]
        omega
  | fsChdir => exact ensures_syscallFsChdir services
  | fsWrite => exact ensures_guardedWrite services hCall hGuarded
  | appRunPath => exact ensures_syscallAppRunPath services
  | fsCreate | fsMkdir | fsUnlink | fsRmdir | fsTruncate =>
      exact ensures_pathFs services rfl rfl fun _ => rfl

/- Two memories that look the same in the user range. -/
def SameInUser
    (kernel : Kernel κ)
    (memory : Bytes) : Prop :=
  ∀ v, InUser v →
    (kernel.withMemory memory).userByte v = kernel.userByte v

/-
  A call touches only user addresses through pointers. When
  it needs other bytes it returns an error and changes
  neither the file system nor hidden memory. Its effect on
  the file system does not depend on hidden memory.
-/
def Confined
    (frame : SyscallFrame)
    (kernel : Kernel κ) : Prop :=
  ∃ reply final,
    Returns (syscallDispatch services (some frame)) kernel
        reply final ∧
      Inside kernel final ∧
      (∀ call, callOf frame.number.toNat = some call →
        NeedsOutside services frame kernel call →
          Refused kernel reply final) ∧
      ∀ memory, SameInUser kernel memory →
        ∃ reply' final',
          Returns (syscallDispatch services (some frame))
              (kernel.withMemory memory) reply' final' ∧
            final'.fs = final.fs

theorem userView_withMemory
    {memory : Bytes}
    (hSame : SameInUser kernel memory) :
    (kernel.withMemory memory).userView = kernel.userView := by
  funext v
  unfold Kernel.userView
  split_ifs with hUser
  · exact hSame v hUser
  · rfl

theorem pathOf_withMemory
    {memory : Bytes}
    (hSame : SameInUser kernel memory)
    (address : Nat) :
    pathOf services (kernel.withMemory memory) address =
      pathOf services kernel address := by
  unfold pathOf
  rw [userView_withMemory hSame]
  rfl

theorem Guarded.withMemory
    {memory : Bytes}
    (hGuarded : Guarded services frame kernel)
    (hSame : SameInUser kernel memory) :
    Guarded services frame (kernel.withMemory memory) := by
  intro hCall hPath
  rw [pathOf_withMemory services hSame] at hPath
  exact hGuarded hCall hPath

/- A guarded write depends on user memory only. -/
theorem writeEffect_withMemory
    {memory : Bytes}
    (hSame : SameInUser kernel memory)
    (hSafe :
      ∀ i, i < min frame.arg2.toNat userFsReadMax →
        ¬ InUser (wrap 64 (frame.arg1.toNat + i)) →
          ∃ j, j ≤ i ∧
            kernel.translate
              (wrap 64 (frame.arg1.toNat + j)) = none)
    (path : List UInt8) :
    writeEffect frame (kernel.withMemory memory) path =
      writeEffect frame kernel path := by
  unfold writeEffect
  by_cases hMapped :
      kernel.MappedBuffer frame.arg1.toNat
        (min frame.arg2.toNat userFsReadMax)
  · have hBytes :
        write kernel.fsReadBuffer 0
            (min frame.arg2.toNat userFsReadMax)
            ((kernel.withMemory memory).userBytes
              frame.arg1.toNat) =
          write kernel.fsReadBuffer 0
            (min frame.arg2.toNat userFsReadMax)
            (kernel.userBytes frame.arg1.toNat) := by
      funext i
      by_cases hi :
          i < min frame.arg2.toNat userFsReadMax
      · have hUser :
            InUser (wrap 64 (frame.arg1.toNat + i)) := by
          by_contra hOutside
          rcases hSafe i hi hOutside with ⟨j, hj, hNone⟩
          have hSome := hMapped j (by omega)
          rw [hNone] at hSome
          cases hSome
        rw [write_of_mem (by omega) (by omega),
          write_of_mem (by omega) (by omega)]
        simp only [Nat.sub_zero, Kernel.userBytes]
        rw [hSame _ hUser]
      · rw [write_of_not_mem (by omega),
          write_of_not_mem (by omega)]
    have hStill :
        (kernel.withMemory memory).MappedBuffer
          frame.arg1.toNat
          (min frame.arg2.toNat userFsReadMax) :=
      hMapped
    rw [if_pos hStill, if_pos hMapped]
    change fsAfter kernel.fs
      (Ext2.ext2WriteFile _
        (some
          (write kernel.fsReadBuffer 0
            (min frame.arg2.toNat userFsReadMax)
            ((kernel.withMemory memory).userBytes
              frame.arg1.toNat))) _ _) = _
    rw [hBytes]
  · have hStill :
        ¬ (kernel.withMemory memory).MappedBuffer
          frame.arg1.toNat
          (min frame.arg2.toNat userFsReadMax) :=
      hMapped
    rw [if_neg hStill, if_neg hMapped]
    rfl

theorem effect_withMemory
    {memory : Bytes}
    {call : Call}
    (hCall : callOf frame.number.toNat = some call)
    (hGuarded : Guarded services frame kernel)
    (hSame : SameInUser kernel memory) :
    effect services frame (kernel.withMemory memory) call =
      effect services frame kernel call := by
  unfold effect
  cases hArgument : pathArgument frame call with
  | none => rfl
  | some address =>
      simp only [pathOf_withMemory services hSame]
      cases hPath : pathOf services kernel address with
      | none => rfl
      | some path =>
          cases call
          case fsWrite =>
            cases hArgument
            exact writeEffect_withMemory hSame
              (hGuarded hCall (by simp [hPath])) path
          all_goals rfl

/- A guarded call is confined. -/
theorem confined_of_guarded
    (hGuarded : Guarded services frame kernel) :
    Confined services frame kernel := by
  cases hCall : callOf frame.number.toNat with
  | none =>
      have hRun :
          ∀ current : Kernel κ,
            Returns (syscallDispatch services (some frame))
              current (.value Ext2.userErrNosys) current := by
        intro current
        unfold syscallDispatch
        simp only [hCall]
        rfl
      refine ⟨_, kernel, hRun kernel, ⟨[], by simp⟩, ?_, ?_⟩
      · intro call hSome
        rw [hCall] at hSome
        cases hSome
      · intro memory _
        exact ⟨_, _, hRun _, rfl⟩
  | some call =>
      have hRun :
          ∀ current, Guarded services frame current →
            ∃ reply final,
              Returns (syscallDispatch services (some frame))
                  current reply final ∧
                Outcome services frame current call reply
                  final := by
        intro current hCurrent
        have hEnsures :=
          ensures_dispatchCall services hCall hCurrent
        unfold syscallDispatch
        simp only [hCall]
        exact hEnsures.exists_returns
      rcases hRun kernel hGuarded with
        ⟨reply, final, hReturns, hOutcome⟩
      refine ⟨reply, final, hReturns, hOutcome.inside, ?_, ?_⟩
      · intro other hOther
        rw [hCall, Option.some.injEq] at hOther
        subst hOther
        exact hOutcome.refused
      · intro memory hSame
        rcases hRun _ (hGuarded.withMemory services hSame)
          with ⟨reply', final', hReturns', hOutcome'⟩
        refine ⟨reply', final', hReturns', ?_⟩
        rw [hOutcome'.fs, hOutcome.fs,
          effect_withMemory services hCall hGuarded hSame]

/- A confined call is guarded. -/
theorem guarded_of_confined
    (hConfined : Confined services frame kernel) :
    Guarded services frame kernel := by
  intro hCall hIsSome i hi hOutside
  by_contra hMapped
  rcases hConfined with
    ⟨reply, final, hReturns, ⟨log, hLog, hUser⟩, -⟩
  rcases Option.isSome_iff_exists.mp hIsSome with
    ⟨path, hPath⟩
  have hTouched :
      Ensures (fun _ => False)
        (syscallDispatch services (some frame)) kernel
        fun _ final =>
          ∃ log', final.touched = kernel.touched ++ log' ∧
            wrap 64 (frame.arg1.toNat + i) ∈ log' := by
    unfold syscallDispatch
    simp only [hCall]
    apply ensures_withPath
    · intro _ _ hNone
      rw [hPath] at hNone
      cases hNone
    · intro path' middle hLooked _
      apply (ensures_syscallFsWrite hLooked).mono
      rintro _ last ⟨m, hLe, hTouched, -, -, hStop⟩
      have hRead : i < m := by
        by_contra hNot
        exact hMapped
          ⟨m, by omega, (hStop (by omega)).1⟩
      rcases hLooked with ⟨looked, rfl, -⟩
      refine ⟨looked ++ addresses frame.arg1.toNat m, ?_, ?_⟩
      · rw [hTouched]
        simp [Kernel.withTouched]
      · exact List.mem_append_right _
          (mem_addresses_iff.mpr ⟨i, hRead, rfl⟩)
  rcases hTouched.of_returns hReturns with
    ⟨log', hLog', hMem⟩
  rw [hLog, List.append_cancel_left_eq] at hLog'
  exact hOutside (hUser _ (hLog' ▸ hMem))

/-
  A call is confined exactly when it does not write a file
  from a buffer that is readable beyond the user range.
-/
theorem confined_iff
    (frame : SyscallFrame)
    (kernel : Kernel κ) :
    Confined services frame kernel ↔
      Guarded services frame kernel :=
  ⟨guarded_of_confined services,
    confined_of_guarded services⟩

end

/- Subsystems that keep no state. -/
def sampleServices : Services Unit where
  consolePutchar := fun _ _ => ()
  consoleWrite := fun _ _ => ()
  consoleClear := fun _ => ()
  consoleSetColor := fun _ _ _ _ => ()
  consoleSetBackground := fun _ _ _ _ => ()
  consoleSetDefaultColors := fun _ => ()
  keyboardReadChar := fun _ => (none, ())
  keyboardReadEvent := fun _ => (none, ())
  pmmGetStats := fun _ => ⟨0, 0, 0⟩
  pmmHhdmOffset := fun _ => 0xffff800000000000
  userspaceGetStatus := fun _ =>
    ⟨true, true, true, true, true, true, 0, 0, 0, 0, 0, 0, 0,
      0, 0, 0, 0, 0, 0⟩
  schedulerCurrentProcess := fun _ => none
  klogSize := fun _ => 0
  klogTotalWritten := fun _ => 0
  klogDropped := fun _ => 0
  klogCopyTail := fun _ _ => ⟨[], Nat.zero_le _⟩
  timerTicks := fun _ => 0
  timerFrequency := fun _ => 0
  framebufferStatus := fun _ => ⟨0, 0, 0, 0, 0, 0⟩
  heapStatus := fun _ => ⟨0, 0, 0, true⟩
  processSetCwd := fun _ _ => (false, ())
  processSbrk := fun _ => pure none
  processCreateFilesystemProcess := fun _ _ _ => pure none
  schedulerRunProcessBlocking := fun _ _ =>
    throw (.panic .noCurrentTask)
  schedulerFinishBlockingExit := fun _ _ => pure none
  schedulerExitCurrent := fun _ => pure ()

/-
  The first gigabyte of memory is mapped at address 0 for the
  user and at the start of the upper half for the kernel. The
  user keeps the path "/a" at 4 MiB.
-/
def sampleKernel : Kernel Unit where
  fs :=
    { fsImage := false
      superblock := none
      image := zeros
      fsSize := 0
      blockSize := 0
      groupCount := 0
      writeback := none
      medium := zeros
      stackBytes := zeros }
  machine :=
    { tables :=
        putLE
          (putLE (putLE zeros 0x1000 8 0x2003) 0x1800 8 0x2003)
          0x2000 8 0x83
      pml4 := 0x1000
      memory := putLE zeros 0x400000 2 0x612f
      rest := () }
  fsReadBuffer := zeros
  touched := []

/- Write one byte from the kernel half to "/a". -/
def sampleWrite : SyscallFrame where
  number := 26
  arg0 := 0x400000
  arg1 := 0xffff800000000000
  arg2 := 1
  arg3 := 0
  arg4 := 0
  arg5 := 0
  rbx := 0
  rcx := 0
  rbp := 0
  r11 := 0
  r12 := 0
  r13 := 0
  r14 := 0
  r15 := 0
  userRip := 0
  userRsp := 0
  rflags := 0

theorem sampleWrite_reads_kernel :
    ¬ Confined sampleServices sampleWrite sampleKernel := by
  intro hConfined
  have hGuarded :=
    guarded_of_confined sampleServices hConfined
  have hPath :
      (pathOf sampleServices sampleKernel
        sampleWrite.arg0.toNat).isSome = true := by
    decide
  rcases hGuarded (by decide) hPath 0 (by decide) (by decide)
    with ⟨j, hj, hNone⟩
  have hZero : j = 0 := Nat.le_zero.mp hj
  subst hZero
  have hMapped :
      (sampleKernel.translate
        (wrap 64 (sampleWrite.arg1.toNat + 0))).isSome =
          true := by
    decide
  rw [hNone] at hMapped
  cases hMapped

end Syscall

end Whirliscope
