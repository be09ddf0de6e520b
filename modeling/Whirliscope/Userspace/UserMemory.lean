import Whirliscope.Userspace.Syscall

/-
  What the copies between the kernel and the user move.

  Main declarations:
    * `ensures_userLoop`
    * `ensures_readUserBytes`, `ensures_copyToUser`
    * `ensures_copyUserString`
    * `ensures_withPath`
-/

------------------------------------------------------------
-- Chunks of User Memory
------------------------------------------------------------

namespace Whirliscope

namespace Syscall

open ByteMemory FaultProgram Vmm

variable {κ : Type}

/- An address of the user range. -/
def InUser
    (address : Nat) : Prop :=
  userspaceMinVaddr ≤ address ∧ address ≤ userspaceMaxVaddr

instance
    (address : Nat) :
    Decidable (InUser address) :=
  inferInstanceAs (Decidable (_ ∧ _))

/- The byte that the current space shows at an address. -/
def Kernel.userByte
    (kernel : Kernel κ)
    (address : Nat) : Option UInt8 :=
  (kernel.translate address).map kernel.machine.memory

def Kernel.withTouched
    (kernel : Kernel κ)
    (touched : List Nat) : Kernel κ :=
  { kernel with touched := touched }

theorem addresses_add
    (address first second : Nat) :
    addresses address (first + second) =
      addresses address first ++
        addresses (address + first) second := by
  simp [addresses, List.range_add, Nat.add_assoc]

theorem mem_addresses_iff
    {address count v : Nat} :
    v ∈ addresses address count ↔
      ∃ i, i < count ∧ wrap 64 (address + i) = v := by
  simp [addresses]

/- The bytes of a page after a mapped one are mapped. -/
theorem translate_chunk
    {kernel : Kernel κ}
    {address physical chunk : Nat}
    (hMapped :
      kernel.translate (wrap 64 address) = some physical)
    (hChunk : chunk ≤ 4096 - physical % 4096)
    {i : Nat}
    (hi : i < chunk) :
    kernel.translate (wrap 64 (address + i)) =
      some (physical + i) := by
  have hOffset :=
    (vmmVirtToPhys_page hMapped rfl).1
  have hWrap :
      wrap 64 (address + i) = wrap 64 address + i := by
    unfold wrap at *
    omega
  have hPage :
      wrap 64 address / 4096 =
        (wrap 64 address + i) / 4096 := by
    omega
  rw [hWrap, Kernel.translate,
    (vmmVirtToPhys_page hMapped hPage).2]
  congr 1
  omega

/-
  The invariant rule for copies. The copy stops at an address
  that is not mapped, or is complete.
-/
theorem ensures_userLoop
    {β : Type}
    {move : β → Nat → Nat → Nat → KernelM κ β}
    {kernel : Kernel κ}
    {address len : Nat}
    (invariant : Nat → β → Kernel κ → Prop)
    (hTranslate :
      ∀ copied data state, invariant copied data state →
        state.translate = kernel.translate)
    (hMove :
      ∀ copied data state physical chunk,
        invariant copied data state →
        copied + chunk ≤ len →
        (∀ i, i < chunk →
          kernel.translate (wrap 64 (address + copied + i)) =
            some (physical + i)) →
          Ensures (fun _ => False)
            (move data copied physical chunk)
            (state.withTouched
              (state.touched ++
                addresses (address + copied) chunk))
            (invariant (copied + chunk)))
    {out : KernelM κ (Bool × β)}
    {data : β}
    (hStart : invariant 0 data kernel) :
    Ensures (fun _ => False)
      (loop out (userVisit move address len) (len + 1)
        (0, data)) kernel
      fun result final =>
        ∃ m, m ≤ len ∧
          invariant m result.2 final ∧
          result.1 = decide (m = len) ∧
          (m < len →
            kernel.translate (wrap 64 (address + m)) =
              none) := by
  apply ensures_loop
    (fun fuel state current =>
      state.1 ≤ len ∧
        len < state.1 + fuel ∧
        invariant state.1 state.2 current)
  · rintro ⟨copied, data⟩ current ⟨hLe, hFuel, -⟩
    omega
  · rintro fuel ⟨copied, data⟩ current
      ⟨hLe, hFuel, hInvariant⟩
    simp only at hLe hFuel hInvariant
    unfold userVisit
    by_cases hMore : copied < len
    · simp only [hMore, if_true, ensures_bind_iff,
        ensures_get_iff, hTranslate _ _ _ hInvariant]
      cases hMapped :
          kernel.translate (wrap 64 (address + copied)) with
      | none =>
          simp only [ensures_pure_iff, continues_inr]
          exact ⟨copied, hLe, hInvariant,
            by simp [Nat.ne_of_lt hMore], fun _ => hMapped⟩
      | some physical =>
          have hOffset :
              physical &&& (vmmPageSize - 1) =
                physical % 4096 :=
            Nat.and_two_pow_sub_one_eq_mod physical 12
          have hRoom : physical % 4096 < 4096 :=
            Nat.mod_lt _ (by decide)
          simp only [hOffset, touch, ensures_bind_iff,
            ensures_modify_iff, ensures_pure_iff]
          generalize hChunk :
            (if len - copied <
                vmmPageSize - physical % 4096 then
              len - copied
            else
              vmmPageSize - physical % 4096) = chunk
          have hBounds :
              0 < chunk ∧ copied + chunk ≤ len ∧
                chunk ≤ 4096 - physical % 4096 := by
            unfold vmmPageSize at hChunk
            split_ifs at hChunk <;> omega
          apply (hMove copied data current physical chunk
            hInvariant hBounds.2.1 fun i hi =>
              translate_chunk hMapped hBounds.2.2 hi).mono
          intro data' final hFinal
          rw [continues_inl]
          exact ⟨hBounds.2.1, by simp only; omega, hFinal⟩
    · simp only [hMore, if_false, ensures_pure_iff,
        continues_inr]
      have hDone : copied = len := by omega
      exact ⟨copied, hLe, hInvariant, by simp [hDone],
        fun hLess => absurd hLess hMore⟩
  · exact ⟨Nat.zero_le _, by simp, hStart⟩

end Syscall

end Whirliscope

------------------------------------------------------------
-- Reading and Writing User Memory
------------------------------------------------------------

namespace Whirliscope

namespace Syscall

open ByteMemory FaultProgram Vmm

variable {κ : Type}

/- The bytes from an address on; unmapped ones are zero. -/
def Kernel.userBytes
    (kernel : Kernel κ)
    (address : Nat) : Bytes :=
  fun i =>
    (kernel.userByte (wrap 64 (address + i))).getD 0

/- `read_user_bytes` copies up to the first unmapped byte. -/
theorem ensures_readUserBytes
    (kernel : Kernel κ)
    (address : Nat)
    (dest : Bytes)
    (len : Nat) :
    Ensures (fun _ => False) (readUserBytes address dest len)
      kernel
      fun result final =>
        ∃ m, m ≤ len ∧
          final =
            kernel.withTouched
              (kernel.touched ++ addresses address m) ∧
          result.1 = decide (m = len) ∧
          result.2 =
            write dest 0 m (kernel.userBytes address) ∧
          (∀ i, i < m →
            (kernel.translate
              (wrap 64 (address + i))).isSome) ∧
          (m < len →
            kernel.translate (wrap 64 (address + m)) =
              none) := by
  unfold readUserBytes
  apply (ensures_userLoop
    (fun copied out state =>
      state =
          kernel.withTouched
            (kernel.touched ++ addresses address copied) ∧
        out =
          write dest 0 copied (kernel.userBytes address) ∧
        ∀ i, i < copied →
          (kernel.translate
            (wrap 64 (address + i))).isSome) ?_ ?_ ?_).mono
  · rintro result final
      ⟨m, hLe, ⟨hFinal, hOut, hMapped⟩, hOk, hStop⟩
    exact ⟨m, hLe, hFinal, hOk, hOut, hMapped, hStop⟩
  · rintro copied out state ⟨rfl, -, -⟩
    rfl
  · rintro copied out state physical chunk ⟨rfl, rfl, hMapped⟩
      hLe hChunk
    simp only [readChunk, ensures_bind_iff, ensures_get_iff,
      ensures_pure_iff]
    refine ⟨?_, ?_, ?_⟩
    · simp [Kernel.withTouched, addresses_add]
    · funext i
      by_cases hOld : i < copied
      · rw [write_of_not_mem (by omega),
          write_of_mem (by omega) (by omega),
          write_of_mem (by omega) (by omega)]
      · by_cases hNew : i < copied + chunk
        · rw [write_of_mem (by omega) (by omega),
            write_of_mem (by omega) (by omega)]
          have hAt := hChunk (i - copied) (by omega)
          rw [Nat.add_assoc,
            Nat.add_sub_cancel' (by omega)] at hAt
          simp [Kernel.userBytes, Kernel.userByte, hAt,
            Kernel.withTouched]
        · rw [write_of_not_mem (by omega),
            write_of_not_mem (by omega),
            write_of_not_mem (by omega)]
    · intro i hi
      by_cases hOld : i < copied
      · exact hMapped i hOld
      · have hAt := hChunk (i - copied) (by omega)
        rw [Nat.add_assoc,
          Nat.add_sub_cancel' (by omega)] at hAt
        simp [hAt]
  · refine ⟨?_, ?_, ?_⟩
    · simp [Kernel.withTouched, addresses]
    · funext i
      rw [write_of_not_mem (by omega)]
    · intro i hi
      omega

/- Memory that the user range does not show. -/
def Hidden
    (kernel : Kernel κ)
    (physical : Nat) : Prop :=
  ∀ v, InUser v → kernel.translate v ≠ some physical

/-
  Only user addresses were touched, and hidden memory and the
  file system are as before.
-/
structure Harmless
    (kernel final : Kernel κ) : Prop where
  touched :
    ∃ log, final.touched = kernel.touched ++ log ∧
      ∀ v ∈ log, InUser v
  fs : final.fs = kernel.fs
  translate : final.translate = kernel.translate
  memory :
    ∀ physical, Hidden kernel physical →
      final.machine.memory physical =
        kernel.machine.memory physical

theorem Harmless.refl
    (kernel : Kernel κ) :
    Harmless kernel kernel :=
  ⟨⟨[], by simp⟩, rfl, rfl, fun _ _ => rfl⟩

theorem Harmless.trans
    {first second third : Kernel κ}
    (hFirst : Harmless first second)
    (hSecond : Harmless second third) :
    Harmless first third where
  touched := by
    rcases hFirst.touched with ⟨log, hLog, hUser⟩
    rcases hSecond.touched with ⟨log', hLog', hUser'⟩
    refine ⟨log ++ log', ?_, ?_⟩
    · rw [hLog', hLog, List.append_assoc]
    · intro v hv
      rcases List.mem_append.mp hv with hOld | hNew
      · exact hUser v hOld
      · exact hUser' v hNew
  fs := hSecond.fs.trans hFirst.fs
  translate := hSecond.translate.trans hFirst.translate
  memory := by
    intro physical hHidden
    have hStill : Hidden second physical := by
      intro v hv
      rw [hFirst.translate]
      exact hHidden v hv
    rw [hSecond.memory physical hStill,
      hFirst.memory physical hHidden]

/- `write_user_bytes` inside the user range. -/
theorem ensures_writeUserBytes
    (kernel : Kernel κ)
    {address len : Nat}
    (source : Bytes)
    (hInside : ∀ i, i < len → InUser (wrap 64 (address + i))) :
    Ensures (fun _ => False)
      (writeUserBytes address source len) kernel
      fun _ final => Harmless kernel final := by
  unfold writeUserBytes
  rw [ensures_bind_iff]
  apply (ensures_userLoop
    (fun copied _ state =>
      state.translate = kernel.translate ∧
        copied ≤ len ∧
        state.touched =
          kernel.touched ++ addresses address copied ∧
        state.fs = kernel.fs ∧
        ∀ physical, Hidden kernel physical →
          state.machine.memory physical =
            kernel.machine.memory physical) ?_ ?_ ?_).mono
  · rintro result final
      ⟨m, hLe, ⟨hSame, -, hTouched, hFs, hMemory⟩, -, -⟩
    rw [ensures_pure_iff]
    refine ⟨⟨_, hTouched, ?_⟩, hFs, hSame, hMemory⟩
    intro v hv
    rcases mem_addresses_iff.mp hv with ⟨i, hi, rfl⟩
    exact hInside i (by omega)
  · rintro copied _ state ⟨hSame, -⟩
    exact hSame
  · rintro copied _ state physical chunk
      ⟨hSame, -, hTouched, hFs, hMemory⟩ hLe hChunk
    simp only [writeChunk, ensures_modify_iff]
    refine ⟨hSame, hLe, ?_, hFs, ?_⟩
    · simp [Kernel.withTouched, Kernel.withMemory, hTouched,
        addresses_add]
    · intro other hHidden
      change write state.machine.memory physical chunk _
        other = _
      rw [write_of_not_mem]
      · exact hMemory other hHidden
      · -- A byte of the chunk is shown at a user address.
        by_contra hMem
        have hAt := hChunk (other - physical) (by omega)
        rw [Nat.add_sub_cancel' (by omega),
          Nat.add_assoc] at hAt
        exact hHidden _ (hInside _ (by omega)) hAt
  · exact ⟨rfl, Nat.zero_le _, by simp [addresses], rfl,
      fun _ _ => rfl⟩

/- A valid range has only user addresses. -/
theorem inUser_of_valid
    {address len : Nat}
    (hAddress : address < 2 ^ 64)
    (hLen : len < 2 ^ 64)
    (hValid : userspaceRangeIsValid address len = true)
    {i : Nat}
    (hi : i < len) :
    InUser (wrap 64 (address + i)) := by
  rw [userspaceRangeIsValid_iff hAddress hLen] at hValid
  unfold InUser userspaceMinVaddr userspaceMaxVaddr at *
  have hWrap : wrap 64 (address + i) = address + i :=
    wrap_of_lt (by omega)
  omega

theorem valid_one_iff
    {address : Nat}
    (hAddress : address < 2 ^ 64) :
    userspaceRangeIsValid address 1 = true ↔
      InUser address := by
  rw [userspaceRangeIsValid_iff hAddress (by decide)]
  unfold InUser
  omega

/- `copy_to_user`. -/
theorem ensures_copyToUser
    (kernel : Kernel κ)
    {address len : Nat}
    (source : Bytes)
    (hAddress : address < 2 ^ 64)
    (hLen : len < 2 ^ 64) :
    Ensures (fun _ => False) (copyToUser address source len)
      kernel
      fun result final =>
        Harmless kernel final ∧
          (0 < len →
            userspaceRangeIsValid address len = false →
              result = false ∧ final = kernel) := by
  unfold copyToUser
  by_cases hEmpty : len = 0
  · simp only [hEmpty, if_true, ensures_pure_iff]
    exact ⟨Harmless.refl kernel, fun hPos =>
      absurd hPos (lt_irrefl 0)⟩
  · rw [if_neg hEmpty]
    cases hValid : userspaceRangeIsValid address len with
    | false =>
        simp only [Bool.not_false, if_true, ensures_pure_iff]
        exact ⟨Harmless.refl kernel,
          fun _ _ => ⟨trivial, trivial⟩⟩
    | true =>
        simp only [Bool.not_true, Bool.false_eq_true,
          if_false]
        apply (ensures_writeUserBytes kernel source fun i hi =>
          inUser_of_valid hAddress hLen hValid hi).mono
        intro _ final hFinal
        exact ⟨hFinal, fun _ hInvalid =>
          absurd hInvalid (by simp)⟩

end Syscall

end Whirliscope

------------------------------------------------------------
-- Strings and Paths
------------------------------------------------------------

namespace Whirliscope

namespace Syscall

open ByteMemory FaultProgram Vmm

variable {κ : Type} (services : Services κ)

/- What a kernel shows in the user range. -/
def Kernel.userView
    (kernel : Kernel κ)
    (address : Nat) : Option UInt8 :=
  if InUser address then kernel.userByte address else none

/- The string of a view from the `i`th character on. -/
def stringFrom
    (view : Nat → Option UInt8)
    (address : Nat) :
    Nat → Nat → List UInt8 → Option (List UInt8)
| 0, _, _ => none
| count + 1, i, dest =>
    match view (wrap 64 (address + i)) with
    | none => none
    | some char =>
        if char = 0 then some dest
        else
          stringFrom view address count (i + 1)
            (dest ++ [char])

/- Only user addresses were touched. -/
def Looked
    (kernel final : Kernel κ) : Prop :=
  ∃ log, final = kernel.withTouched (kernel.touched ++ log) ∧
    ∀ v ∈ log, InUser v

theorem Looked.refl
    (kernel : Kernel κ) :
    Looked kernel kernel :=
  ⟨[], by simp [Kernel.withTouched]⟩

theorem Looked.trans
    {first second third : Kernel κ}
    (hFirst : Looked first second)
    (hSecond : Looked second third) :
    Looked first third := by
  rcases hFirst with ⟨log, rfl, hLog⟩
  rcases hSecond with ⟨log', rfl, hLog'⟩
  refine ⟨log ++ log', ?_, ?_⟩
  · simp [Kernel.withTouched]
  · intro v hv
    rcases List.mem_append.mp hv with hOld | hNew
    · exact hLog v hOld
    · exact hLog' v hNew

/- One character of a user string. -/
theorem ensures_readUserByte
    (kernel : Kernel κ)
    {address : Nat}
    (hAddress : address < 2 ^ 64)
    (hUser : InUser address) :
    Ensures (fun _ => False) (readUserBytes address zeros 1)
      kernel
      fun result final =>
        Looked kernel final ∧
          (if result.1 then some (result.2 0) else none) =
            kernel.userView address := by
  have hWrap : wrap 64 (address + 0) = address :=
    wrap_of_lt (by omega)
  apply (ensures_readUserBytes kernel address zeros 1).mono
  rintro result final
    ⟨m, hLe, rfl, hOk, hOut, hMapped, hStop⟩
  constructor
  · refine ⟨_, rfl, ?_⟩
    intro v hv
    rcases mem_addresses_iff.mp hv with ⟨i, hi, rfl⟩
    have hZero : i = 0 := by omega
    rw [hZero, hWrap]
    exact hUser
  · rw [hOk, hOut, Kernel.userView, if_pos hUser]
    by_cases hRead : m = 1
    · have hSome := hMapped 0 (by omega)
      rw [hWrap] at hSome
      rcases Option.isSome_iff_exists.mp hSome with
        ⟨physical, hPhysical⟩
      rw [write_of_mem (by omega) (by omega)]
      rw [Nat.sub_self, Kernel.userBytes, hWrap]
      simp [hRead, Kernel.userByte, hPhysical]
    · have hZero : m = 0 := by omega
      have hNone := hStop (by omega)
      rw [hZero, hWrap] at hNone
      simp [hRead, Kernel.userByte, hNone]

theorem ensures_copyUserString
    (kernel : Kernel κ)
    (address size : Nat) :
    Ensures (fun _ => False) (copyUserString address size)
      kernel
      fun result final =>
        Looked kernel final ∧
          result =
            stringFrom kernel.userView address size 0 [] := by
  unfold copyUserString
  apply ensures_loop
    (fun fuel state current =>
      state.1 ≤ size ∧
        size < state.1 + fuel ∧
        Looked kernel current ∧
        stringFrom kernel.userView address size 0 [] =
          stringFrom kernel.userView address (size - state.1)
            state.1 state.2)
  · rintro ⟨i, dest⟩ current ⟨hLe, hFuel, -⟩
    omega
  · rintro fuel ⟨i, dest⟩ current
      ⟨hLe, hFuel, hLooked, hString⟩
    simp only at hLe hFuel hString
    unfold copyStringVisit
    rw [hString]
    by_cases hMore : i < size
    · have hCount : size - i = (size - (i + 1)) + 1 := by
        omega
      have hView : current.userView = kernel.userView := by
        rcases hLooked with ⟨log, rfl, -⟩
        rfl
      have hAddress : wrap 64 (address + i) < 2 ^ 64 :=
        wrap_lt 64 _
      rw [hCount]
      simp only [if_pos hMore, stringFrom]
      by_cases hUser : InUser (wrap 64 (address + i))
      · rw [(valid_one_iff hAddress).mpr hUser]
        simp only [Bool.not_true, Bool.false_eq_true,
          if_false, ensures_bind_iff]
        apply (ensures_readUserByte current hAddress
          hUser).mono
        rintro ⟨readable, out⟩ final ⟨hFinal, hByte⟩
        have hBoth := hLooked.trans hFinal
        rw [← hView, ← hByte]
        cases readable with
        | false =>
            simp only [Bool.not_false, if_true,
              ensures_pure_iff, continues_inr,
              Bool.false_eq_true, if_false]
            exact ⟨hBoth, trivial⟩
        | true =>
            simp only [Bool.not_true, Bool.false_eq_true,
              if_false, if_true]
            by_cases hEnd : out 0 = 0
            · simp only [hEnd, if_true, ensures_pure_iff,
                continues_inr]
              exact ⟨hBoth, trivial⟩
            · simp only [hEnd, if_false, ensures_pure_iff,
                continues_inl]
              exact ⟨hMore, by omega, hBoth, trivial⟩
      · have hInvalid :
            userspaceRangeIsValid (wrap 64 (address + i)) 1 =
              false := by
          rw [← Bool.not_eq_true, valid_one_iff hAddress]
          exact hUser
        simp only [hInvalid, Bool.not_false, if_true,
          ensures_pure_iff, continues_inr, Kernel.userView,
          hUser, if_false]
        exact ⟨hLooked, trivial⟩
    · have hNone : size - i = 0 := by omega
      simp only [hMore, if_false, ensures_pure_iff,
        continues_inr, hNone, stringFrom]
      exact ⟨hLooked, trivial⟩
  · exact ⟨Nat.zero_le _, by simp, Looked.refl kernel, rfl⟩

theorem Looked.harmless
    {kernel final : Kernel κ}
    (hLooked : Looked kernel final) :
    Harmless kernel final := by
  rcases hLooked with ⟨log, rfl, hLog⟩
  exact ⟨⟨log, rfl, hLog⟩, rfl, rfl, fun _ _ => rfl⟩

/- A string that leaves the user range before its NUL. -/
def PathOut
    (kernel : Kernel κ)
    (address : Nat) : Prop :=
  ∃ i, i < userFsPathMax ∧
    ¬ InUser (wrap 64 (address + i)) ∧
    ∀ j, j < i →
      kernel.userByte (wrap 64 (address + j)) ≠ some 0

theorem stringFrom_of_outside
    {view : Nat → Option UInt8}
    {address last : Nat}
    (hNone : view (wrap 64 (address + last)) = none)
    {count i : Nat}
    (hLow : i ≤ last)
    (hBefore :
      ∀ j, i ≤ j → j < last →
        view (wrap 64 (address + j)) ≠ some 0)
    (dest : List UInt8) :
    stringFrom view address count i dest = none := by
  induction count generalizing i dest with
  | zero => rfl
  | succ count ih =>
      rw [stringFrom]
      by_cases hHere : i = last
      · rw [hHere, hNone]
      · cases hChar : view (wrap 64 (address + i)) with
        | none => rfl
        | some char =>
            have hNonzero : char ≠ 0 := by
              rintro rfl
              exact hBefore i (le_refl _) (by omega) hChar
            simp only [hNonzero, if_false]
            apply ih (by omega)
            intro j hj
            exact hBefore j (by omega)

/- The path that a call gets from a user address. -/
def pathOf
    (kernel : Kernel κ)
    (address : Nat) : Option (List UInt8) :=
  match stringFrom kernel.userView address userFsPathMax 0 []
  with
  | none => none
  | some path =>
      resolvePathForCurrent
        (currentCwd services kernel.machine.rest) path
        userFsPathMax

theorem pathOf_of_pathOut
    {kernel : Kernel κ}
    {address : Nat}
    (hOut : PathOut kernel address) :
    pathOf services kernel address = none := by
  rcases hOut with ⟨last, hLast, hOutside, hBefore⟩
  have hNone :
      kernel.userView (wrap 64 (address + last)) = none := by
    rw [Kernel.userView, if_neg hOutside]
  have hString :=
    @stringFrom_of_outside kernel.userView address last hNone
      userFsPathMax 0 (Nat.zero_le _)
      (by
        intro j _ hj hZero
        apply hBefore j hj
        rw [Kernel.userView] at hZero
        split_ifs at hZero
        exact hZero) []
  rw [pathOf, hString]

theorem ensures_copyAndResolveUserPath
    (kernel : Kernel κ)
    (address : Nat) :
    Ensures (fun _ => False)
      (copyAndResolveUserPath services address) kernel
      fun result final =>
        Looked kernel final ∧
          result = pathOf services kernel address := by
  unfold copyAndResolveUserPath
  rw [ensures_bind_iff]
  apply (ensures_copyUserString kernel address
    userFsPathMax).mono
  rintro result final ⟨hLooked, hString⟩
  rw [pathOf, ← hString]
  cases result with
  | none =>
      rw [ensures_pure_iff]
      exact ⟨hLooked, rfl⟩
  | some path =>
      have hRest :
          final.machine.rest = kernel.machine.rest := by
        rcases hLooked with ⟨log, rfl, -⟩
        rfl
      simp only [getRest, ensures_bind_iff, ensures_get_iff,
        ensures_pure_iff, hRest]
      exact ⟨hLooked, trivial⟩

/- A call with a path fails, or runs its body on the path. -/
theorem ensures_withPath
    {kernel : Kernel κ}
    {address : Nat}
    {body : List UInt8 → KernelM κ Reply}
    {post : Reply → Kernel κ → Prop}
    (hNone :
      ∀ final, Looked kernel final →
        pathOf services kernel address = none →
          post (.value Ext2.userErrFault) final)
    (hSome :
      ∀ path middle, Looked kernel middle →
        pathOf services kernel address = some path →
          Ensures (fun _ => False) (body path) middle post) :
    Ensures (fun _ => False) (withPath services address body)
      kernel post := by
  unfold withPath
  rw [ensures_bind_iff]
  apply (ensures_copyAndResolveUserPath services kernel
    address).mono
  rintro result middle ⟨hLooked, hPath⟩
  cases result with
  | none =>
      rw [ensures_pure_iff]
      exact hNone middle hLooked hPath.symm
  | some path => exact hSome path middle hLooked hPath.symm

end Syscall

end Whirliscope
