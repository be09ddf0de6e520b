import Whirliscope.Userspace.Confinement

/-
  What the copies leave in user memory.

  Key definitions include:
    * `Kernel.FramesDistinct`, `Kernel.RangeMapped`
    * `Copied`, `UserWritten`

  Main theorem:
    * `copiesExactly`
-/

------------------------------------------------------------
-- Mapped Ranges
------------------------------------------------------------

namespace Whirliscope

namespace Syscall

open ByteMemory FaultProgram Vmm

variable {κ : Type}

/- Distinct mapped user pages have distinct frames. -/
def Kernel.FramesDistinct
    (kernel : Kernel κ) : Prop :=
  ∀ first second physical physical',
    InUser first → InUser second →
    kernel.translate first = some physical →
    kernel.translate second = some physical' →
    physical / 4096 = physical' / 4096 →
      first / 4096 = second / 4096

/- The page of an address is mapped. -/
def Kernel.PageMapped
    (kernel : Kernel κ)
    (address : Nat) : Prop :=
  (kernel.translate (address / 4096 * 4096)).isSome

/- Every page that a range touches is mapped. -/
def Kernel.RangeMapped
    (kernel : Kernel κ)
    (address len : Nat) : Prop :=
  ∀ i, i < len → kernel.PageMapped (wrap 64 (address + i))

instance
    (kernel : Kernel κ)
    (address : Nat) :
    Decidable (kernel.PageMapped address) :=
  inferInstanceAs (Decidable (_ = true))

instance
    (kernel : Kernel κ)
    (address len : Nat) :
    Decidable (kernel.RangeMapped address len) :=
  inferInstanceAs (Decidable (∀ i, i < len → _))

theorem Kernel.pageMapped_iff
    (kernel : Kernel κ)
    (address : Nat) :
    kernel.PageMapped address ↔
      (kernel.translate address).isSome := by
  have hPage :
      address / 4096 * 4096 / 4096 = address / 4096 := by
    omega
  unfold Kernel.PageMapped Kernel.translate
  constructor
  · intro hMapped
    rcases Option.isSome_iff_exists.mp hMapped with
      ⟨physical, hPhysical⟩
    rw [(vmmVirtToPhys_page hPhysical hPage).2]
    rfl
  · intro hMapped
    rcases Option.isSome_iff_exists.mp hMapped with
      ⟨physical, hPhysical⟩
    rw [(vmmVirtToPhys_page hPhysical hPage.symm).2]
    rfl

/- A physical byte has at most one user address. -/
theorem Kernel.FramesDistinct.address_eq
    {kernel : Kernel κ}
    (hDistinct : kernel.FramesDistinct)
    {first second physical : Nat}
    (hFirst : InUser first)
    (hSecond : InUser second)
    (hFirstAt : kernel.translate first = some physical)
    (hSecondAt : kernel.translate second = some physical) :
    first = second := by
  have hPage :=
    hDistinct first second physical physical hFirst hSecond
      hFirstAt hSecondAt rfl
  have hFirstOffset := (vmmVirtToPhys_page hFirstAt rfl).1
  have hSecondOffset := (vmmVirtToPhys_page hSecondAt rfl).1
  omega

end Syscall

end Whirliscope

------------------------------------------------------------
-- The Copied Bytes
------------------------------------------------------------

namespace Whirliscope

namespace Syscall

open ByteMemory FaultProgram Vmm

variable {κ : Type}

/-
  The first bytes of a range hold the source, and physical
  memory that they do not show is as before.
-/
structure Copied
    (kernel : Kernel κ)
    (address : Nat)
    (source : Bytes)
    (count : Nat)
    (final : Kernel κ) : Prop where
  translate : final.translate = kernel.translate
  inside :
    ∀ i, i < count → ∀ physical,
      kernel.translate (wrap 64 (address + i)) =
          some physical →
        final.machine.memory physical = source i
  outside :
    ∀ physical,
      (∀ i, i < count →
        kernel.translate (wrap 64 (address + i)) ≠
          some physical) →
      final.machine.memory physical =
        kernel.machine.memory physical

theorem Copied.zero
    (kernel : Kernel κ)
    (address : Nat)
    (source : Bytes) :
    Copied kernel address source 0 kernel where
  translate := rfl
  inside := fun i hi => absurd hi (Nat.not_lt_zero i)
  outside := fun _ _ => rfl

/- A chunk more. -/
theorem Copied.chunk
    {kernel state : Kernel κ}
    {address count physical chunk : Nat}
    {source : Bytes}
    (hCopied : Copied kernel address source count state)
    (hChunk :
      ∀ i, i < chunk →
        kernel.translate (wrap 64 (address + count + i)) =
          some (physical + i))
    (hApart :
      ∀ i j other, i < count → j < chunk →
        kernel.translate (wrap 64 (address + i)) =
            some other →
          kernel.translate
              (wrap 64 (address + count + j)) ≠
            some other)
    (log : List Nat) :
    Copied kernel address source (count + chunk)
      ((state.withTouched log).withMemory
        (write state.machine.memory physical chunk
          (slice source count))) where
  translate := hCopied.translate
  inside := by
    intro i hi other hAt
    change write _ _ _ _ other = _
    by_cases hOld : i < count
    · rw [write_of_not_mem]
      · exact hCopied.inside i hOld other hAt
      · -- A byte of the chunk has another address.
        by_contra hMem
        have hNew := hChunk (other - physical) (by omega)
        rw [Nat.add_sub_cancel' (by omega)] at hNew
        exact hApart i (other - physical) other hOld
          (by omega) hAt hNew
    · have hNew := hChunk (i - count) (by omega)
      rw [Nat.add_assoc address count,
        Nat.add_sub_cancel' (by omega), hAt] at hNew
      have hOther : other = physical + (i - count) :=
        Option.some.inj hNew
      rw [write_of_mem (by omega) (by omega), slice_apply]
      congr 1
      omega
  outside := by
    intro other hOther
    change write _ _ _ _ other = _
    rw [write_of_not_mem]
    · exact hCopied.outside other fun i hi =>
        hOther i (by omega)
    · by_contra hMem
      have hNew := hChunk (other - physical) (by omega)
      rw [Nat.add_sub_cancel' (by omega),
        Nat.add_assoc] at hNew
      exact hOther _ (by omega) hNew

/- `write_user_bytes` copies up to the first unmapped byte. -/
theorem ensures_writeUserBytes_copied
    (kernel : Kernel κ)
    {address len : Nat}
    (source : Bytes)
    (hApart :
      ∀ i j other, i < j → j < len →
        kernel.translate (wrap 64 (address + i)) =
            some other →
          kernel.translate (wrap 64 (address + j)) ≠
            some other) :
    Ensures (fun _ => False)
      (writeUserBytes address source len) kernel
      fun result final =>
        ∃ m, m ≤ len ∧
          Copied kernel address source m final ∧
          result = decide (m = len) ∧
          (∀ i, i < m →
            (kernel.translate
              (wrap 64 (address + i))).isSome) ∧
          (m < len →
            kernel.translate (wrap 64 (address + m)) =
              none) := by
  unfold writeUserBytes
  rw [ensures_bind_iff]
  apply (ensures_userLoop
    (fun copied _ state =>
      Copied kernel address source copied state ∧
        ∀ i, i < copied →
          (kernel.translate
            (wrap 64 (address + i))).isSome) ?_ ?_ ?_).mono
  · rintro result final
      ⟨m, hLe, ⟨hCopied, hMapped⟩, hOk, hStop⟩
    rw [ensures_pure_iff]
    exact ⟨m, hLe, hCopied, hOk, hMapped, hStop⟩
  · rintro copied _ state ⟨hCopied, -⟩
    exact hCopied.translate
  · rintro copied _ state physical chunk
      ⟨hCopied, hMapped⟩ hLe hChunk
    simp only [writeChunk, ensures_modify_iff]
    refine ⟨hCopied.chunk hChunk ?_ _, ?_⟩
    · intro i j other hi hj hAt
      rw [Nat.add_assoc]
      exact hApart i (copied + j) other (by omega) (by omega)
        hAt
    · intro i hi
      by_cases hOld : i < copied
      · exact hMapped i hOld
      · have hAt := hChunk (i - copied) (by omega)
        rw [Nat.add_assoc,
          Nat.add_sub_cancel' (by omega)] at hAt
        rw [hAt]
        rfl
  · exact ⟨Copied.zero kernel address source, fun i hi =>
      absurd hi (Nat.not_lt_zero i)⟩

end Syscall

end Whirliscope

------------------------------------------------------------
-- Exact Copies
------------------------------------------------------------

namespace Whirliscope

namespace Syscall

open ByteMemory FaultProgram Vmm

variable {κ : Type}

/-
  A range of user memory holds the source, and every other
  mapped byte is as before: at the other user addresses, and
  wherever memory is not shown in the range.
-/
structure UserWritten
    (kernel : Kernel κ)
    (address : Nat)
    (source : Bytes)
    (len : Nat)
    (final : Kernel κ) : Prop where
  translate : final.translate = kernel.translate
  written :
    ∀ i, i < len →
      final.userByte (address + i) = some (source i)
  others :
    ∀ v, InUser v → v < address ∨ address + len ≤ v →
      final.userByte v = kernel.userByte v
  memory :
    ∀ physical,
      (∀ i, i < len →
        kernel.translate (address + i) ≠ some physical) →
      final.machine.memory physical =
        kernel.machine.memory physical

/- The addresses of a part of the user range do not wrap. -/
theorem wrap_inUser
    {address i : Nat}
    (hUser : InUser (address + i)) :
    wrap 64 (address + i) = address + i := by
  have hMax := hUser.2
  unfold userspaceMaxVaddr at hMax
  exact wrap_of_lt (by omega)

theorem Copied.userWritten
    {kernel final : Kernel κ}
    {address len : Nat}
    {source : Bytes}
    (hCopied : Copied kernel address source len final)
    (hDistinct : kernel.FramesDistinct)
    (hInside : ∀ i, i < len → InUser (address + i))
    (hMapped :
      ∀ i, i < len →
        (kernel.translate (address + i)).isSome) :
    UserWritten kernel address source len final := by
  constructor
  case translate => exact hCopied.translate
  case written =>
    intro i hi
    rcases Option.isSome_iff_exists.mp (hMapped i hi) with
      ⟨physical, hAt⟩
    rw [Kernel.userByte, hCopied.translate, hAt,
      Option.map_some,
      hCopied.inside i hi physical
        (by rw [wrap_inUser (hInside i hi), hAt])]
  case others =>
    intro v hUser hOther
    rw [Kernel.userByte, Kernel.userByte, hCopied.translate]
    cases hAt : kernel.translate v with
    | none => rfl
    | some physical =>
        rw [Option.map_some, Option.map_some]
        congr 1
        apply hCopied.outside
        intro i hi hShown
        rw [wrap_inUser (hInside i hi)] at hShown
        have hSame :=
          hDistinct.address_eq (hInside i hi) hUser hShown hAt
        omega
  case memory =>
    intro physical hHidden
    apply hCopied.outside
    intro i hi
    rw [wrap_inUser (hInside i hi)]
    exact hHidden i hi

theorem inUser_range_iff
    {address len : Nat}
    (hUser : InUser address)
    (hPos : 0 < len)
    (hWord : len < 2 ^ 64) :
    userspaceRangeIsValid address len = true ↔
      ∀ i, i < len → InUser (address + i) := by
  have hAddress : address < 2 ^ 64 := by
    have hMax := hUser.2
    unfold userspaceMaxVaddr at hMax
    omega
  rw [userspaceRangeIsValid_iff hAddress hWord]
  constructor
  · intro hValid i hi
    have hMin := hUser.1
    unfold InUser
    omega
  · intro hInside
    have hLast := (hInside (len - 1) (by omega)).2
    exact ⟨hPos, hUser.1, by omega⟩

/- A copy does not stop inside a mapped range. -/
theorem Kernel.RangeMapped.eq_of_stop
    {kernel : Kernel κ}
    {address len m : Nat}
    (hRange : kernel.RangeMapped address len)
    (hLe : m ≤ len)
    (hStop :
      m < len →
        kernel.translate (wrap 64 (address + m)) = none) :
    m = len := by
  by_contra hShort
  have hHole := hStop (by omega)
  have hPage :=
    (kernel.pageMapped_iff _).mp (hRange m (by omega))
  rw [hHole] at hPage
  exact Bool.false_ne_true hPage

theorem ensures_copyToUser_exact
    (kernel : Kernel κ)
    (hDistinct : kernel.FramesDistinct)
    {address len : Nat}
    (source : Bytes)
    (hUser : InUser address)
    (hPos : 0 < len)
    (hWord : len < 2 ^ 64) :
    Ensures (fun _ => False) (copyToUser address source len)
      kernel
      fun copied final =>
        (copied = true ↔
          (∀ i, i < len → InUser (address + i)) ∧
            kernel.RangeMapped address len) ∧
        (copied = true →
          UserWritten kernel address source len final) := by
  have hRangeIff := inUser_range_iff hUser hPos hWord
  unfold copyToUser
  rw [if_neg (by omega)]
  cases hValid : userspaceRangeIsValid address len with
  | false =>
      simp only [Bool.not_false, if_true, ensures_pure_iff]
      refine ⟨iff_of_false Bool.false_ne_true ?_,
        fun hTrue => absurd hTrue Bool.false_ne_true⟩
      rintro ⟨hInside, -⟩
      rw [hRangeIff.mpr hInside] at hValid
      exact Bool.false_ne_true hValid.symm
  | true =>
      have hInside := hRangeIff.mp hValid
      simp only [Bool.not_true, Bool.false_eq_true, if_false]
      apply (ensures_writeUserBytes_copied kernel source
        ?_).mono
      · rintro copied final
          ⟨m, hLe, hCopied, rfl, hMapped, hStop⟩
        rw [decide_eq_true_iff]
        refine ⟨⟨?_, ?_⟩, ?_⟩
        · rintro rfl
          exact ⟨hInside, fun i hi =>
            (kernel.pageMapped_iff _).mpr (hMapped i hi)⟩
        · rintro ⟨-, hRange⟩
          exact hRange.eq_of_stop hLe hStop
        · rintro rfl
          apply hCopied.userWritten hDistinct hInside
          intro i hi
          rw [← wrap_inUser (hInside i hi)]
          exact hMapped i hi
      · intro i j other hLess hj hFirst hSecond
        have hFirstUser := hInside i (by omega)
        rw [wrap_inUser hFirstUser] at hFirst
        rw [wrap_inUser (hInside j hj)] at hSecond
        have hSame :=
          hDistinct.address_eq hFirstUser (hInside j hj)
            hFirst hSecond
        omega

/- `read_user_bytes` on a mapped range. -/
theorem ensures_readUserBytes_exact
    (kernel : Kernel κ)
    {address len : Nat}
    (buffer : Bytes)
    (hRange : kernel.RangeMapped address len) :
    Ensures (fun _ => False)
      (readUserBytes address buffer len) kernel
      fun result final =>
        result.1 = true ∧
          final.machine = kernel.machine ∧
          (∀ i, i < len →
            kernel.userByte (wrap 64 (address + i)) =
              some (result.2 i)) ∧
          ∀ i, len ≤ i → result.2 i = buffer i := by
  apply (ensures_readUserBytes kernel address buffer
    len).mono
  rintro result final ⟨m, hLe, hFinal, hOk, hOut, -, hStop⟩
  have hAll := hRange.eq_of_stop hLe hStop
  subst hAll
  refine ⟨by rw [hOk, decide_eq_true rfl],
    by rw [hFinal]; rfl, ?_, ?_⟩
  · intro i hi
    have hSome :=
      (kernel.pageMapped_iff _).mp (hRange i hi)
    rcases Option.isSome_iff_exists.mp hSome with
      ⟨physical, hAt⟩
    rw [hOut, write_of_mem (by omega) (by omega),
      Nat.sub_zero, Kernel.userBytes, Kernel.userByte, hAt]
    rfl
  · intro i hi
    rw [hOut, write_of_not_mem (by omega)]

/-
  `copy_to_user` succeeds exactly on mapped user ranges and
  then copies the source; `read_user_bytes` returns the bytes
  of a mapped range.
-/
theorem copiesExactly
    (kernel : Kernel κ)
    (hDistinct : kernel.FramesDistinct)
    {address len : Nat}
    (source buffer : Bytes)
    (hUser : InUser address)
    (hPos : 0 < len)
    (hWord : len < 2 ^ 64) :
    (∃ copied final,
      Returns (copyToUser address source len) kernel copied
          final ∧
        (copied = true ↔
          (∀ i, i < len → InUser (address + i)) ∧
            kernel.RangeMapped address len) ∧
        (copied = true →
          UserWritten kernel address source len final)) ∧
      (kernel.RangeMapped address len →
        ∃ out final,
          Returns (readUserBytes address buffer len) kernel
              (true, out) final ∧
            final.machine = kernel.machine ∧
            (∀ i, i < len →
              kernel.userByte (wrap 64 (address + i)) =
                some (out i)) ∧
            ∀ i, len ≤ i → out i = buffer i) := by
  constructor
  · rcases (ensures_copyToUser_exact kernel hDistinct source
        hUser hPos hWord).exists_returns with
      ⟨copied, final, hReturns, hExactly, hWritten⟩
    exact ⟨copied, final, hReturns, hExactly, hWritten⟩
  · intro hRange
    rcases (ensures_readUserBytes_exact kernel buffer
        hRange).exists_returns with
      ⟨⟨ok, out⟩, final, hReturns, rfl, hMachine, hInside,
        hOutside⟩
    exact ⟨out, final, hReturns, hMachine, hInside, hOutside⟩

/-
  The first gigabyte of the user range lies at 2 GiB, and the
  second one at 1 GiB.
-/
def scatteredKernel : Kernel Unit :=
  { sampleKernel with
    machine :=
      { sampleKernel.machine with
        tables :=
          putFields zeros
            [(0x1000, 8, 0x2007), (0x2000, 8, 0x80000087),
              (0x2008, 8, 0x40000087)] } }

theorem scatteredKernel_root :
    ∀ i, i < 256 →
      loadEntry scatteredKernel.machine.tables
          (0x1000 + 8 * i) &&& vmmPresent ≠ 0 →
        i = 0 := by
  decide +kernel

theorem scatteredKernel_directory :
    ∀ i, i < 512 →
      loadEntry scatteredKernel.machine.tables
          (0x2000 + 8 * i) &&& vmmPresent ≠ 0 →
        i < 2 := by
  decide +kernel

theorem scatteredKernel_translate
    {v physical : Nat}
    (hUser : InUser v)
    (hAt : scatteredKernel.translate v = some physical) :
    v < 2 ^ 31 ∧
      physical / 4096 =
        (if v < 2 ^ 30 then v / 4096 + 2 ^ 19
          else v / 4096) := by
  have hMax := hUser.2
  unfold userspaceMaxVaddr at hMax
  have hRootIndex : tableIndex v 39 = v / 2 ^ 39 % 512 := by
    rw [tableIndex, Nat.shiftRight_eq_div_pow]
    exact Nat.and_two_pow_sub_one_eq_mod _ 9
  have hIndex : tableIndex v 30 = v / 2 ^ 30 % 512 := by
    rw [tableIndex, Nat.shiftRight_eq_div_pow]
    exact Nat.and_two_pow_sub_one_eq_mod _ 9
  unfold Kernel.translate vmmVirtToPhys walkToExistingMapping
    walkToLevelInRoot at hAt
  rcases Option.map_eq_some_iff.mp hAt with
    ⟨mapping, hFound, rfl⟩
  rcases Option.filter_eq_some_iff.mp hFound with
    ⟨hWalk, hPresent⟩
  rw [walkLevels, if_neg (by decide)] at hWalk
  have hRoot : tableIndex v 39 = 0 := by
    by_contra hOther
    have hAbsent :
        loadEntry scatteredKernel.machine.tables
            (0x1000 + 8 * tableIndex v 39) &&&
              vmmPresent = 0 := by
      by_contra hThere
      exact hOther
        (scatteredKernel_root _ (by omega) hThere)
    rw [show scatteredKernel.machine.pml4 = 0x1000 from rfl,
      if_pos hAbsent] at hWalk
    cases hWalk
  have hTable :
      entryToTable
          (loadEntry scatteredKernel.machine.tables
            (scatteredKernel.machine.pml4 + 8 * 0)) =
        0x2000 := by
    decide
  rw [hRoot, if_neg (by decide),
    if_neg (by decide), hTable, walkLevels,
    if_neg (by decide)] at hWalk
  have hDirectory : tableIndex v 30 < 2 := by
    by_contra hOther
    have hAbsent :
        loadEntry scatteredKernel.machine.tables
            (0x2000 + 8 * tableIndex v 30) &&&
              vmmPresent = 0 := by
      by_contra hThere
      exact hOther
        (scatteredKernel_directory _ (by omega) hThere)
    rw [if_pos hAbsent] at hWalk
    cases hWalk
  have hCases : tableIndex v 30 = 0 ∨ tableIndex v 30 = 1 := by
    omega
  rcases hCases with hFirst | hSecond
  · rw [hFirst, if_neg (by decide),
      if_pos (by decide)] at hWalk
    cases hWalk
    have hFrame :
        loadEntry scatteredKernel.machine.tables 0x2000 &&&
          addressMask 30 = 2 <<< 30 := by
      decide
    rw [if_pos (by omega)]
    refine ⟨by omega, ?_⟩
    change (loadEntry scatteredKernel.machine.tables 0x2000
        &&& addressMask 30 ||| _) / 4096 = _
    rw [hFrame, Nat.and_two_pow_sub_one_eq_mod,
      ← Nat.shiftLeft_add_eq_or_of_lt
        (Nat.mod_lt _ (Nat.two_pow_pos _))]
    omega
  · rw [hSecond, if_neg (by decide),
      if_pos (by decide)] at hWalk
    cases hWalk
    have hFrame :
        loadEntry scatteredKernel.machine.tables 0x2008 &&&
          addressMask 30 = 1 <<< 30 := by
      decide
    rw [if_neg (by omega)]
    refine ⟨by omega, ?_⟩
    change (loadEntry scatteredKernel.machine.tables 0x2008
        &&& addressMask 30 ||| _) / 4096 = _
    rw [hFrame, Nat.and_two_pow_sub_one_eq_mod,
      ← Nat.shiftLeft_add_eq_or_of_lt
        (Nat.mod_lt _ (Nat.two_pow_pos _))]
    omega

theorem scatteredKernel_distinct :
    scatteredKernel.FramesDistinct := by
  intro first second physical physical' hFirst hSecond
    hFirstAt hSecondAt hFrame
  have hFirstFrame := scatteredKernel_translate hFirst hFirstAt
  have hSecondFrame :=
    scatteredKernel_translate hSecond hSecondAt
  split at hFirstFrame <;> split at hSecondFrame <;> omega

/- A copy over the border of the two gigabytes. -/
theorem scatteredKernel_copies :
    ∃ final,
      Returns (copyToUser 0x3ffffffe (bytesLE 0x64636261) 4)
          scatteredKernel true final ∧
        UserWritten scatteredKernel 0x3ffffffe
          (bytesLE 0x64636261) 4 final := by
  rcases (@copiesExactly Unit scatteredKernel
      scatteredKernel_distinct 0x3ffffffe 4
      (bytesLE 0x64636261) zeros (by decide) (by decide)
      (by decide)).1 with
    ⟨copied, final, hReturns, hExactly, hWritten⟩
  have hCopied : copied = true := by
    rw [hExactly]
    decide
  subst hCopied
  exact ⟨final, hReturns, hWritten rfl⟩

end Syscall

end Whirliscope
