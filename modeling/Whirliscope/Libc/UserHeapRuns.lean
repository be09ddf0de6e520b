import Whirliscope.Libc.UserHeap

/-
  Runs of the heap functions of the user library.

  The blocks lie one behind the other below the break, each
  with its header in front. A header has eight bytes and the
  sizes are multiples of sixteen, so a pointer is aligned
  exactly when the break before the call was not.

  Key definitions include:
    * `Wrote`, `Allocates`
    * `MallocRun`, `Blocks`
    * `RegionsSound`, `ReallocSound`

  Main theorem:
    * `malloc_sound_iff`
-/

------------------------------------------------------------
-- Bytes of the Program
------------------------------------------------------------

namespace Whirliscope

namespace Stdlib

open ByteMemory FaultProgram Vmm Syscall Userspace

variable {δ : Type}

/- The machine holds the heap pages of the process. -/
def Heaped
    (slot : Slot)
    (machine : UserMachine δ) : Prop :=
  ∃ written space used,
    HeapPages slot written space used machine

/- The byte that the process sees at an address. -/
def byteAt
    (slot : Slot)
    (machine : UserMachine δ)
    (address : Nat) : Option UInt8 :=
  userByte machine (rootOf slot machine) address

section Bytes

variable {slot : Slot} {machine : UserMachine δ}

theorem Heaped.currentRoot_eq
    (hHeaped : Heaped slot machine) :
    currentRoot machine = rootOf slot machine := by
  rcases hHeaped with ⟨written, space, used, hHeap⟩
  unfold currentRoot
  rw [hHeap.current]

theorem Heaped.low
    (hHeaped : Heaped slot machine) :
    userspaceHeapBase ≤ breakOf slot machine := by
  rcases hHeaped with ⟨written, space, used, hHeap⟩
  exact hHeap.low

theorem Heaped.high
    (hHeaped : Heaped slot machine) :
    breakOf slot machine ≤ userspaceHeapLimit := by
  rcases hHeaped with ⟨written, space, used, hHeap⟩
  exact hHeap.high

/- The process sees every byte below the break. -/
theorem Heaped.exists_byte
    (hHeaped : Heaped slot machine)
    {address : Nat}
    (hLow : userspaceHeapBase ≤ address)
    (hHigh : address < breakOf slot machine) :
    ∃ byte, byteAt slot machine address = some byte := by
  have hLimit := hHeaped.high
  rcases hHeaped with ⟨written, space, used, hHeap⟩
  have hHalf : UserHalf address := by
    unfold UserHalf
    unfold userspaceHeapLimit at hLimit
    omega
  have hFirst :
      pagesBelow userspaceHeapBase ≤ address / 4096 := by
    unfold pagesBelow
    unfold userspaceHeapBase at hLow ⊢
    omega
  have hLast :
      address / 4096 < pagesBelow (breakOf slot machine) := by
    unfold pagesBelow
    omega
  rcases hHeap.mapped _ hFirst hLast with ⟨page, hPage, -⟩
  unfold byteAt
  rw [hHeap.holds.userByte_eq hHalf, hPage]
  exact ⟨_, rfl⟩

/- An access that the tables permit is translated. -/
theorem userTarget_eq_some
    {stores : Bool}
    {address physical : Nat}
    (hTarget :
      userTarget stores address machine = some physical) :
    UserHalf address ∧
      vmmVirtToPhys machine.tables (currentRoot machine)
          address = some physical := by
  unfold userTarget at hTarget
  dsimp only at hTarget
  split at hTarget
  · rename_i hPermits
    exact ⟨hPermits.1, hTarget⟩
  · cases hTarget

theorem ensures_loadByte
    (hHeaped : Heaped slot machine)
    (address : Nat) :
    Ensures (fun _ => True) (loadByte address) machine
      fun byte after =>
        after = machine ∧ UserHalf address ∧
          byteAt slot machine address = some byte := by
  unfold loadByte
  rw [ensures_bind_iff, ensures_get_iff]
  split
  · exact (ensures_throw_iff _ _ _ _).mpr trivial
  · rename_i physical hTarget
    rcases userTarget_eq_some hTarget with ⟨hHalf, hAt⟩
    rw [hHeaped.currentRoot_eq] at hAt
    rw [ensures_pure_iff]
    refine ⟨rfl, hHalf, ?_⟩
    unfold byteAt userByte
    rw [hAt]
    rfl

/- A range of bytes that was written. -/
structure Wrote
    (slot : Slot)
    (first count : Nat)
    (source : Bytes)
    (machine after : UserMachine δ) : Prop where
  heaped : Heaped slot after
  break_eq : breakOf slot after = breakOf slot machine
  half : count = 0 ∨ first + count ≤ 2 ^ 47
  bytes :
    ∀ address, UserHalf address →
      byteAt slot after address =
        if first ≤ address ∧ address < first + count then
          some (source (address - first))
        else
          byteAt slot machine address

theorem Wrote.refl
    (hHeaped : Heaped slot machine)
    (first : Nat)
    (source : Bytes) :
    Wrote slot first 0 source machine machine where
  heaped := hHeaped
  break_eq := rfl
  half := .inl rfl
  bytes := by
    intro address _
    rw [if_neg (by omega)]

/- The next byte is written. -/
theorem Wrote.next
    {first count : Nat}
    {source : Bytes}
    {middle after : UserMachine δ}
    (hFirst : Wrote slot first count source machine middle)
    (hNext :
      Wrote slot (first + count) 1 (fun _ => source count)
        middle after) :
    Wrote slot first (count + 1) source machine after where
  heaped := hNext.heaped
  break_eq := hNext.break_eq.trans hFirst.break_eq
  half := by
    have hHalf := hNext.half
    omega
  bytes := by
    intro address hHalf
    rw [hNext.bytes address hHalf]
    by_cases hLast : address = first + count
    · rw [if_pos (by omega), if_pos (by omega), hLast,
        Nat.add_sub_cancel_left]
    · rw [if_neg (by omega), hFirst.bytes address hHalf]
      by_cases hIn : first ≤ address ∧ address < first + count
      · rw [if_pos hIn, if_pos (by omega)]
      · rw [if_neg hIn, if_neg (by omega)]

theorem ensures_storeByte
    (hHeaped : Heaped slot machine)
    (address : Nat)
    (byte : UInt8) :
    Ensures (fun _ => True) (storeByte address byte) machine
      fun _ after =>
        Wrote slot address 1 (fun _ => byte) machine after := by
  unfold storeByte
  rw [ensures_bind_iff, ensures_get_iff]
  split
  · exact (ensures_throw_iff _ _ _ _).mpr trivial
  rename_i physical hTarget
  rcases userTarget_eq_some hTarget with ⟨hHalf, hAt⟩
  rw [hHeaped.currentRoot_eq] at hAt
  rw [ensures_set_iff]
  rcases hHeaped with ⟨written, space, used, hHeap⟩
  rcases (hHeap.holds.translate_eq_some_iff hHalf).mp hAt with
    ⟨page, hPage, rfl⟩
  have hStored := hHeap.store hPage byte
  refine
    { heaped := ⟨_, _, _, hStored⟩
      break_eq := rfl
      half := .inr (by unfold UserHalf at hHalf; omega)
      bytes := ?_ }
  intro other hOther
  unfold byteAt
  rw [hStored.holds.userByte_eq hOther,
    hHeap.holds.userByte_eq hOther]
  by_cases hSame : other = address
  · subst hSame
    rw [space.put_self, if_pos (by omega)]
    exact congrArg some (Function.update_self _ _ _)
  · rw [if_neg (by omega)]
    by_cases hNumber : other / 4096 = address / 4096
    · rw [hNumber, space.put_self, hPage]
      have hOffset : other % 4096 ≠ address % 4096 := by
        omega
      have hKept :
          (page.poke (address % 4096) byte).bytes
              (other % 4096) =
            page.bytes (other % 4096) := by
        change
          Function.update page.bytes (address % 4096) byte
              (other % 4096) = _
        rw [Function.update_of_ne hOffset]
      exact congrArg some hKept
    · rw [space.put_of_ne _ hNumber]

/- Bytes that are stored one after the other. -/
theorem ensures_forEach
    {body : Nat → UserM δ Unit}
    {first limit : Nat}
    {source : Bytes}
    (hHeaped : Heaped slot machine)
    (hBody :
      ∀ i middle, i < limit →
        Wrote slot first i source machine middle →
          Ensures (fun _ => True) (body i) middle
            fun _ after =>
              Wrote slot (first + i) 1 (fun _ => source i)
                middle after)
    {count : Nat}
    (hCount : count ≤ limit) :
    Ensures (fun _ => True) (forEach body count) machine
      fun _ after =>
        Wrote slot first count source machine after := by
  induction count with
  | zero =>
      unfold forEach
      rw [ensures_pure_iff]
      exact Wrote.refl hHeaped first source
  | succ count ih =>
      unfold forEach
      rw [ensures_bind_iff]
      apply (ih (by omega)).mono
      intro _ middle hMiddle
      apply (hBody count middle (by omega) hMiddle).mono
      exact fun _ _ hNext => hMiddle.next hNext

/- The next address of a range in the user half. -/
theorem Wrote.wrap_next
    {first count : Nat}
    {source : Bytes}
    {machine after : UserMachine δ}
    (hFirst : first < 2 ^ 47)
    (hWrote : Wrote slot first count source machine after) :
    wrap 64 (first + count) = first + count := by
  have hHalf := hWrote.half
  apply wrap_of_lt
  omega

theorem ensures_memset
    (hHeaped : Heaped slot machine)
    {s : Nat}
    (hFirst : s < 2 ^ 47)
    (c : UInt8)
    (n : Nat) :
    Ensures (fun _ => True) (memset s c n) machine
      fun _ after =>
        Wrote slot s n (fun _ => c) machine after := by
  apply ensures_forEach hHeaped _ (Nat.le_refl n)
  intro i middle _ hMiddle
  rw [hMiddle.wrap_next hFirst]
  exact ensures_storeByte hMiddle.heaped _ _

theorem ensures_storeLE
    (hHeaped : Heaped slot machine)
    {address : Nat}
    (hFirst : address < 2 ^ 47)
    (count value : Nat) :
    Ensures (fun _ => True) (storeLE address count value)
      machine
      fun _ after =>
        Wrote slot address count (bytesLE value) machine
          after := by
  apply ensures_forEach hHeaped _ (Nat.le_refl count)
  intro i middle _ hMiddle
  rw [hMiddle.wrap_next hFirst]
  exact ensures_storeByte hMiddle.heaped _ _

/- A copy to addresses behind the source. -/
theorem ensures_memcpy
    (hHeaped : Heaped slot machine)
    {dest src n : Nat}
    (hDest : dest < 2 ^ 47)
    (hBehind : src + n ≤ dest) :
    Ensures (fun _ => True) (memcpy dest src n) machine
      fun _ after =>
        Wrote slot dest n
          (fun i => (byteAt slot machine (src + i)).getD 0)
          machine after := by
  apply ensures_forEach hHeaped _ (Nat.le_refl n)
  intro i middle hi hMiddle
  have hSource : wrap 64 (src + i) = src + i :=
    wrap_of_lt (by omega)
  rw [hMiddle.wrap_next hDest, hSource, ensures_bind_iff]
  apply (ensures_loadByte hMiddle.heaped (src + i)).mono
  rintro byte _ ⟨rfl, hHalf, hByte⟩
  rw [hMiddle.bytes _ hHalf, if_neg (by omega)] at hByte
  rw [hByte]
  exact ensures_storeByte hMiddle.heaped _ _

/- A value that is read is the one in memory. -/
theorem ensures_loadLE
    (hHeaped : Heaped slot machine)
    {value address first count : Nat}
    (hBytes :
      ∀ i, i < count →
        byteAt slot machine (address + i) =
          some (bytesLE value (first + i)))
    (hWord : address + count ≤ 2 ^ 64) :
    Ensures (fun _ => True) (loadLE address count) machine
      fun result after =>
        after = machine ∧
          result = getLE (bytesLE value) first count := by
  induction count generalizing address first with
  | zero =>
      unfold loadLE
      rw [ensures_pure_iff]
      exact ⟨rfl, rfl⟩
  | succ count ih =>
      unfold loadLE
      have hWrap : wrap 64 address = address :=
        wrap_of_lt (by omega)
      rw [hWrap, ensures_bind_iff]
      apply (ensures_loadByte hHeaped address).mono
      rintro byte machine ⟨rfl, -, hByte⟩
      have hHead := hBytes 0 (Nat.succ_pos count)
      rw [Nat.add_zero, Nat.add_zero, hByte] at hHead
      cases hHead
      rw [ensures_bind_iff]
      have hTail :
          ∀ i, i < count →
            byteAt slot machine (address + 1 + i) =
              some (bytesLE value (first + 1 + i)) := by
        intro i hi
        have hNext := hBytes (i + 1) (Nat.succ_lt_succ hi)
        rw [show address + 1 + i = address + (i + 1) by omega,
          show first + 1 + i = first + (i + 1) by omega]
        exact hNext
      apply (ih hTail (by omega)).mono
      rintro rest _ ⟨rfl, rfl⟩
      rw [ensures_pure_iff]
      exact ⟨rfl, rfl⟩

end Bytes

end Stdlib

end Whirliscope

------------------------------------------------------------
-- One Call
------------------------------------------------------------

namespace Whirliscope

namespace Stdlib

open ByteMemory FaultProgram Vmm Syscall Userspace

variable {δ : Type}

/- The break does not fall, and the bytes below it stay. -/
structure KeepsHeap
    (slot : Slot)
    (machine after : UserMachine δ) : Prop where
  heaped : Heaped slot after
  break_le : breakOf slot machine ≤ breakOf slot after
  bytes :
    ∀ address, userspaceHeapBase ≤ address →
      address < breakOf slot machine →
        byteAt slot after address =
          byteAt slot machine address

/- A block with its header at the old break. -/
structure Allocates
    (slot : Slot)
    (size : Nat)
    (machine : UserMachine δ)
    (ptr : Nat)
    (after : UserMachine δ) : Prop where
  small : size < 2 ^ 64
  pointer_eq : ptr = breakOf slot machine + headerSize
  room :
    ptr + alignUpSize size userMallocAlign ≤
      breakOf slot after
  header :
    ∀ i, i < headerSize →
      byteAt slot after (breakOf slot machine + i) =
        some (bytesLE (alignUpSize size userMallocAlign) i)

/- A call that returns NULL or a block. -/
def Serves
    (slot : Slot)
    (size : Nat)
    (machine : UserMachine δ)
    (ptr : Nat)
    (after : UserMachine δ) : Prop :=
  KeepsHeap slot machine after ∧
    (ptr ≠ 0 → Allocates slot size machine ptr after)

section Calls

variable {slot : Slot} {machine middle after : UserMachine δ}

theorem KeepsHeap.refl
    (hHeaped : Heaped slot machine) :
    KeepsHeap slot machine machine :=
  ⟨hHeaped, Nat.le_refl _, fun _ _ _ => rfl⟩

theorem KeepsHeap.trans
    (hFirst : KeepsHeap slot machine middle)
    (hNext : KeepsHeap slot middle after) :
    KeepsHeap slot machine after where
  heaped := hNext.heaped
  break_le := Nat.le_trans hFirst.break_le hNext.break_le
  bytes := by
    intro address hLow hHigh
    rw [hNext.bytes address hLow
      (Nat.lt_of_lt_of_le hHigh hFirst.break_le)]
    exact hFirst.bytes address hLow hHigh

theorem Heaped.half
    (hHeaped : Heaped slot machine)
    {address : Nat}
    (hHigh : address < breakOf slot machine) :
    UserHalf address := by
  have hLimit := hHeaped.high
  unfold UserHalf
  unfold userspaceHeapLimit at hLimit
  omega

/- Bytes that are written above the break do not matter. -/
theorem KeepsHeap.wrote
    (hKeeps : KeepsHeap slot machine middle)
    {first count : Nat}
    {source : Bytes}
    (hWrote : Wrote slot first count source middle after)
    (hFirst : breakOf slot machine ≤ first) :
    KeepsHeap slot machine after where
  heaped := hWrote.heaped
  break_le := by
    rw [hWrote.break_eq]
    exact hKeeps.break_le
  bytes := by
    intro address hLow hHigh
    have hHalf :=
      hKeeps.heaped.half
        (Nat.lt_of_lt_of_le hHigh hKeeps.break_le)
    rw [hWrote.bytes address hHalf, if_neg (by omega)]
    exact hKeeps.bytes address hLow hHigh

theorem Serves.null
    (hKeeps : KeepsHeap slot machine after)
    (size : Nat) :
    Serves slot size machine 0 after :=
  ⟨hKeeps, fun hNever => absurd rfl hNever⟩

/- The block is written after its header. -/
theorem Serves.wrote
    {size ptr first count : Nat}
    {source : Bytes}
    (hServes : Serves slot size machine ptr middle)
    (hWrote : Wrote slot first count source middle after)
    (hPtr : ptr ≠ 0)
    (hFirst : ptr ≤ first) :
    Serves slot size machine ptr after := by
  have hBlock := hServes.2 hPtr
  have hPointer := hBlock.pointer_eq
  refine ⟨hServes.1.wrote hWrote (by omega), fun _ => ?_⟩
  refine
    { small := hBlock.small
      pointer_eq := hPointer
      room := ?_
      header := ?_ }
  · rw [hWrote.break_eq]
    exact hBlock.room
  · intro i hi
    have hRoom := hBlock.room
    rw [hWrote.bytes _ (hServes.1.heaped.half (by omega)),
      if_neg (by omega)]
    exact hBlock.header i hi

theorem ensures_userSbrk
    (hHeaped : Heaped slot machine)
    (increment : Nat) :
    Ensures (fun _ => True) (userSbrk increment) machine
      fun result after =>
        KeepsHeap slot machine after ∧
          (result ≠ 0 →
            result = breakOf slot machine ∧
              breakOf slot after =
                wrap 64 (result + increment)) := by
  have hHigh := hHeaped.high
  rcases hHeaped with ⟨written, space, used, hHeap⟩
  unfold userSbrk
  rw [ensures_bind_iff]
  apply (ensures_processSbrk_adds hHeap increment).mono
  intro result after hResult
  cases result with
  | none =>
      rcases hResult.2 rfl with
        ⟨hBreak, space', used', hHeap', hKept⟩
      dsimp only
      rw [if_pos (by decide), ensures_pure_iff]
      refine ⟨?_, fun hNever => absurd rfl hNever⟩
      refine ⟨⟨_, _, _, hHeap'⟩, Nat.le_of_eq hBreak.symm, ?_⟩
      intro address hLow hAddress
      rcases Heaped.exists_byte ⟨_, _, _, hHeap⟩ hLow
          hAddress with ⟨byte, hByte⟩
      rw [hByte]
      exact userByte_kept hHeap.holds hHeap'.holds hKept
        (Heaped.half ⟨_, _, _, hHeap⟩ hAddress) hByte
  | some oldBreak =>
      have hAdds := hResult.1 oldBreak rfl
      rcases hAdds.held with ⟨space', used', hHeap', hExtends⟩
      have hOld := hAdds.oldBreak_eq
      have hSmall : oldBreak < 2 ^ 63 := by
        unfold userspaceHeapLimit at hHigh
        omega
      dsimp only
      rw [if_neg (Int.not_lt.mpr (Steady.signed_nonneg hSmall)),
        ensures_pure_iff]
      have hValue : (signed oldBreak).toNat = oldBreak := by
        unfold signed
        rw [if_pos hSmall]
        exact Int.toNat_natCast oldBreak
      rw [hValue]
      refine ⟨?_, fun _ => ⟨hOld, hAdds.newBreak_eq⟩⟩
      refine ⟨⟨_, _, _, hHeap'⟩, hOld ▸ hAdds.grows, ?_⟩
      intro address hLow hAddress
      rcases Heaped.exists_byte ⟨_, _, _, hHeap⟩ hLow
          hAddress with ⟨byte, hByte⟩
      rw [hByte]
      exact userByte_kept hHeap.holds hHeap'.holds
        hExtends.kept
        (Heaped.half ⟨_, _, _, hHeap⟩ hAddress) hByte

/- The rounded size, and the sizes that are rounded to zero. -/
theorem alignUpSize_facts
    {size : Nat}
    (hSize : size < 2 ^ 64) :
    (size ≤ 2 ^ 64 - 16 →
      size ≤ alignUpSize size userMallocAlign) ∧
    alignUpSize size userMallocAlign + 16 ≤ 2 ^ 64 := by
  have hRound :
      alignUpSize size userMallocAlign =
        wrap 64 (size + 15) - wrap 64 (size + 15) % 16 :=
    @alignDown_two_pow 64 4 _ (by decide) (wrap_lt 64 _)
  rw [hRound]
  unfold wrap
  omega

theorem ensures_malloc
    (hHeaped : Heaped slot machine)
    {size : Nat}
    (hSize : size < 2 ^ 64) :
    Ensures (fun _ => True) (malloc size) machine
      (Serves slot size machine) := by
  have hNull := Serves.null (KeepsHeap.refl hHeaped) size
  have hAligned := (alignUpSize_facts hSize).2
  unfold malloc
  rw [ensures_ite_iff]
  refine ⟨fun _ => (ensures_pure_iff _ _ _ _).mpr hNull, ?_⟩
  intro _
  have hTotal :
      wrap 64
          (headerSize + alignUpSize size userMallocAlign) =
        headerSize + alignUpSize size userMallocAlign := by
    apply wrap_of_lt
    unfold headerSize
    omega
  dsimp only
  rw [hTotal, ensures_bind_iff]
  apply (ensures_userSbrk hHeaped _).mono
  rintro header middle ⟨hKeeps, hHeader⟩
  rw [ensures_ite_iff]
  constructor
  · intro _
    rw [ensures_pure_iff]
    exact Serves.null hKeeps size
  intro hSome
  rcases hHeader hSome with ⟨hOld, hBreak⟩
  have hGrows := hKeeps.break_le
  have hHigh := hHeaped.high
  have hLow := hHeaped.low
  unfold userspaceHeapLimit at hHigh
  -- The sum did not wrap, since the break did not fall.
  have hNew :
      breakOf slot middle =
        header + (headerSize +
          alignUpSize size userMallocAlign) := by
    rw [hBreak] at hGrows ⊢
    unfold wrap headerSize at *
    omega
  rw [ensures_bind_iff]
  apply (ensures_storeLE hKeeps.heaped (by omega) 8
    (alignUpSize size userMallocAlign)).mono
  intro _ after hWrote
  have hPointer :
      wrap 64 (header + headerSize) = header + headerSize := by
    apply wrap_of_lt
    unfold headerSize
    omega
  rw [ensures_pure_iff, hPointer]
  refine ⟨hKeeps.wrote hWrote (by omega), fun _ => ?_⟩
  refine
    { small := hSize
      pointer_eq := by rw [hOld]
      room := ?_
      header := ?_ }
  · rw [hWrote.break_eq]
    omega
  · intro i hi
    have hAt : header + i < breakOf slot middle := by
      omega
    rw [← hOld, hWrote.bytes _ (hKeeps.heaped.half hAt),
      if_pos ⟨Nat.le_add_right _ _, Nat.add_lt_add_left hi _⟩,
      Nat.add_sub_cancel_left]

theorem ensures_calloc
    (hHeaped : Heaped slot machine)
    (nmemb size : Nat) :
    Ensures (fun _ => True) (calloc nmemb size) machine
      (Serves slot (nmemb * size) machine) := by
  unfold calloc
  rw [ensures_ite_iff]
  constructor
  · intro _
    rw [ensures_pure_iff]
    exact Serves.null (KeepsHeap.refl hHeaped) _
  intro hCheck
  have hProduct : nmemb * size < 2 ^ 64 := by
    by_cases hZero : size = 0
    · rw [hZero, Nat.mul_zero]
      decide
    · have hCount : nmemb ≤ sizeMax / size :=
        Nat.le_of_not_lt fun hOver => hCheck ⟨hZero, hOver⟩
      have hMul :=
        (Nat.le_div_iff_mul_le (Nat.pos_of_ne_zero hZero)).mp
          hCount
      unfold sizeMax at hMul
      omega
  dsimp only
  rw [wrap_of_lt hProduct, ensures_bind_iff]
  apply (ensures_malloc hHeaped hProduct).mono
  intro ptr middle hServes
  rw [ensures_ite_iff]
  constructor
  · intro hPtr
    have hPointer := (hServes.2 hPtr).pointer_eq
    have hHigh := hHeaped.high
    unfold userspaceHeapLimit at hHigh
    unfold headerSize at hPointer
    rw [ensures_bind_iff]
    apply (ensures_memset hServes.1.heaped (by omega) 0
      (nmemb * size)).mono
    intro _ after hWrote
    rw [ensures_pure_iff]
    exact hServes.wrote hWrote hPtr (Nat.le_refl ptr)
  · intro _
    rw [ensures_pure_iff]
    exact hServes

/- The new block starts with the bytes of the old one. -/
def Copies
    (slot : Slot)
    (count ptr : Nat)
    (machine : UserMachine δ)
    (newPtr : Nat)
    (after : UserMachine δ) : Prop :=
  newPtr ≠ 0 → ∀ i, i < count →
    byteAt slot after (newPtr + i) =
      byteAt slot machine (ptr + i)

theorem ensures_realloc
    (hHeaped : Heaped slot machine)
    {header oldSize size : Nat}
    (hSize : size < 2 ^ 64)
    (hOldSize : oldSize < 2 ^ 64)
    (hLow : userspaceHeapBase ≤ header)
    (hRoom :
      header + headerSize + oldSize ≤ breakOf slot machine)
    (hHeader :
      ∀ i, i < headerSize →
        byteAt slot machine (header + i) =
          some (bytesLE oldSize i)) :
    Ensures (fun _ => True)
      (realloc (header + headerSize) size) machine
      fun newPtr after =>
        Serves slot size machine newPtr after ∧
          Copies slot (min oldSize size)
            (header + headerSize) machine newPtr after := by
  have hHigh := hHeaped.high
  unfold userspaceHeapLimit at hHigh
  have hNotNull : header + headerSize ≠ 0 :=
    Nat.succ_ne_zero _
  have hNoBlock :
      ∀ {after : UserMachine δ}, KeepsHeap slot machine after →
        Serves slot size machine 0 after ∧
          Copies slot (min oldSize size)
            (header + headerSize) machine 0 after :=
    fun hKeeps =>
      ⟨Serves.null hKeeps size,
        fun hNever => absurd rfl hNever⟩
  unfold realloc free
  rw [if_neg hNotNull, ensures_ite_iff]
  constructor
  · intro _
    rw [ensures_bind_iff, ensures_pure_iff, ensures_pure_iff]
    exact hNoBlock (KeepsHeap.refl hHeaped)
  intro _
  have hOldHeader :
      wrapSub 64 (header + headerSize) headerSize = header := by
    unfold wrapSub headerSize
    omega
  dsimp only
  rw [hOldHeader, ensures_bind_iff]
  apply (ensures_malloc hHeaped hSize).mono
  intro newPtr middle hServes
  rw [ensures_ite_iff]
  constructor
  · rintro rfl
    rw [ensures_pure_iff]
    exact hNoBlock hServes.1
  intro hPtr
  have hKeeps := hServes.1
  have hPointer := (hServes.2 hPtr).pointer_eq
  have hKept :
      ∀ i, i < headerSize + oldSize →
        byteAt slot middle (header + i) =
          byteAt slot machine (header + i) := by
    intro i hi
    apply hKeeps.bytes _ _ (by omega)
    exact Nat.le_trans hLow (Nat.le_add_right _ _)
  have hWord :
      ∀ i, i < 8 →
        byteAt slot middle (header + i) =
          some (bytesLE oldSize (0 + i)) := by
    intro i hi
    rw [hKept i (Nat.lt_of_lt_of_le hi (Nat.le_add_right _ _)),
      Nat.zero_add]
    exact hHeader i hi
  rw [ensures_bind_iff]
  unfold headerSize at hRoom hPointer ⊢
  apply (ensures_loadLE hKeeps.heaped hWord (by omega)).mono
  rintro value middle ⟨rfl, rfl⟩
  have hValue : getLE (bytesLE oldSize) 0 8 = oldSize := by
    rw [getLE_bytesLE]
    omega
  rw [hValue]
  have hMin :
      (if oldSize < size then oldSize else size) =
        min oldSize size := by
    split <;> omega
  have hBehind :
      header + 8 + min oldSize size ≤ newPtr := by
    omega
  rw [hMin, ensures_bind_iff]
  apply (ensures_memcpy hKeeps.heaped (by omega)
    hBehind).mono
  intro _ after hWrote
  rw [ensures_pure_iff]
  refine ⟨hServes.wrote hWrote hPtr (Nat.le_refl _), ?_⟩
  intro _ i hi
  have hSource :
      byteAt slot middle (header + 8 + i) =
        byteAt slot machine (header + 8 + i) := by
    rw [Nat.add_assoc]
    exact hKept (8 + i) (by unfold headerSize; omega)
  have hBelow : header + 8 + i < breakOf slot machine := by
    omega
  rcases hHeaped.exists_byte (by omega) hBelow with
    ⟨byte, hByte⟩
  have hHalf : UserHalf (newPtr + i) := by
    have hNewHalf := hWrote.half
    unfold UserHalf
    omega
  rw [hWrote.bytes _ hHalf, if_pos (by omega),
    Nat.add_sub_cancel_left, hSource, hByte]
  rfl

end Calls

end Stdlib

end Whirliscope

------------------------------------------------------------
-- Runs
------------------------------------------------------------

namespace Whirliscope

namespace Stdlib

open ByteMemory FaultProgram Vmm Syscall Userspace
open Elf (Elf64Image)

variable {δ : Type}

/- A block that was returned, and the break before the call. -/
structure Region where
  request : Nat
  breakBefore : Nat
  pointer : Nat

def Region.Contains
    (region : Region)
    (address : Nat) : Prop :=
  region.pointer ≤ address ∧
    address < region.pointer + region.request

/- The header of the block contains the address. -/
def Region.HeaderContains
    (region : Region)
    (address : Nat) : Prop :=
  region.pointer - headerSize ≤ address ∧
    address < region.pointer

/- A call of one of the heap functions. -/
inductive HeapCall
| malloc (size : Nat)
| calloc (nmemb size : Nat)
| realloc (ptr size : Nat)
| free (ptr : Nat)

namespace HeapCall

def run : HeapCall → UserM δ Nat
| malloc size => Stdlib.malloc size
| calloc nmemb size => Stdlib.calloc nmemb size
| realloc ptr size => Stdlib.realloc ptr size
| free ptr => do
    Stdlib.free ptr
    return 0

/- The number of bytes that the call asks for. -/
def request : HeapCall → Nat
| malloc size => size
| calloc nmemb size => nmemb * size
| realloc _ size => size
| free _ => 0

/-
  The arguments are words, and a pointer that is given to
  `realloc` is NULL or came from these functions.
-/
def Valid
    (regions : List Region) : HeapCall → Prop
| malloc size => size < 2 ^ 64
| calloc nmemb size => nmemb < 2 ^ 64 ∧ size < 2 ^ 64
| realloc ptr size =>
    size < 2 ^ 64 ∧
      (ptr = 0 ∨ ∃ region ∈ regions, region.pointer = ptr)
| free _ => True

/- The regions after the call returned a pointer. -/
def regionsAfter
    (call : HeapCall)
    (breakBefore ptr : Nat)
    (regions : List Region) : List Region :=
  if ptr = 0 then
    regions
  else
    ⟨call.request, breakBefore, ptr⟩ :: regions

end HeapCall

/-
  Runs of the heap functions, in a program that may move its
  break and write outside the headers.
-/
inductive MallocRun
    (slot : Slot)
    (first : UserMachine δ) :
    List Region → UserMachine δ → Prop
| refl : MallocRun slot first [] first
| call
    {regions : List Region}
    {middle after : UserMachine δ}
    {ptr : Nat}
    (call : HeapCall)
    (hRun : MallocRun slot first regions middle)
    (hValid : call.Valid regions)
    (hReturns : Returns call.run middle ptr after) :
    MallocRun slot first
      (call.regionsAfter (breakOf slot middle) ptr regions)
      after
| sbrk
    {regions : List Region}
    {middle after : UserMachine δ}
    {increment oldBreak : Nat}
    (hRun : MallocRun slot first regions middle)
    (hReturns :
      Returns (userSbrk increment) middle oldBreak after) :
    MallocRun slot first regions after
| store
    {regions : List Region}
    {middle after : UserMachine δ}
    {address : Nat}
    {byte : UInt8}
    (hRun : MallocRun slot first regions middle)
    (hOutside :
      ∀ region ∈ regions, ¬ region.HeaderContains address)
    (hReturns :
      Returns (storeByte address byte) middle () after) :
    MallocRun slot first regions after

/- What the callers rely on of the blocks they were given. -/
structure RegionsSound
    (slot : Slot)
    (regions : List Region)
    (machine : UserMachine δ) : Prop where
  aligned :
    ∀ region ∈ regions, region.pointer % userMallocAlign = 0
  inside :
    ∀ region ∈ regions,
      (machine.rest.processes slot).heapStart ≤
          region.pointer ∧
        region.pointer + region.request ≤
          (machine.rest.processes slot).heapCurrent
  apart :
    regions.Pairwise fun newer older =>
      ∀ address, newer.Contains address →
        ¬ older.Contains address
  headers :
    ∀ region ∈ regions, ∀ other ∈ regions, ∀ address,
      region.Contains address → ¬ other.HeaderContains address

/- The next `realloc` of a block keeps what is in it. -/
def ReallocSound
    (slot : Slot)
    (regions : List Region)
    (machine : UserMachine δ) : Prop :=
  ∀ region ∈ regions, ∀ size newPtr after, size < 2 ^ 64 →
    Returns (realloc region.pointer size) machine newPtr
        after →
      Copies slot (min region.request size) region.pointer
        machine newPtr after

/- The block of a region, as its header describes it. -/
structure Block
    (slot : Slot)
    (machine : UserMachine δ)
    (region : Region) : Prop where
  small : region.request < 2 ^ 64
  pointer_eq : region.pointer = region.breakBefore + headerSize
  low : userspaceHeapBase ≤ region.breakBefore
  room :
    region.pointer +
        alignUpSize region.request userMallocAlign ≤
      breakOf slot machine
  header :
    ∀ i, i < headerSize →
      byteAt slot machine (region.breakBefore + i) =
        some
          (bytesLE (alignUpSize region.request userMallocAlign)
            i)

/- The blocks, each behind the ones before it. -/
structure Blocks
    (slot : Slot)
    (regions : List Region)
    (machine : UserMachine δ) : Prop where
  heaped : Heaped slot machine
  block : ∀ region ∈ regions, Block slot machine region
  behind :
    regions.Pairwise fun newer older =>
      older.pointer +
          alignUpSize older.request userMallocAlign ≤
        newer.breakBefore

section Steps

variable {slot : Slot} {machine after : UserMachine δ}
variable {regions : List Region}

theorem Blocks.kept
    (hBlocks : Blocks slot regions machine)
    (hKeeps : KeepsHeap slot machine after) :
    Blocks slot regions after where
  heaped := hKeeps.heaped
  block := by
    intro region hRegion
    have hBlock := hBlocks.block region hRegion
    have hRoom := hBlock.room
    have hPointer := hBlock.pointer_eq
    refine
      { small := hBlock.small
        pointer_eq := hPointer
        low := hBlock.low
        room := Nat.le_trans hRoom hKeeps.break_le
        header := ?_ }
    intro i hi
    have hLow := hBlock.low
    rw [hKeeps.bytes _ (by omega) (by omega)]
    exact hBlock.header i hi
  behind := hBlocks.behind

/- A call that returned a pointer adds its block. -/
theorem Blocks.served
    (hBlocks : Blocks slot regions machine)
    {call : HeapCall}
    {ptr : Nat}
    (hServes : Serves slot call.request machine ptr after) :
    Blocks slot
      (call.regionsAfter (breakOf slot machine) ptr regions)
      after := by
  have hKept := hBlocks.kept hServes.1
  unfold HeapCall.regionsAfter
  split
  · exact hKept
  rename_i hPtr
  have hNew := hServes.2 hPtr
  refine ⟨hKept.heaped, ?_, ?_⟩
  · rw [List.forall_mem_cons]
    refine ⟨?_, hKept.block⟩
    exact
      { small := hNew.small
        pointer_eq := hNew.pointer_eq
        low := hBlocks.heaped.low
        room := hNew.room
        header := hNew.header }
  · rw [List.pairwise_cons]
    exact ⟨fun older hOlder => (hBlocks.block older hOlder).room,
      hBlocks.behind⟩

/- A store outside the headers keeps the blocks. -/
theorem Blocks.stored
    (hBlocks : Blocks slot regions machine)
    {address : Nat}
    {byte : UInt8}
    (hOutside :
      ∀ region ∈ regions, ¬ region.HeaderContains address)
    (hWrote :
      Wrote slot address 1 (fun _ => byte) machine after) :
    Blocks slot regions after where
  heaped := hWrote.heaped
  block := by
    intro region hRegion
    have hBlock := hBlocks.block region hRegion
    have hRoom := hBlock.room
    have hPointer := hBlock.pointer_eq
    have hNot := hOutside region hRegion
    unfold Region.HeaderContains at hNot
    refine
      { small := hBlock.small
        pointer_eq := hPointer
        low := hBlock.low
        room := ?_
        header := ?_ }
    · rw [hWrote.break_eq]
      exact hRoom
    · intro i hi
      rw [hWrote.bytes _ (hBlocks.heaped.half (by omega)),
        if_neg (by omega)]
      exact hBlock.header i hi
  behind := hBlocks.behind

/- `realloc` of a block that was returned. -/
theorem Blocks.ensures_realloc
    (hBlocks : Blocks slot regions machine)
    {region : Region}
    (hRegion : region ∈ regions)
    {size : Nat}
    (hSize : size < 2 ^ 64) :
    Ensures (fun _ => True) (realloc region.pointer size)
      machine
      fun newPtr after =>
        Serves slot size machine newPtr after ∧
          Copies slot
            (min (alignUpSize region.request userMallocAlign)
              size)
            region.pointer machine newPtr after := by
  have hBlock := hBlocks.block region hRegion
  have hRoom := hBlock.room
  have hOldSize := (alignUpSize_facts hBlock.small).2
  rw [hBlock.pointer_eq] at hRoom ⊢
  exact Stdlib.ensures_realloc hBlocks.heaped hSize (by omega)
    hBlock.low hRoom hBlock.header

/- Every call returns NULL or a new block. -/
theorem Blocks.ensures_run
    (hBlocks : Blocks slot regions machine)
    {call : HeapCall}
    (hValid : call.Valid regions) :
    Ensures (fun _ => True) call.run machine
      (Serves slot call.request machine) := by
  cases call with
  | malloc size => exact ensures_malloc hBlocks.heaped hValid
  | calloc nmemb size =>
      exact ensures_calloc hBlocks.heaped nmemb size
  | realloc ptr size =>
      rcases hValid with ⟨hSize, rfl | ⟨region, hRegion, rfl⟩⟩
      · exact ensures_malloc hBlocks.heaped hSize
      · exact (hBlocks.ensures_realloc hRegion hSize).mono
          fun _ _ hBoth => hBoth.1
  | free ptr =>
      exact (ensures_pure_iff _ _ _ _).mpr
        (Serves.null (KeepsHeap.refl hBlocks.heaped) _)

/- A run keeps the blocks. -/
theorem MallocRun.blocks
    {first : UserMachine δ}
    (hFirst : Heaped slot first)
    (hRun : MallocRun slot first regions machine) :
    Blocks slot regions machine := by
  induction hRun with
  | refl =>
      exact ⟨hFirst, (fun _ hNever => nomatch hNever), .nil⟩
  | call call _ hValid hReturns ih =>
      exact ih.served ((ih.ensures_run hValid).of_returns
        hReturns)
  | sbrk _ hReturns ih =>
      exact ih.kept ((ensures_userSbrk ih.heaped _).of_returns
        hReturns).1
  | store _ hOutside hReturns ih =>
      exact ih.stored hOutside
        ((ensures_storeByte ih.heaped _ _).of_returns hReturns)

end Steps

end Stdlib

end Whirliscope

------------------------------------------------------------
-- Soundness
------------------------------------------------------------

namespace Whirliscope

namespace Stdlib

open ByteMemory FaultProgram Vmm Syscall Userspace
open Elf (Elf64Image)

variable {δ : Type}

section Sound

variable {slot : Slot} {machine : UserMachine δ}
variable {regions : List Region}

theorem Heaped.heapStart_eq
    (hHeaped : Heaped slot machine) :
    (machine.rest.processes slot).heapStart =
      userspaceHeapBase := by
  rcases hHeaped with ⟨written, space, used, hHeap⟩
  exact hHeap.heapStart

/- The request fits into its block. -/
theorem Block.request_le
    {region : Region}
    (hBlock : Block slot machine region)
    (hRequest : region.request ≤ 2 ^ 64 - 16) :
    region.request ≤
      alignUpSize region.request userMallocAlign :=
  (alignUpSize_facts hBlock.small).1 hRequest

theorem Blocks.regionsSound
    (hBlocks : Blocks slot regions machine)
    (hRequests :
      ∀ region ∈ regions, region.request ≤ 2 ^ 64 - 16)
    (hBreaks :
      ∀ region ∈ regions, region.breakBefore % 16 = 8) :
    RegionsSound slot regions machine := by
  have hFits :
      ∀ region ∈ regions,
        region.pointer = region.breakBefore + 8 ∧
          region.request ≤
            alignUpSize region.request userMallocAlign :=
    fun region hRegion =>
      ⟨(hBlocks.block region hRegion).pointer_eq,
        (hBlocks.block region hRegion).request_le
          (hRequests region hRegion)⟩
  refine
    { aligned := ?_
      inside := ?_
      apart := ?_
      headers := ?_ }
  · intro region hRegion
    have hBreak := hBreaks region hRegion
    have hPointer := (hFits region hRegion).1
    unfold userMallocAlign
    omega
  · intro region hRegion
    have hBlock := hBlocks.block region hRegion
    have hLow := hBlock.low
    have hRoom := hBlock.room
    rcases hFits region hRegion with ⟨hPointer, hRequest⟩
    rw [hBlocks.heaped.heapStart_eq]
    change _ ∧ _ ≤ breakOf slot machine
    omega
  · apply hBlocks.behind.imp_of_mem
    intro newer older hNewer hOlder hBehind address hIn hOld
    have hPointer := (hFits newer hNewer).1
    have hRequest := (hFits older hOlder).2
    unfold Region.Contains at hIn hOld
    omega
  · apply List.Pairwise.forall_of_forall_of_flip
    · intro region _ address hIn hHeader
      unfold Region.Contains at hIn
      unfold Region.HeaderContains at hHeader
      omega
    · apply hBlocks.behind.imp_of_mem
      intro newer older hNewer hOlder hBehind address hIn hOld
      have hPointer := (hFits newer hNewer).1
      unfold Region.Contains at hIn
      unfold Region.HeaderContains at hOld
      omega
    · apply hBlocks.behind.imp_of_mem
      intro newer older hNewer hOlder hBehind address hIn hNew
      have hPointer := (hFits newer hNewer).1
      have hRequest := (hFits older hOlder).2
      unfold Region.Contains at hIn
      unfold Region.HeaderContains headerSize at hNew
      omega

theorem Blocks.reallocSound
    (hBlocks : Blocks slot regions machine)
    (hRequests :
      ∀ region ∈ regions, region.request ≤ 2 ^ 64 - 16) :
    ReallocSound slot regions machine := by
  intro region hRegion size newPtr after hSize hReturns
  have hCopies :=
    ((hBlocks.ensures_realloc hRegion hSize).of_returns
      hReturns).2
  have hFits :=
    (hBlocks.block region hRegion).request_le
      (hRequests region hRegion)
  intro hPtr i hi
  exact hCopies hPtr i (by omega)

/- A sound region does not come from the failing calls. -/
theorem Blocks.of_sound
    (hBlocks : Blocks slot regions machine)
    (hSound : RegionsSound slot regions machine)
    {region : Region}
    (hRegion : region ∈ regions) :
    region.request ≤ 2 ^ 64 - 16 ∧
      region.breakBefore % 16 = 8 := by
  have hAligned := hSound.aligned region hRegion
  have hInside := (hSound.inside region hRegion).2
  have hPointer := (hBlocks.block region hRegion).pointer_eq
  have hHigh := hBlocks.heaped.high
  change _ ≤ breakOf slot machine at hInside
  unfold userspaceHeapLimit at hHigh
  unfold userMallocAlign at hAligned
  unfold headerSize at hPointer
  omega

/- A program that was loaded starts with an empty heap. -/
theorem heaped_launched
    {image : Bytes}
    {elf : Elf64Image}
    {loaded first : UserMachine δ}
    (hProgram : LoadedProgram image elf slot loaded)
    (hFirst : Launched slot loaded first) :
    Heaped slot first := by
  rcases hFirst.holds hProgram with ⟨space, used, hHolds, -⟩
  have hBreak : breakOf slot first = userspaceHeapBase :=
    hFirst.heapCurrent.trans hProgram.heapCurrent
  refine
    ⟨[], space, used,
      { holds := hHolds
        current := hFirst.current
        heapStart := hFirst.heapStart.trans hProgram.heapStart
        heapEnd := hFirst.heapEnd.trans hProgram.heapEnd
        low := Nat.le_of_eq hBreak.symm
        high := by rw [hBreak]; decide
        mapped := ?_ }⟩
  intro number hLow hHigh
  rw [hBreak] at hHigh
  omega

end Sound

/-
  The blocks that were returned are sound exactly when each
  call found the break eight bytes behind a multiple of
  sixteen and no request was rounded to zero.
-/
theorem malloc_sound_iff
    {boot loaded first machine : UserMachine δ}
    {slot : Slot}
    {pid : Nat}
    {name cwd : List UInt8}
    {image : Bytes}
    {imageSize : Nat}
    {regions : List Region}
    (hRooted : Rooted boot)
    (hLoads :
      Returns
        (processLoadUserImageBytes slot pid name image
          imageSize cwd)
        boot true loaded)
    (hFirst : Launched slot loaded first)
    (hRun : MallocRun slot first regions machine) :
    (RegionsSound slot regions machine ∧
        ReallocSound slot regions machine) ↔
      ∀ region ∈ regions,
        region.request ≤ 2 ^ 64 - 16 ∧
          region.breakBefore % 16 = 8 := by
  rcases (ensures_load_holds hRooted slot pid name image
      imageSize cwd).of_returns hLoads rfl with
    ⟨elf, -, hProgram⟩
  have hBlocks :=
    hRun.blocks (heaped_launched hProgram hFirst)
  constructor
  · exact fun hSound _ hRegion =>
      hBlocks.of_sound hSound.1 hRegion
  · intro hWhen
    have hRequests :
        ∀ region ∈ regions, region.request ≤ 2 ^ 64 - 16 :=
      fun region hRegion => (hWhen region hRegion).1
    exact
      ⟨hBlocks.regionsSound hRequests
          fun region hRegion => (hWhen region hRegion).2,
        hBlocks.reallocSound hRequests⟩

/- A first break that is eight bytes higher. -/
def raisedProgram : UserMachine Unit :=
  finalOr (launch 1 sampleProgram)
    ((userSbrk 8).run (launch 1 sampleProgram))

theorem raisedProgram_run :
    MallocRun 1 (launch 1 sampleProgram) [] raisedProgram := by
  have hReturns :
      Returns (userSbrk 8) (launch 1 sampleProgram)
        0x10000000 raisedProgram :=
    returns_finalOr _ (by decide)
  exact .sbrk .refl hReturns

def alignedProgram : UserMachine Unit :=
  finalOr raisedProgram ((malloc 1).run raisedProgram)

/- The block of one byte is then sound. -/
theorem alignedProgram_sound :
    RegionsSound 1 [⟨1, 0x10000008, 0x10000010⟩]
        alignedProgram ∧
      ReallocSound 1 [⟨1, 0x10000008, 0x10000010⟩]
        alignedProgram := by
  have hReturns :
      Returns (malloc 1) raisedProgram 0x10000010
        alignedProgram :=
    returns_finalOr _ (by decide)
  have hBreak : breakOf 1 raisedProgram = 0x10000008 := by
    decide
  have hRun :
      MallocRun 1 (launch 1 sampleProgram)
        [⟨1, 0x10000008, 0x10000010⟩] alignedProgram := by
    rw [← hBreak]
    exact .call (.malloc 1) raisedProgram_run
      (show 1 < 2 ^ 64 by decide) hReturns
  apply (malloc_sound_iff emptyMachine_rooted
    sampleProgram_loads (launch_launched 1 sampleProgram)
    hRun).mpr
  intro region hRegion
  rw [List.mem_singleton.mp hRegion]
  decide

def misalignedProgram : UserMachine Unit :=
  finalOr (launch 1 sampleProgram)
    ((malloc 1).run (launch 1 sampleProgram))

/- The first block of a program is not aligned. -/
theorem first_block_misaligned :
    ¬ ∀ (boot loaded first machine : UserMachine Unit)
        (slot : Slot) (pid : Nat) (name cwd : List UInt8)
        (image : Bytes) (imageSize : Nat)
        (regions : List Region),
      Rooted boot →
      Returns
          (processLoadUserImageBytes slot pid name image
            imageSize cwd)
          boot true loaded →
      Launched slot loaded first →
      MallocRun slot first regions machine →
        RegionsSound slot regions machine ∧
          ReallocSound slot regions machine := by
  intro hAll
  have hReturns :
      Returns (malloc 1) (launch 1 sampleProgram) 0x10000008
        misalignedProgram :=
    returns_finalOr _ (by decide)
  have hRun :
      MallocRun 1 (launch 1 sampleProgram)
        (HeapCall.regionsAfter (.malloc 1)
          (breakOf 1 (launch 1 sampleProgram)) 0x10000008 [])
        misalignedProgram :=
    .call (.malloc 1) .refl (show 1 < 2 ^ 64 by decide)
      hReturns
  have hSound :=
    (hAll emptyMachine sampleProgram (launch 1 sampleProgram)
      misalignedProgram 1 1 [] [] _ _ _ emptyMachine_rooted
      sampleProgram_loads (launch_launched 1 sampleProgram)
      hRun).1
  have hAligned := hSound.aligned _ (List.mem_cons_self ..)
  revert hAligned
  decide

end Stdlib

end Whirliscope
